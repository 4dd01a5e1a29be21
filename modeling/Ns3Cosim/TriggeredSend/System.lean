import Ns3Cosim.Execution.Transition
import Ns3Cosim.TriggeredSend.Application

/-!
# An application in a simulation

The states of a simulation with one `TriggeredSendApplication`. The simulator
executes one event at a time. User code runs in the program that sets the
simulation up, in external events, and in the trace callbacks in the middle of
`SendPacket`; it can call `Send` from all of them. The socket's callbacks and
`DoDispose` are called outside of the application's own functions.
-/

namespace Ns3Cosim.TriggeredSend

open Execution

/-- Where the simulation is: in user code, in a trace callback of `SendPacket`, or between two
events. -/
inductive MainPc
  | user
  | trace
  | loop
  deriving DecidableEq

/-- A state of the simulation. -/
structure State where
  app : Application
  main : MainPc

/-- What code outside of the application can do. -/
inductive UserAction
  | send (numberOfPackets : UInt32)
  | start (delay : ℕ)
  | stop (delay : ℕ)
  | schedule (delay : ℕ)
  | connectionSucceeded
  | connectionFailed
  | dispose
  deriving DecidableEq

/-- The actions that are open to a trace callback. -/
def UserAction.inTrace : UserAction → Bool
  | .send _ | .start _ | .stop _ | .schedule _ => true
  | .connectionSucceeded | .connectionFailed | .dispose => false

/-- The steps of a run. -/
inductive Label
  | user (action : UserAction)
  | resume
  | event (answer : SocketAnswer)
  deriving DecidableEq

/-- The program before the simulation runs. -/
def State.init (sim : Simulator Kind) : State where
  app := .construct sim
  main := .user

/-- One action of code outside of the application. -/
def Application.user (a : Application) : UserAction → Application
  | .send numberOfPackets => a.send numberOfPackets
  | .start delay => { a with sim := a.sim.schedule delay .startApplication }
  | .stop delay => { a with sim := a.sim.schedule delay .stopApplication }
  | .schedule delay => { a with sim := a.sim.schedule delay .external }
  | .connectionSucceeded => a.connectionSucceeded
  | .connectionFailed => a.connectionFailed
  | .dispose => a.doDispose

/-- `TriggeredSendApplication::SendPacket`, up to the trace callbacks if they are called. -/
def State.sendPacket (A : Attributes) (bytesSent : Int32) (a : Application) : State :=
  if a.sim.isPending a.sendPacketEvent then ⟨a.fail .sendPacketNotExpired, .loop⟩
  else if 0 < a.packetCount then
    match a.socket with
    | none => ⟨a.fail .nullSocket, .loop⟩
    | some _ =>
        if bytesSent.toUInt32 = A.packetSize then ⟨a.attempt, .trace⟩
        else ⟨a.attempt.reschedule A, .loop⟩
  else ⟨a, .loop⟩

/-- The function of an event, called after the event has left the event list. -/
def State.execute (A : Attributes) (answer : SocketAnswer) (a : Application) : Kind → State
  | .startApplication => ⟨a.startApplication A answer, .loop⟩
  | .stopApplication => ⟨a.stopApplication, .loop⟩
  | .processSendRequest numberOfPackets => ⟨a.processSendRequest numberOfPackets, .loop⟩
  | .sendPacket => .sendPacket A answer.bytesSent a
  | .external => ⟨a, .user⟩

/-- What the label does to a simulation that runs. -/
def State.act (A : Attributes) (s : State) : Label → Option State
  | .user action =>
      match s.main with
      | .user => some { s with app := s.app.user action }
      | .trace => if action.inTrace then some { s with app := s.app.user action } else none
      | .loop => none
  | .resume =>
      match s.main with
      | .user => some { s with main := .loop }
      | .trace => some ⟨s.app.reschedule A, .loop⟩
      | .loop => none
  | .event answer =>
      match s.main with
      | .loop => s.app.sim.next?.map fun p => .execute A answer (s.app.advance p.1 p.2) p.1.kind
      | _ => none

/-- One step of the simulation. A fatal error ends the run. -/
def step (A : Attributes) (s : State) (l : Label) : Option State :=
  if s.app.fatal = none then s.act A l else none

/-- The kind of the event that a step executes. -/
def Label.executes (s : State) : Label → Option Kind
  | .event _ => s.app.sim.next?.map fun p => p.1.kind
  | _ => none

end Ns3Cosim.TriggeredSend
