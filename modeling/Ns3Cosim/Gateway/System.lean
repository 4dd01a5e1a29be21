import Ns3Cosim.Execution.Transition
import Ns3Cosim.Gateway.Core

/-!
# A connected gateway with its reader thread and its server

The state of a run after `Connect` has returned: the main thread with the
simulator and the gateway, the reader thread, the list of events that the
reader has handed over with `ScheduleWithContext`, and the connection. Every
interleaving of the main thread, the reader thread and the server is a list of
labels.

## Implementation notes

The main thread executes one event at a time. User code runs at the end of a
callback, in an unrelated event, and after `Connect` in the code that called
it. Then the simulator inserts the events handed over so far, and only then
looks for the next event. `Simulator::Run` returns when it was stopped or when
no event is left; `Simulator::Destroy` runs the destroy event.

-/

namespace Ns3Cosim.Gateway

open Execution

/-- The connection as the reader thread sees it. `sent` is every byte the server has sent. -/
structure Connection where
  sent : Str
  available : Str
  closed : Bool
  failed : Bool
  deriving DecidableEq

/-- What the server and the network do. -/
inductive ServerAction
  | send (bytes : Str)
  | close
  | fail

/-- Nothing follows the end of the server's stream. -/
def Connection.act (c : Connection) : ServerAction → Option Connection
  | .send bytes =>
      if c.closed ∨ c.failed then none
      else some { c with sent := c.sent ++ bytes, available := c.available ++ bytes }
  | .close => some { c with closed := true }
  | .fail => some { c with failed := true }

/-- The size of the buffer that `RunThread` hands to `recv`. -/
def bufferSize : ℕ := 4096

/-- `recv`, returning `n` bytes or, for `n = 0`, the end of the stream or an error. It blocks on
an open connection without bytes. -/
def Connection.recv (c : Connection) (n : ℕ) : Option (Recv × Connection) :=
  if n = 0 then
    if c.failed then some (.error, c)
    else if c.closed ∧ c.available = [] then some (.closed, c)
    else none
  else if n ≤ bufferSize ∧ n ≤ c.available.length then
    some (.bytes (c.available.take n), { c with available := c.available.drop n })
  else none

/-- Where the main thread is. `callback` tells user code of the two callbacks from other user
code, `destroying` tells a `Stop` called by `Simulator::Destroy` from one called by an event. -/
inductive MainPc
  | user (callback : Bool)
  | drain
  | loop
  | joining (destroying : Bool)
  | destroyed
  deriving DecidableEq

/-- A state of the whole system. `pushed` is the history of `m_messageQueue`. -/
structure State where
  core : Core
  handoff : List Kind
  reader : Reader
  conn : Connection
  main : MainPc
  pushed : List Str

/-- The steps of a run. -/
inductive Label
  | server (action : ServerAction)
  | reader (n : ℕ)
  | user (action : UserAction)
  | resume
  | drain
  | event
  | join
  | destroy

/-- `Connect` has just returned in a simulator at the time of the call. -/
def State.connected (sim : Simulator Kind) (outbound : Outbound) : State where
  core := (Core.construct sim outbound).connect .connected
  handoff := []
  reader := Reader.start
  conn := ⟨[], [], false, false⟩
  main := .user false
  pushed := []

/-- The outside of a reader step: the locked push, or `ScheduleWithContext`. -/
def State.apply (s : State) : Effect → State
  | .silent => s
  | .push message =>
      { s with core.messageQueue := s.core.messageQueue ++ [message],
               pushed := s.pushed ++ [message] }
  | .schedule kind => { s with handoff := s.handoff ++ [kind] }

/-- The input of a reader step, and the connection after it; only `recv` reads the connection. -/
def State.input (s : State) (n : ℕ) : Option (Option Recv × Connection) :=
  match s.reader.pc with
  | .recv _ => (s.conn.recv n).map fun r => (some r.1, r.2)
  | _ => some (none, s.conn)

/-- One step of the reader thread, in which a `recv` returns `n` bytes. -/
def State.readerStep (D : Delimiters) (s : State) (n : ℕ) : Option State :=
  (s.input n).bind fun i =>
    (s.reader.step D s.core.state i.1).map fun r =>
      { s with reader := r.1, conn := i.2 }.apply r.2

/-- Where the main thread goes on after `Gateway::Stop`. -/
def MainPc.afterStop (destroying : Bool) : MainPc := if destroying then .destroyed else .drain

/-- `Gateway::Stop` up to `m_thread.join()`, or to its end when there is nothing to join. -/
def State.stop (s : State) (destroying : Bool) : State :=
  let c := { s.core with state := .stopping }
  if s.core.state = .connected then
    if c.threadJoinable then { s with core := c, main := .joining destroying }
    else { s with core := c.close.cancelEvents, main := .afterStop destroying }
  else { s with core := c.cancelEvents, main := .afterStop destroying }

/-- The rest of `Gateway::Stop` once `m_thread.join()` returns. -/
def State.joined (s : State) (destroying : Bool) : State :=
  { s with core := s.core.join.close.cancelEvents, main := .afterStop destroying }

/-- The function of an event, called after the event has left the event list. -/
def State.execute (D : Delimiters) (s : State) : Kind → State
  | .waitForNextUpdate => { s with core := s.core.waitForNextUpdate, main := .drain }
  | .forwardUp => { s with core := s.core.forwardUp D, main := .drain }
  | .stop => s.stop false
  | .doInitialize data => { s with core := s.core.doInitialize data, main := .user true }
  | .handleUpdate data => { s with core := s.core.handleUpdate data, main := .user true }
  | .unrelated => { s with main := .user false }

/-- `Simulator::Destroy`: the destroy event has left the list when it calls `Gateway::Stop`. -/
def State.destroy (s : State) : State :=
  if s.core.eventDestroy then { s with core.eventDestroy := false }.stop true
  else { s with main := .destroyed }

/-- What the label does to a system that runs. -/
def State.act (D : Delimiters) (s : State) : Label → Option State
  | .server action => (s.conn.act action).map fun conn => { s with conn := conn }
  | .reader n => s.readerStep D n
  | .user action =>
      match s.main with
      | .user _ => some { s with core := s.core.user D action }
      | _ => none
  | .resume =>
      match s.main with
      | .user _ => some { s with main := .drain }
      | _ => none
  | .drain =>
      if s.main = .drain then
        match s.handoff with
        | kind :: kinds =>
            some { s with core.sim := s.core.sim.scheduleNow kind, handoff := kinds }
        | [] => some { s with main := .loop }
      else none
  | .event =>
      if s.main = .loop ∧ s.core.stopped = false then
        s.core.sim.next?.map fun p => { s with core := s.core.advance p.2 }.execute D p.1.kind
      else none
  | .join =>
      match s.main with
      | .joining destroying =>
          if s.reader.pc = .exited then some (s.joined destroying) else none
      | _ => none
  | .destroy =>
      if s.main = .loop ∧ (s.core.stopped = true ∨ s.core.sim.queue = []) then some s.destroy
      else none

/-- One step of the system. A fatal error ends the run. -/
def step (D : Delimiters) (s : State) (l : Label) : Option State :=
  if s.core.fatal = none then s.act D l else none

end Ns3Cosim.Gateway
