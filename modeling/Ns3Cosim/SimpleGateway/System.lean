import Ns3Cosim.Gateway.Runs
import Ns3Cosim.SimpleGateway.Server

/-!
# The simple gateway and its server

The two programs of the example and the connection between them, after the
server has accepted it. The gateway program is the system of
`Gateway.System` whose user code is now known: the two callbacks are
`SimpleGateway::DoInitialize` and `SimpleGateway::DoUpdate`, and the events of
the simulated network call `HandleReceive` and schedule further events.

## Implementation notes

`DoUpdate` is computed when its event begins, since only the main thread touches
the vehicles; `script` is what it has yet to do to the gateway, one action at a
time, so that the other parties act in between. `counts` is history: the entries
of `m_count` when each callback began. The bytes on their way to the server are
those transmitted and not yet received. What reaches a program that has ended is
lost.

A server that closes the connection leaves it open to the gateway, but bytes that
reach it then, or that it has not received, are answered with a reset, and the
next `send` raises the signal that ends the gateway program: this is `reset`.
Whether the answer is there in time is open, so a `send` to a closed server can
also succeed. If it returns an error instead, `SendResponse` only warns, and the
bytes, which nobody receives, are lost either way.
-/

namespace Ns3Cosim.SimpleGateway

open Gateway Execution

/-- A state of both programs. -/
structure State where
  gateway : Gateway.State
  vehicles : List Vehicle
  script : List UserAction
  counts : List (List UInt16)
  aborted : Option UpdateError
  server : Server

/-- The steps of a run. In a step of the server a `recv` returns `n` bytes, and `rand` tells the
values of `std::rand()` for each node. -/
inductive Label
  | server (n : ℕ) (rand : ℕ → ℕ × ℕ)
  | fail
  | reader (n : ℕ)
  | callback
  | reset
  | receive (id : ℕ)
  | network (delay : ℕ)
  | resume
  | drain
  | event
  | join
  | destroy

/-- `main` of the gateway program has just called `Connect`. -/
def State.start (O : Options) (sim : Simulator Kind) (numberOfNodes : UInt16) : State where
  gateway := .connected sim (.construct numberOfNodes.toNat)
  vehicles := SimpleGateway.vehicles numberOfNodes.toNat
  script := []
  counts := []
  aborted := none
  server := Server.start O

/-- The gateway program has not ended with an error. -/
def State.Alive (s : State) : Prop := s.gateway.core.fatal = none ∧ s.aborted = none

instance (s : State) : Decidable s.Alive := inferInstanceAs (Decidable (_ ∧ _))

/-- The size of the buffer that the server hands to `recv`. -/
def responseSize : ℕ := 4095

/-- The bytes on their way to the server. -/
def State.inFlight (s : State) : Str :=
  s.gateway.core.outbound.transmitted.drop s.server.responses.flatten.length

/-- `recv` of the server, returning `n` bytes or, for `n = 0`, the end of the stream or an error. -/
def State.recv (s : State) (n : ℕ) : Option Recv :=
  if n = 0 then
    if s.gateway.conn.failed then some .error
    else if (¬ s.Alive ∨ 0 < s.gateway.core.closes) ∧ s.inFlight = [] then some .closed
    else none
  else if n ≤ responseSize ∧ n ≤ s.inFlight.length then some (.bytes (s.inFlight.take n))
  else none

/-- What a step of the server does to the connection. -/
def ServerEffect.action : ServerEffect → Option ServerAction
  | .silent => none
  | .send bytes => some (.send bytes)
  | .close => some .close

/-- The connection of the gateway after a step of the server. -/
def State.deliver (s : State) (effect : ServerEffect) : Option Connection :=
  match effect.action with
  | none => some s.gateway.conn
  | some action => if s.Alive then s.gateway.conn.act action else some s.gateway.conn

/-- A step of the gateway program, unless it has ended. -/
def State.main (s : State) (l : Gateway.Label) : Option State :=
  if s.aborted = none then
    (Gateway.step defaultDelimiters s.gateway l).map fun gateway => { s with gateway := gateway }
  else none

/-- The beginning of a callback, given what the code of the derived class does. -/
def State.begin (s : State) (result : Except UpdateError (List Vehicle × List UserAction)) : State :=
  match result with
  | .ok (vehicles, script) =>
      { s with vehicles := vehicles, script := script,
               counts := s.counts ++ [s.vehicles.map Vehicle.count] }
  | .error e => { s with aborted := some e }

/-- The code of the derived class that an event calls. -/
def State.call (s : State) : Kind → State
  | .doInitialize data => s.begin (SimpleGateway.doInitialize s.vehicles data)
  | .handleUpdate data => s.begin (doUpdate s.vehicles data)
  | .waitForNextUpdate | .forwardUp | .stop | .unrelated => s

/-- The gateway sends on a connection that can have been reset: the network has broken it, or bytes
reach a server that has closed it. -/
def State.PipeBroken (s : State) : Prop :=
  s.gateway.conn.failed = true ∨ s.gateway.conn.closed = true ∧ s.inFlight ≠ []

instance (s : State) : Decidable s.PipeBroken := inferInstanceAs (Decidable (_ ∨ _))

/-- `send` fails on a broken connection. -/
def answer (conn : Connection) : UserAction → UserAction
  | .sendResponse _ => .sendResponse (!conn.failed)
  | action => action

/-- One step of the two programs. -/
def step (O : Options) (s : State) : Label → Option State
  | .server n rand =>
      (s.server.step O s.gateway.conn.failed (s.recv n) rand).bind fun r =>
        (s.deliver r.2).map fun conn => { s with server := r.1, gateway.conn := conn }
  | .fail => s.main (.server .fail)
  | .reader n => s.main (.reader n)
  | .callback =>
      match s.script with
      | [] => none
      | action :: script =>
          { s with script := script }.main (.user (answer s.gateway.conn action))
  | .reset =>
      match s.script with
      | .sendResponse _ :: _ =>
          if s.Alive ∧ s.gateway.main = .user true ∧ s.gateway.core.state = .connected ∧
              s.PipeBroken then
            some { s with aborted := some .brokenPipe }
          else none
      | _ => none
  | .receive id =>
      if s.Alive ∧ s.gateway.main = .user false ∧ id < s.vehicles.length then
        match handleReceive s.vehicles (decimal id) with
        | .ok vehicles => some { s with vehicles := vehicles }
        | .error e => some { s with aborted := some e }
      else none
  | .network delay =>
      if s.gateway.main = .user false then s.main (.user (.schedule delay)) else none
  | .resume => if s.script = [] then s.main .resume else none
  | .drain => s.main .drain
  | .event =>
      s.gateway.core.sim.next?.bind fun p => (s.main .event).map fun s' => s'.call p.1.kind
  | .join => s.main .join
  | .destroy => s.main .destroy

/-- The state occurs in a run, with steps that all meet `ok`, of the two programs. The applications
of the vehicles have scheduled any events by then. -/
def Occurs (O : Options) (numberOfNodes : UInt16) (ok : State → Label → Prop) (s : State) : Prop :=
  ∃ sim : Simulator Kind, (∀ e ∈ sim.queue, e.kind = .unrelated) ∧ sim.now = 0 ∧
    Reach (SimpleGateway.step O) ok (.start O sim numberOfNodes) s

/-- The network does not break the connection. -/
def Unbroken (_ : State) : Label → Prop
  | .fail => False
  | _ => True

/-- Neither does a response that reaches a closed server. -/
def Undisturbed (_ : State) : Label → Prop
  | .fail | .reset => False
  | _ => True

end Ns3Cosim.SimpleGateway
