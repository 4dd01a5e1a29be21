import Ns3Cosim.Execution.EventQueue
import Ns3Cosim.Gateway.Header
import Ns3Cosim.Gateway.Response
import Ns3Cosim.Gateway.RunThread

/-!
# The main thread's side of a gateway

The members of `Gateway` that the main thread works on, together with the
simulator it runs in, and the functions that the simulator's events call.

## Implementation notes

Times are numbers of nanoseconds, which do not wrap here; `System64` has the
functions whose arithmetic wraps at 64 bits. `eventDestroy` and `threadJoinable`
say whether the destroy event is pending and whether the thread can be joined.
The last four fields are history: they record the callbacks that ran, the
messages that `ForwardUp` took from the queue, and the calls of `join` and
`close`; no function reads them.
-/

namespace Ns3Cosim.Gateway

open Execution

/-- The two callbacks of a derived class. -/
inductive CallbackName
  | doInitialize
  | doUpdate
  deriving DecidableEq

/-- One execution of a callback: which one, with what data, at what simulation time. -/
structure Callback where
  name : CallbackName
  data : List Str
  time : ℤ
  deriving DecidableEq

/-- The simulator, the gateway's members, and their history. -/
structure Core where
  sim : Simulator Kind
  stopped : Bool
  state : GatewayState
  timeStart : ℤ
  timePause : ℤ
  eventWait : EventId
  eventDestroy : Bool
  threadJoinable : Bool
  messageQueue : List Str
  outbound : Outbound
  fatal : Option FatalError
  log : List Callback
  processed : List Str
  joins : ℕ
  closes : ℕ

/-- A constructed gateway in a simulator. `m_timeStart` is `Seconds(-1)`. -/
def Core.construct (sim : Simulator Kind) (outbound : Outbound) : Core where
  sim := sim
  stopped := false
  state := .created
  timeStart := -nanosecondsPerSecond
  timePause := 0
  eventWait := none
  eventDestroy := false
  threadJoinable := false
  messageQueue := []
  outbound := outbound
  fatal := none
  log := []
  processed := []
  joins := 0
  closes := 0

/-- How the socket calls of `Connect` end. -/
inductive ConnectOutcome
  | socketNotCreated
  | addressNotResolved (serverAddress : String)
  | connectionRefused (serverAddress : String) (serverPort : ℕ)
  | connected

/-- `NS_FATAL_ERROR`. -/
def Core.fail (c : Core) (e : FatalError) : Core := { c with fatal := some e }

/-- Pop the event that runs next: the simulator goes on with the rest. -/
def Core.advance (c : Core) (sim : Simulator Kind) : Core := { c with sim := sim }

/-- `m_eventWait = Simulator::ScheduleNow(&Gateway::WaitForNextUpdate, this)`. -/
def Core.scheduleWait (c : Core) : Core :=
  { c with sim := c.sim.scheduleNow .waitForNextUpdate, eventWait := some c.sim.nextUid }

/-- `if (m_eventWait.IsPending()) m_eventWait.Cancel()`. -/
def Core.cancelWait (c : Core) : Core :=
  if c.sim.isPending c.eventWait then { c with sim := c.sim.cancel c.eventWait } else c

/-- `Gateway::Connect`. The thread it starts is at `Reader.start`. -/
def Core.connect (c : Core) (outcome : ConnectOutcome) : Core :=
  if c.state ≠ .created then c.fail .connectCalledTwice
  else match outcome with
    | .socketNotCreated => c.fail .socketNotCreated
    | .addressNotResolved serverAddress => c.fail (.addressNotResolved serverAddress)
    | .connectionRefused serverAddress serverPort =>
        c.fail (.connectionRefused serverAddress serverPort)
    | .connected =>
        { c with state := .connected, eventDestroy := true, threadJoinable := true }.scheduleWait

/-- `Gateway::WaitForNextUpdate`. -/
def Core.waitForNextUpdate (c : Core) : Core :=
  if c.state ≠ .stopping then c.cancelWait.scheduleWait else c

/-- The last branch of `ForwardUp`: cancel the wait, grant time up to the timestamp, and have the
data handled then. -/
def Core.grant (c : Core) (timestamp : ℤ) (values : List Str) : Core :=
  let c := c.cancelWait
  let c := { c with timePause := timestamp - c.timeStart }
  let timeDelta := c.timePause - c.sim.now
  if timeDelta < 0 then c.fail .timestampsNotIncreasing
  else { c with sim := c.sim.schedule timeDelta.toNat (.handleUpdate values) }

/-- The second half of `ForwardUp`, after the header: terminate, first message, or update. -/
def Core.process (c : Core) (timestamp : ℤ) (values : List Str) : Core :=
  if timestamp < 0 then { c with stopped := true }
  else if c.timeStart < 0 then
    { c with timeStart := timestamp, sim := c.sim.scheduleNow (.doInitialize values) }
  else c.grant timestamp values

/-- `front` and `pop` of `m_messageQueue`. -/
def Core.pop (c : Core) (message : Str) (messages : List Str) : Core :=
  { c with messageQueue := messages, processed := c.processed ++ [message] }

/-- `Gateway::ForwardUp`. -/
def Core.forwardUp (D : Delimiters) (c : Core) : Core :=
  match c.messageQueue with
  | [] => c.fail .noQueuedMessage
  | message :: messages =>
      match readMessage D message with
      | .error e => (c.pop message messages).fail e
      | .ok (timestamp, values) => (c.pop message messages).process timestamp values

/-- `Gateway::HandleUpdate` up to the user code of `DoUpdate`. -/
def Core.handleUpdate (c : Core) (data : List Str) : Core :=
  let c := if c.sim.now = c.timePause then c.scheduleWait else c
  { c with log := c.log ++ [⟨.doUpdate, data, c.sim.now⟩] }

/-- The event of `Gateway::DoInitialize`, up to its user code. -/
def Core.doInitialize (c : Core) (data : List Str) : Core :=
  { c with log := c.log ++ [⟨.doInitialize, data, c.sim.now⟩] }

/-- `m_thread.join()`, once it returns. -/
def Core.join (c : Core) : Core := { c with threadJoinable := false, joins := c.joins + 1 }

/-- `close(m_socket)`. -/
def Core.close (c : Core) : Core := { c with closes := c.closes + 1 }

/-- The end of `Gateway::Stop`: cancel the wait and the destroy event. -/
def Core.cancelEvents (c : Core) : Core := { c.cancelWait with eventDestroy := false }

/-- Testing `IsPending` before `Cancel` makes no difference. -/
theorem Core.cancelWait_eq (c : Core) :
    c.cancelWait = { c with sim := c.sim.cancel c.eventWait } := by
  unfold Core.cancelWait
  split
  · rfl
  · rename_i hp
    rw [Simulator.cancel_of_not_isPending (Bool.eq_false_iff.mpr hp)]

theorem Core.cancelEvents_eq (c : Core) :
    c.cancelEvents = { c with sim := c.sim.cancel c.eventWait, eventDestroy := false } := by
  rw [Core.cancelEvents, c.cancelWait_eq]

/-- What user code can do with the simulator and the public functions of the gateway. -/
inductive UserAction
  | schedule (delay : ℕ)
  | simulatorStop
  | setValue (index : ℕ) (value : Str)
  | sendResponse (sent : Bool)
  | connect (outcome : ConnectOutcome)

/-- One action of user code. -/
def Core.user (D : Delimiters) (c : Core) : UserAction → Core
  | .schedule delay => { c with sim := c.sim.schedule delay .unrelated }
  | .simulatorStop => { c with stopped := true }
  | .setValue index value =>
      match setValue D c.outbound index value with
      | .error e => c.fail e
      | .ok outbound => { c with outbound := outbound }
  | .sendResponse sent =>
      if c.state ≠ .connected then c.fail .responseWithoutConnection
      else { c with outbound := sendResponse D c.outbound sent }
  | .connect outcome => c.connect outcome

end Ns3Cosim.Gateway
