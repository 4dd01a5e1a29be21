import Ns3Cosim.Execution.EventQueue

/-!
# The triggered send application

The members of `TriggeredSendApplication` together with the simulator it runs
in, and the functions that the simulator's events, the socket and the caller of
`Send` call.

## Implementation notes

An address is kept as what `IsMatchingType` tells of it and what `operator<<`
prints. What the socket answers to `Bind`, `Connect` and `Send` is an input.
`SendPacket` stands here in two halves, before and after the trace callbacks,
since these are user code. The last three fields of `Application` are history:
they record the calls of `m_socket->Send`, the executed events, and whether
`StopApplication` was executed after the latest `StartApplication`; no function
reads them.

-/

namespace Ns3Cosim.TriggeredSend

open Execution

/-- The types of address that the application tells apart. -/
inductive AddressKind
  | invalid
  | inet
  | inet6
  | packetSocket
  | other
  deriving DecidableEq

/-- An `ns3::Address`. -/
structure Address where
  kind : AddressKind
  shown : String
  deriving DecidableEq

/-- The ways in which the application ends the program. -/
inductive FatalError
  | remoteNotSet
  | incompatibleVersions
  | bindFailed (peer : Address)
  | connectFailed
  | sendPacketNotExpired
  | nullSocket
  deriving DecidableEq

/-- The text that is printed. -/
def FatalError.text : FatalError → String
  | remoteNotSet => "'Remote' attribute not properly set"
  | incompatibleVersions => "Incompatible peer and local address IP version"
  | bindFailed peer => "Failed to bind socket for " ++ peer.shown
  | connectFailed => "Socket failed to connect."
  | sendPacketNotExpired => "assert failed. cond=\"m_sendPacketEvent.IsExpired()\""
  | nullSocket => "Attempted to dereference zero pointer"

/-- The attributes. Their checker refuses packets of size 0; an interval below the time resolution
is the interval 0. -/
structure Attributes where
  localAddress : Address
  remoteAddress : Address
  tos : UInt8
  packetSize : UInt32
  packetInterval : ℕ
  packetSize_pos : 0 < packetSize

/-- What the functions of the application do to its socket. -/
structure Socket where
  tos : Option UInt8
  allowBroadcast : Bool
  recvShutdown : Bool
  closed : Bool
  deriving DecidableEq

/-- The events of a simulation with one application. -/
inductive Kind
  | startApplication
  | stopApplication
  | processSendRequest (numberOfPackets : UInt32)
  | sendPacket
  | external
  deriving DecidableEq

/-- What `Connect` has reported through its callbacks when it returns. -/
inductive ConnectAnswer
  | pending
  | succeeded
  | failed
  deriving DecidableEq

/-- What the socket answers while an event is executed. -/
structure SocketAnswer where
  bind : Int32
  connect : ConnectAnswer
  bytesSent : Int32
  deriving DecidableEq

/-- The simulator, the members of the application, and their history. -/
structure Application where
  sim : Simulator Kind
  socket : Option Socket
  connected : Bool
  packetCount : UInt32
  sendPacketEvent : EventId
  fatal : Option FatalError
  attempts : List ℤ
  executed : List (Event Kind)
  stopped : Bool

/-- A constructed application in a simulator. -/
def Application.construct (sim : Simulator Kind) : Application where
  sim := sim
  socket := none
  connected := false
  packetCount := 0
  sendPacketEvent := none
  fatal := none
  attempts := []
  executed := []
  stopped := false

/-- The program ends. -/
def Application.fail (a : Application) (e : FatalError) : Application := { a with fatal := some e }

/-- Take the event that runs next from the event list. -/
def Application.advance (a : Application) (e : Event Kind) (sim : Simulator Kind) : Application :=
  { a with sim := sim, executed := a.executed ++ [e] }

/-- `TriggeredSendApplication::Send`. -/
def Application.send (a : Application) (numberOfPackets : UInt32) : Application :=
  if numberOfPackets = 0 then a
  else { a with sim := a.sim.scheduleNow (.processSendRequest numberOfPackets) }

/-- `TriggeredSendApplication::CancelEvents`. -/
def Application.cancelEvents (a : Application) : Application :=
  if a.sim.isPending a.sendPacketEvent then { a with sim := a.sim.cancel a.sendPacketEvent } else a

/-- `TriggeredSendApplication::DoDispose`. -/
def Application.doDispose (a : Application) : Application := { a.cancelEvents with socket := none }

/-- `TriggeredSendApplication::ConnectionSucceeded`. -/
def Application.connectionSucceeded (a : Application) : Application := { a with connected := true }

/-- `TriggeredSendApplication::ConnectionFailed`. -/
def Application.connectionFailed (a : Application) : Application := a.fail .connectFailed

/-- The value of `returnValue` after the calls of `Bind` and `Bind6`, one of which returns
`answer`. -/
def bindSocket (A : Attributes) (answer : Int32) : Except FatalError Int32 :=
  if A.localAddress.kind ≠ .invalid then
    if A.remoteAddress.kind = .inet ∧ A.localAddress.kind = .inet6 ∨
        A.remoteAddress.kind = .inet6 ∧ A.localAddress.kind = .inet then
      .error .incompatibleVersions
    else .ok answer
  else if A.remoteAddress.kind = .inet6 then .ok answer
  else if A.remoteAddress.kind = .inet ∨ A.remoteAddress.kind = .packetSocket then .ok answer
  else .ok (-1)

/-- The socket as `StartApplication` leaves it. -/
def Attributes.socket (A : Attributes) : Socket where
  tos := if A.remoteAddress.kind = .inet then some A.tos else none
  allowBroadcast := true
  recvShutdown := true
  closed := false

/-- The part of `StartApplication` that creates, binds and connects a socket. -/
def Application.createSocket (A : Attributes) (answer : SocketAnswer) (a : Application) :
    Application :=
  if A.remoteAddress.kind = .invalid then a.fail .remoteNotSet
  else match bindSocket A answer.bind with
    | .error e => a.fail e
    | .ok returnValue =>
        if returnValue = -1 then a.fail (.bindFailed A.remoteAddress)
        else match answer.connect with
          | .pending => { a with socket := some A.socket }.cancelEvents
          | .succeeded => { a with socket := some A.socket }.connectionSucceeded.cancelEvents
          | .failed => { a with socket := some A.socket }.connectionFailed

/-- `TriggeredSendApplication::StartApplication`. -/
def Application.startApplication (A : Attributes) (answer : SocketAnswer) (a : Application) :
    Application :=
  let a := { a with stopped := false }
  match a.socket with
  | none => a.createSocket A answer
  | some _ => a.cancelEvents

/-- `TriggeredSendApplication::StopApplication`. -/
def Application.stopApplication (a : Application) : Application :=
  let a := { a.cancelEvents with stopped := true }
  match a.socket with
  | some socket => { a with socket := some { socket with closed := true } }
  | none => a

/-- `TriggeredSendApplication::ProcessSendRequest`. -/
def Application.processSendRequest (a : Application) (numberOfPackets : UInt32) : Application :=
  if a.socket.isSome ∧ a.connected = true then
    if a.sim.isPending a.sendPacketEvent then { a with packetCount := numberOfPackets }
    else
      { a with packetCount := numberOfPackets, sim := a.sim.scheduleNow .sendPacket,
               sendPacketEvent := some a.sim.nextUid }
  else a

/-- The call of `m_socket->Send` in `SendPacket`. -/
def Application.attempt (a : Application) : Application :=
  { a with attempts := a.attempts ++ [a.sim.now] }

/-- What `SendPacket` does after the trace callbacks. -/
def Application.reschedule (A : Attributes) (a : Application) : Application :=
  { a with packetCount := a.packetCount - 1,
           sim := a.sim.schedule A.packetInterval .sendPacket,
           sendPacketEvent := some a.sim.nextUid }

/-- Testing `IsPending` before `Cancel` makes no difference. -/
theorem Application.cancelEvents_eq (a : Application) :
    a.cancelEvents = { a with sim := a.sim.cancel a.sendPacketEvent } := by
  unfold Application.cancelEvents
  split
  · rfl
  · rename_i hp
    rw [Simulator.cancel_of_not_isPending (Bool.eq_false_iff.mpr hp)]

end Ns3Cosim.TriggeredSend
