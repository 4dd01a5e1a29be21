import Ns3Cosim.Gateway.Delimiters

/-!
# The reader thread

`Gateway::RunThread` as a machine. Its program counter names the places between
which another thread can act; its two nested loops are `test`, for the outer
`while (m_state == CONNECTED)`, and `search`, for the inner one that looks for
the message delimiter. The string in a program counter is the local variable
that is live there. `recv` waits for the result of the socket call.
-/

namespace Ns3Cosim.Gateway

open Words

/-- `Gateway::STATE`. -/
inductive GatewayState
  | created
  | connected
  | stopping
  deriving DecidableEq

/-- The events of a simulation that a gateway takes part in. The last kind stands for every event
that is none of the gateway's. -/
inductive Kind
  | waitForNextUpdate
  | forwardUp
  | stop
  | doInitialize (data : List Str)
  | handleUpdate (data : List Str)
  | unrelated
  deriving DecidableEq

/-- Whether an event will hand an update to the user. -/
def Kind.isHandleUpdate : Kind → Bool
  | .handleUpdate _ => true
  | _ => false

/-- Where the reader thread is. -/
inductive ReaderPc
  | test
  | search (receivedData : Str)
  | recv (receivedData : Str)
  | failed
  | push (receivedMessage : Str)
  | schedule
  | exited
  deriving DecidableEq

/-- The reader thread and `m_messageBuffer`, which only this thread uses. -/
structure Reader where
  pc : ReaderPc
  messageBuffer : Str
  deriving DecidableEq

/-- What `recv` returned: a positive number of bytes, `0`, or a negative value. -/
inductive Recv
  | bytes (chunk : Str)
  | closed
  | error
  deriving DecidableEq

/-- What a step of the reader thread does outside of it. -/
inductive Effect
  | silent
  | push (message : Str)
  | schedule (kind : Kind)
  deriving DecidableEq

/-- One step of `RunThread`, given the value of `m_state` and, in `recv`, its result. There is no
step after the return of the function, nor in a `recv` that does not return. -/
def Reader.step (D : Delimiters) (state : GatewayState) (result : Option Recv) (r : Reader) :
    Option (Reader × Effect) :=
  match r.pc with
  | .test =>
      if state = .connected then some ({ r with pc := .search r.messageBuffer }, .silent)
      else some ({ r with pc := .exited }, .silent)
  | .search receivedData =>
      match find D.delimiterMessage receivedData with
      | none => some ({ r with pc := .recv receivedData }, .silent)
      | some messageSize =>
          some ({ pc := .push (receivedData.take messageSize)
                  messageBuffer := receivedData.drop (messageSize + D.delimiterMessage.length) },
            .silent)
  | .recv receivedData =>
      match result with
      | none => none
      | some (.bytes chunk) => some ({ r with pc := .search (receivedData ++ chunk) }, .silent)
      | some .closed => some ({ r with pc := .failed }, .silent)
      | some .error => some ({ r with pc := .failed }, .silent)
  | .failed => some ({ r with pc := .exited }, .schedule .stop)
  | .push receivedMessage => some ({ r with pc := .schedule }, .push receivedMessage)
  | .schedule => some ({ r with pc := .test }, .schedule .forwardUp)
  | .exited => none

/-- The reader thread at its start. -/
def Reader.start : Reader := ⟨.test, []⟩

/-- The bytes that the reader has received and not yet cut off as a message. -/
def Reader.unread (r : Reader) : Str :=
  match r.pc with
  | .search receivedData => receivedData
  | .recv receivedData => receivedData
  | _ => r.messageBuffer

/-- The message that the reader has cut off and not yet pushed. -/
def Reader.inFlight (r : Reader) : List Str :=
  match r.pc with
  | .push receivedMessage => [receivedMessage]
  | _ => []

end Ns3Cosim.Gateway
