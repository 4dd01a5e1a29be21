import Ns3Cosim.Gateway.RunThread
import Ns3Cosim.SimpleGateway.Vehicles

/-!
# The simple gateway server

The message protocol of the server program, from the accepted connection to its
end, as a machine. `loop` is the head of the `for` loop with the message that
it sends, `recv` waits for the response, and `received` is the rest of the
loop's body: the signal to terminate in the last iteration, and the movement of
the nodes in the others.

## Implementation notes

The three vectors of the program have one entry for each node, so they are one
list here. `rounds`, `responses` and `terminated` are history: the nodes that
each message was about, what each `recv` returned, and whether the signal to
terminate was sent; no function reads them.

-/

namespace Ns3Cosim.SimpleGateway

open Gateway

/-- The command line. `std::rand() % 0` is undefined. -/
structure Options where
  timeStart : UInt32
  timeDelta : UInt32
  iterations : UInt32
  numberOfNodes : UInt16
  positionDeltaX : UInt16
  positionDeltaX_ne : positionDeltaX ≠ 0

/-- The entries of `xVelocity`, `xPosition` and `broadcast` for one node. -/
structure ServerNode where
  xVelocity : UInt16
  xPosition : UInt16
  broadcast : UInt16
  deriving DecidableEq

/-- The fatal errors of the server. -/
inductive ServerError
  | sendFailed
  | receiveFailed
  deriving DecidableEq

/-- The text that `NS_FATAL_ERROR` prints. -/
def ServerError.text : ServerError → String
  | .sendFailed => "ERROR: failed to send a message"
  | .receiveFailed => "ERROR: failed to receive response"

/-- Where the server is. -/
inductive ServerPc
  | loop
  | recv
  | received
  | finish
  | exited
  | failed (e : ServerError)
  deriving DecidableEq

/-- The variables of the loop, and its history. -/
structure Server where
  pc : ServerPc
  i : ℕ
  nodes : List ServerNode
  rounds : List (List ServerNode)
  responses : List Str
  terminated : Bool

/-- The server when it has accepted the connection. -/
def Server.start (O : Options) : Server where
  pc := .loop
  i := 0
  nodes := List.replicate O.numberOfNodes.toNat ⟨0, 0, 0⟩
  rounds := []
  responses := []
  terminated := false

/-- `timeNow` in the `i`-th iteration, in seconds. -/
def timeNow (O : Options) (i : ℕ) : UInt32 := O.timeStart + O.timeDelta * UInt32.ofNat i

/-- The loop that adds the nodes from the `n`-th on to a message. -/
def appendNodes : ℕ → Str → List ServerNode → Str
  | _, message, [] => message
  | n, message, node :: nodes =>
      let message := message ++ [' '] ++ decimal node.xPosition.toNat ++ [' '] ++ decimal n ++
        [' ', '0']
      let message := message ++ [' '] ++ decimal node.xVelocity.toNat ++ [' ', '0', ' ', '0']
      let message := message ++ [' '] ++ decimal node.broadcast.toNat
      appendNodes (n + 1) message nodes

/-- The message of one iteration. -/
def message (timeNow : UInt32) (nodes : List ServerNode) : Str :=
  appendNodes 0 (decimal timeNow.toNat ++ [' ', '0']) nodes ++ ['\r', '\n']

/-- The signal to terminate. -/
def terminateMessage : Str := ['-', '1', ' ', '0', '\r', '\n']

/-- The movement of one node in the `i`-th iteration, with two values of `std::rand()`. -/
def ServerNode.move (O : Options) (i : ℕ) (rand : ℕ × ℕ) (node : ServerNode) : ServerNode :=
  let xVelocity := UInt16.ofNat (rand.1 % O.positionDeltaX.toNat + 1)
  { xVelocity := xVelocity
    xPosition := node.xPosition + xVelocity
    broadcast := if i % 5 = 0 ∧ rand.2 % 2 = 0 then 1 else 0 }

/-- What a step of the server does to the connection. -/
inductive ServerEffect
  | silent
  | send (bytes : Str)
  | close
  deriving DecidableEq

/-- The server ends with an error, and the system closes its sockets. -/
def Server.fail (s : Server) (e : ServerError) : Server × ServerEffect :=
  ({ s with pc := .failed e }, .close)

/-- `send`, which fails on a broken connection. -/
def Server.send (s : Server) (broken : Bool) (bytes : Str) : Server × ServerEffect :=
  if broken then s.fail .sendFailed else (s, .send bytes)

/-- One step of the server, given whether the connection is broken, the result of `recv`, and the
values of `std::rand()` for each node. -/
def Server.step (O : Options) (broken : Bool) (result : Option Recv) (rand : ℕ → ℕ × ℕ)
    (s : Server) : Option (Server × ServerEffect) :=
  match s.pc with
  | .loop =>
      if s.i < O.iterations.toNat then
        some (Server.send { s with pc := .recv, rounds := s.rounds ++ [s.nodes] } broken
          (message (timeNow O s.i) s.nodes))
      else some ({ s with pc := .finish }, .silent)
  | .recv =>
      match result with
      | none => none
      | some (.bytes chunk) =>
          some ({ s with pc := .received, responses := s.responses ++ [chunk] }, .silent)
      | some .closed => some ({ s with pc := .finish }, .silent)
      | some .error => some (s.fail .receiveFailed)
  | .received =>
      if s.i = O.iterations.toNat - 1 then
        some (Server.send { s with pc := .loop, i := s.i + 1, terminated := true } broken
          terminateMessage)
      else
        some ({ s with
          pc := .loop, i := s.i + 1,
          nodes := s.nodes.mapIdx fun n node => node.move O s.i (rand n) }, .silent)
  | .finish => some ({ s with pc := .exited }, .close)
  | .exited => none
  | .failed _ => none

/-- What a node of the server says about the vehicle with its index. -/
def ServerNode.data (n : ℕ) (node : ServerNode) : VehicleData where
  position := ⟨node.xPosition.toNat, n, 0⟩
  velocity := ⟨node.xVelocity.toNat, 0, 0⟩
  send := node.broadcast.toNat

/-- What a message says about the vehicles. -/
def roundData (nodes : List ServerNode) : List VehicleData := nodes.mapIdx ServerNode.data

end Ns3Cosim.SimpleGateway
