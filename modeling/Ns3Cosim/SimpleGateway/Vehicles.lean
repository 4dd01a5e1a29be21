import Mathlib.Algebra.Group.Nat.Defs
import Ns3Cosim.Gateway.Core
import Ns3Cosim.Gateway.Decimal
import Ns3Cosim.Mobility.ExternalMobilityModel

/-!
# The vehicles of the simple gateway

`SimpleGateway` derives from `Gateway` and moves a list of vehicles as the
server tells it. `DoUpdate` reads seven values for each vehicle, sets the
position and the velocity of its mobility model, triggers its application if
the send flag is set, and puts the number of broadcasts that the vehicle has
received into the response.

## Implementation notes

`m_vehicles` and `m_count` have one entry for each vehicle, so they are one list
here. A coordinate is the value of `std::stoi` or an index, and a `double` holds
such a number exactly. What `DoUpdate` does to the gateway and to the simulator
is the list of actions that it returns: the simulator gets one event from each
call of `Send(3)`, and the last action is the response. `sends` is history, the
number of calls of `Send(3)`.

-/

namespace Ns3Cosim.SimpleGateway

open Gateway Mobility

/-- An `ns3::Vector` with whole coordinates. -/
structure Vector3D where
  x : ℤ
  y : ℤ
  z : ℤ
  deriving DecidableEq

instance : Zero Vector3D := ⟨⟨0, 0, 0⟩⟩

/-- A vehicle: its mobility model, its entry of `m_count`, and the calls of `Send(3)`. -/
structure Vehicle where
  mobility : ExternalMobilityModel Vector3D
  count : UInt16
  sends : ℕ
  deriving DecidableEq

/-- A vehicle as `main` sets it up: the position allocator puts it at `(0,i,0)`. -/
def Vehicle.construct (i : ℕ) : Vehicle where
  mobility := ExternalMobilityModel.construct.doSetPosition ⟨0, i, 0⟩
  count := 0
  sends := 0

/-- The vehicles of a gateway with `numberOfNodes` nodes. -/
def vehicles (numberOfNodes : ℕ) : List Vehicle := (List.range numberOfNodes).map Vehicle.construct

/-- How the program ends in the code of the derived class: with `NS_FATAL_ERROR`, with an exception of
`std::stoi` or `std::vector::at` that nothing catches, or with the signal `SIGPIPE` of the `send` in
`SendResponse`, which nothing handles. -/
inductive UpdateError
  | insufficientSize
  | conversion
  | indexOutOfRange
  | brokenPipe
  deriving DecidableEq

/-- The text that `NS_FATAL_ERROR` prints. -/
def UpdateError.text : UpdateError → Option String
  | .insufficientSize => some "ERROR: received data has insufficient size"
  | .conversion | .indexOutOfRange | .brokenPipe => none

/-- `ELEMENTS_PER_VEHICLE`: position, velocity and send flag. -/
def elementsPerVehicle : ℕ := 7

/-- `std::stoi(data[index])`. -/
def readInt (data : List Str) (index : ℕ) : Except UpdateError ℤ :=
  match stoi (data.getD index []) with
  | some n => .ok n
  | none => .error .conversion

/-- The vector that three elements of the data show. -/
def readVector (data : List Str) (index : ℕ) : Except UpdateError Vector3D := do
  let x ← readInt data index
  let y ← readInt data (index + 1)
  let z ← readInt data (index + 2)
  return ⟨x, y, z⟩

/-- One round of the loop of `DoUpdate`. -/
def updateVehicle (data : List Str) (i : ℕ) (vehicle : Vehicle) :
    Except UpdateError (Vehicle × List UserAction) := do
  let dataIndex := i * elementsPerVehicle
  if data.length < dataIndex + elementsPerVehicle then throw .insufficientSize
  let position ← readVector data dataIndex
  let mobility := vehicle.mobility.doSetPosition position
  let velocity ← readVector data (dataIndex + 3)
  let mobility := mobility.setVelocity velocity
  let send ← readInt data (dataIndex + 6)
  let setCount := UserAction.setValue i (decimal vehicle.count.toNat)
  if send ≠ 0 then
    return ({ vehicle with mobility := mobility, sends := vehicle.sends + 1 },
      [.schedule 0, setCount])
  else return ({ vehicle with mobility := mobility }, [setCount])

/-- The loop of `DoUpdate` over the vehicles from the `i`-th on. -/
def updateVehicles (data : List Str) :
    ℕ → List Vehicle → Except UpdateError (List Vehicle × List UserAction)
  | _, [] => return ([], [])
  | i, vehicle :: rest => do
      let (vehicle, actions) ← updateVehicle data i vehicle
      let (rest, later) ← updateVehicles data (i + 1) rest
      return (vehicle :: rest, actions ++ later)

/-- `SimpleGateway::DoUpdate`. -/
def doUpdate (vehicles : List Vehicle) (data : List Str) :
    Except UpdateError (List Vehicle × List UserAction) := do
  let (vehicles, actions) ← updateVehicles data 0 vehicles
  return (vehicles, actions ++ [.sendResponse true])

/-- `SimpleGateway::DoInitialize`. -/
def doInitialize (vehicles : List Vehicle) (data : List Str) :
    Except UpdateError (List Vehicle × List UserAction) := doUpdate vehicles data

/-- `SimpleGateway::HandleReceive`. -/
def handleReceive (vehicles : List Vehicle) (id : Str) : Except UpdateError (List Vehicle) :=
  match stoi id with
  | none => .error .conversion
  | some n =>
      if 0 ≤ n ∧ n.toNat < vehicles.length then
        .ok (vehicles.modify n.toNat fun vehicle => { vehicle with count := vehicle.count + 1 })
      else .error .indexOutOfRange

/-- What a message says about one vehicle. -/
structure VehicleData where
  position : Vector3D
  velocity : Vector3D
  send : ℤ
  deriving DecidableEq

/-- The seven values of the message. -/
def VehicleData.fields (d : VehicleData) : List Str :=
  [d.position.x, d.position.y, d.position.z, d.velocity.x, d.velocity.y, d.velocity.z, d.send].map
    decimal

/-- All values fit into the `int` that `std::stoi` returns. -/
def VehicleData.InRange (d : VehicleData) : Prop :=
  ∀ n ∈ [d.position.x, d.position.y, d.position.z, d.velocity.x, d.velocity.y, d.velocity.z, d.send],
    -2 ^ 31 ≤ n ∧ n < 2 ^ 31

instance (d : VehicleData) : Decidable d.InRange := inferInstanceAs (Decidable (∀ n ∈ _, _))

/-- A vehicle once the data has been handled. -/
def Vehicle.update (vehicle : Vehicle) (d : VehicleData) : Vehicle :=
  { vehicle with
    mobility := (vehicle.mobility.doSetPosition d.position).setVelocity d.velocity,
    sends := if d.send ≠ 0 then vehicle.sends + 1 else vehicle.sends }

/-- The actions for one vehicle. -/
def Vehicle.actions (i : ℕ) (vehicle : Vehicle) (d : VehicleData) : List UserAction :=
  (if d.send ≠ 0 then [.schedule 0] else []) ++ [.setValue i (decimal vehicle.count.toNat)]

/-- The actions for the vehicles from the `i`-th on. -/
def settings : ℕ → List Vehicle → List VehicleData → List UserAction
  | i, vehicle :: rest, d :: ds => vehicle.actions i d ++ settings (i + 1) rest ds
  | _, _, _ => []

section Update

variable {after : List Str} {d : VehicleData}

theorem VehicleData.length_fields (d : VehicleData) : d.fields.length = elementsPerVehicle := rfl

theorem ok_bind {ε α β : Type} (a : α) (f : α → Except ε β) : (Except.ok a >>= f) = f a := rfl

/-- A number that the data shows at an index is read there. -/
theorem readInt_eq {data : List Str} {index : ℕ} {n : ℤ} (hdata : data[index]? = some (decimal n))
    (hn : -2 ^ 31 ≤ n ∧ n < 2 ^ 31) : readInt data index = .ok n := by
  unfold readInt
  rw [List.getD_eq_getElem?_getD, hdata, Option.getD_some, stoi_decimal hn]

theorem readVector_eq {data : List Str} {index : ℕ} {v : Vector3D}
    (hx : readInt data index = .ok v.x) (hy : readInt data (index + 1) = .ok v.y)
    (hz : readInt data (index + 2) = .ok v.z) : readVector data index = .ok v := by
  rw [readVector, hx, hy, hz]
  rfl

/-- `DoUpdate` reads the data of a vehicle where the message has it. -/
theorem updateVehicle_eq (before : List Str) (i : ℕ) (vehicle : Vehicle)
    (hlen : before.length = i * elementsPerVehicle)
    (hd : d.InRange) :
    updateVehicle (before ++ d.fields ++ after) i vehicle =
      .ok (vehicle.update d, vehicle.actions i d) := by
  have hget : ∀ j n, (d.fields)[j]? = some (decimal n) → -2 ^ 31 ≤ n ∧ n < 2 ^ 31 →
      readInt (before ++ d.fields ++ after) (i * elementsPerVehicle + j) = .ok n := by
    intro j n hj hn
    have hlt : j < d.fields.length := (List.getElem?_eq_some_iff.mp hj).1
    apply readInt_eq _ hn
    rw [List.append_assoc, ← hlen, List.getElem?_append_right (Nat.le_add_right _ _),
      Nat.add_sub_cancel_left, List.getElem?_append_left hlt]
    exact hj
  have hsize : ¬ (before ++ d.fields ++ after).length <
      i * elementsPerVehicle + elementsPerVehicle := by
    rw [List.length_append, List.length_append, hlen, d.length_fields]
    omega
  simp only [VehicleData.InRange, List.forall_mem_cons] at hd
  obtain ⟨hpx, hpy, hpz, hvx, hvy, hvz, hsend, -⟩ := hd
  have hposition := readVector_eq (v := d.position) (hget 0 _ rfl hpx) (hget 1 _ rfl hpy)
    (hget 2 _ rfl hpz)
  have hvelocity := readVector_eq (v := d.velocity) (hget 3 _ rfl hvx) (hget 4 _ rfl hvy)
    (hget 5 _ rfl hvz)
  rw [Nat.add_zero] at hposition
  simp only [updateVehicle, hsize, if_false, hposition, hvelocity, hget 6 _ rfl hsend, ok_bind]
  by_cases hflag : d.send = 0
  · rw [if_neg (not_not.mpr hflag), Vehicle.update, Vehicle.actions, if_neg (not_not.mpr hflag),
      if_neg (not_not.mpr hflag)]
    rfl
  · rw [if_pos hflag, Vehicle.update, Vehicle.actions, if_pos hflag, if_pos hflag]
    rfl

/-- The loop handles every vehicle that the message has data for. -/
theorem updateVehicles_eq (before : List Str) (i : ℕ) {vehicles : List Vehicle}
    {ds : List VehicleData}
    (hlen : before.length = i * elementsPerVehicle) (hsize : vehicles.length ≤ ds.length)
    (hds : ∀ d ∈ ds, d.InRange) :
    updateVehicles (before ++ (ds.map VehicleData.fields).flatten) i vehicles =
      .ok (List.zipWith Vehicle.update vehicles ds, settings i vehicles ds) := by
  induction vehicles generalizing i before ds with
  | nil => rfl
  | cons vehicle rest ih =>
      cases ds with
      | nil => simp at hsize
      | cons d ds =>
          obtain ⟨hd, hds⟩ := List.forall_mem_cons.mp hds
          have hrest := ih (before ++ d.fields) (i + 1)
            (by rw [List.length_append, hlen, d.length_fields, Nat.succ_mul])
            (by simpa using hsize) hds
          rw [List.map_cons, List.flatten_cons, ← List.append_assoc, updateVehicles,
            updateVehicle_eq before i vehicle hlen hd, ok_bind, hrest]
          rfl

/-- `DoUpdate` with data for every vehicle. -/
theorem doUpdate_eq {vehicles : List Vehicle} {ds : List VehicleData}
    (hsize : vehicles.length ≤ ds.length) (hds : ∀ d ∈ ds, d.InRange) :
    doUpdate vehicles (ds.map VehicleData.fields).flatten =
      .ok (List.zipWith Vehicle.update vehicles ds,
        settings 0 vehicles ds ++ [.sendResponse true]) := by
  have hloop := updateVehicles_eq [] 0 (by simp) hsize hds
  rw [List.nil_append] at hloop
  rw [doUpdate, hloop]
  rfl

/-- The first vehicle without data ends the program. -/
theorem updateVehicles_insufficient (before : List Str) (i : ℕ) {vehicles : List Vehicle}
    {ds : List VehicleData}
    (hlen : before.length = i * elementsPerVehicle) (hsize : ds.length < vehicles.length)
    (hds : ∀ d ∈ ds, d.InRange) :
    updateVehicles (before ++ (ds.map VehicleData.fields).flatten) i vehicles =
      .error .insufficientSize := by
  induction vehicles generalizing i before ds with
  | nil => simp at hsize
  | cons vehicle rest ih =>
      rw [updateVehicles]
      cases ds with
      | nil =>
          have hshort : (before ++ (([] : List VehicleData).map VehicleData.fields).flatten).length <
              i * elementsPerVehicle + elementsPerVehicle := by
            simp [hlen, elementsPerVehicle]
          have hfirst : updateVehicle (before ++ (([] : List VehicleData).map
              VehicleData.fields).flatten) i vehicle = .error .insufficientSize := by
            rw [updateVehicle, if_pos hshort]
            rfl
          rw [hfirst]
          rfl
      | cons d ds =>
          obtain ⟨hd, hds⟩ := List.forall_mem_cons.mp hds
          have hrest := ih (before ++ d.fields) (i + 1)
            (by rw [List.length_append, hlen, d.length_fields, Nat.succ_mul])
            (by simpa using hsize) hds
          rw [List.map_cons, List.flatten_cons, ← List.append_assoc,
            updateVehicle_eq before i vehicle hlen hd, ok_bind, hrest]
          rfl

/-- A packet sink reports the index of its vehicle. -/
theorem handleReceive_eq {vehicles : List Vehicle} {i : ℕ} (hi : i < vehicles.length)
    (hrange : vehicles.length ≤ 2 ^ 31) :
    handleReceive vehicles (decimal i) =
      .ok (vehicles.modify i fun vehicle => { vehicle with count := vehicle.count + 1 }) := by
  have hstoi : stoi (decimal i) = some (i : ℤ) := stoi_decimal (by omega)
  rw [handleReceive, hstoi]
  simp only [Int.natCast_nonneg, Int.toNat_natCast, hi, and_self, if_true]

end Update

end Ns3Cosim.SimpleGateway
