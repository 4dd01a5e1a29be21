import Ns3Cosim.Gateway.ResponseDecoding
import Ns3Cosim.SimpleGateway.Messages
import Ns3Cosim.SimpleGateway.Steps

/-!
# What the callbacks do to the vehicles and to the response

A vehicle has gone through the messages handled so far, with the position set
before the velocity in each of them. What is left of a callback sets the count
of every vehicle and sends them as one response.
-/

namespace Ns3Cosim.SimpleGateway

open Gateway Mobility

section Vehicles

/-- The positions and the velocities that the messages give a vehicle. -/
def course (j : ℕ) (rounds : List (List ServerNode)) : List (Vector3D × Vector3D) :=
  rounds.filterMap fun nodes =>
    nodes[j]?.map fun node => ((node.data j).position, (node.data j).velocity)

/-- The number of messages that let a vehicle broadcast. -/
def broadcasts (j : ℕ) (rounds : List (List ServerNode)) : ℕ :=
  rounds.countP fun nodes => nodes[j]?.any fun node => node.broadcast ≠ 0

/-- The `j`-th vehicle has gone through the messages. -/
structure Vehicle.Follows (j : ℕ) (rounds : List (List ServerNode)) (vehicle : Vehicle) : Prop where
  mobility : vehicle.mobility =
    (Vehicle.construct j).mobility.perform (positionFirst (course j rounds))
  sends : vehicle.sends = broadcasts j rounds

/-- All the vehicles have. -/
structure Followed (numberOfNodes : ℕ) (rounds : List (List ServerNode))
    (vehicles : List Vehicle) : Prop where
  length : vehicles.length = numberOfNodes
  each : ∀ j vehicle, vehicles[j]? = some vehicle → Vehicle.Follows j rounds vehicle

variable {j numberOfNodes : ℕ} {rounds : List (List ServerNode)} {nodes : List ServerNode}
  {node : ServerNode} {vehicle : Vehicle} {vehicles : List Vehicle}

/-- `main` puts the vehicle at its place without a course change. -/
theorem Vehicle.construct_mobility (j : ℕ) :
    (Vehicle.construct j).mobility.current = (⟨0, j, 0⟩, 0) ∧
      (Vehicle.construct j).mobility.courseChanges = [] := by
  constructor
  · exact ExternalMobilityModel.current_doSetPosition _ _
  · simp only [Vehicle.construct, ExternalMobilityModel.doSetPosition_eq]
    rfl

theorem Vehicle.follows_construct (j : ℕ) : (Vehicle.construct j).Follows j [] := ⟨rfl, rfl⟩

theorem course_append (hnode : nodes[j]? = some node) : course j (rounds ++ [nodes]) =
    course j rounds ++ [((node.data j).position, (node.data j).velocity)] := by
  simp [course, hnode]

theorem ServerNode.data_send_ne (node : ServerNode) (j : ℕ) :
    (node.data j).send ≠ 0 ↔ node.broadcast ≠ 0 := by
  simp [ServerNode.data, ← UInt16.toNat_inj]

/-- A message that is handled is the next one of the course. -/
theorem Vehicle.Follows.update (h : vehicle.Follows j rounds) (hnode : nodes[j]? = some node) :
    (vehicle.update (node.data j)).Follows j (rounds ++ [nodes]) := by
  constructor
  · rw [course_append hnode, ExternalMobilityModel.perform_positionFirst_append, ← h.mobility]
    rfl
  · have hcount : broadcasts j (rounds ++ [nodes]) =
        broadcasts j rounds + if node.broadcast ≠ 0 then 1 else 0 := by
      simp [broadcasts, List.countP_append, hnode, List.countP_singleton]
    rw [hcount, ← h.sends, Vehicle.update]
    simp only [ServerNode.data_send_ne]
    split <;> rfl

theorem followed_vehicles (numberOfNodes : ℕ) :
    Followed numberOfNodes [] (SimpleGateway.vehicles numberOfNodes) where
  length := by simp [SimpleGateway.vehicles]
  each := by
    intro j vehicle hv
    simp only [SimpleGateway.vehicles, List.getElem?_map, Option.map_eq_some_iff] at hv
    obtain ⟨i, hi, rfl⟩ := hv
    obtain ⟨-, rfl⟩ := List.getElem?_eq_some_iff.mp hi
    rw [List.getElem_range]
    exact Vehicle.follows_construct j

/-- A callback takes every vehicle one message further. -/
theorem Followed.update (h : Followed numberOfNodes rounds vehicles)
    (hsize : numberOfNodes ≤ nodes.length) :
    Followed numberOfNodes (rounds ++ [nodes])
      (List.zipWith Vehicle.update vehicles (roundData nodes)) where
  length := by
    rw [List.length_zipWith, length_roundData, h.length, min_eq_left hsize]
  each := by
    intro j vehicle hv
    rw [List.getElem?_zipWith_eq_some] at hv
    obtain ⟨old, d, hold, hd, rfl⟩ := hv
    rw [roundData, List.getElem?_mapIdx, Option.map_eq_some_iff] at hd
    obtain ⟨node, hnode, rfl⟩ := hd
    exact (h.each j old hold).update hnode

/-- A broadcast that is received moves nothing. -/
theorem Followed.receive (h : Followed numberOfNodes rounds vehicles) (id : ℕ) :
    Followed numberOfNodes rounds
      (vehicles.modify id fun vehicle => { vehicle with count := vehicle.count + 1 }) where
  length := by rw [List.length_modify, h.length]
  each := by
    intro j vehicle hv
    rw [List.getElem?_modify] at hv
    obtain ⟨old, hold, rfl⟩ := Option.map_eq_some_iff.mp hv
    obtain ⟨hmobility, hsends⟩ := h.each j old hold
    split <;> exact ⟨hmobility, hsends⟩

end Vehicles

section Responses

/-- An action of `DoUpdate`. -/
def OfUpdate : UserAction → Prop
  | .schedule _ | .setValue _ _ | .sendResponse true => True
  | .sendResponse false | .simulatorStop | .connect _ => False

/-- The call on the outgoing side that an action is. -/
def outgoing : UserAction → Option Gateway.Call
  | .setValue index value => some (.setValue index value)
  | .sendResponse _ => some .sendResponse
  | .schedule _ | .simulatorStop | .connect _ => none

/-- The value that a response has for a vehicle. -/
def countValue (count : UInt16) : Str := decimal count.toNat

/-- The response of a callback that found these counts. -/
def response (counts : List UInt16) : Str :=
  responseMessage defaultDelimiters (counts.map countValue)

variable {i : ℕ} {vehicles : List Vehicle} {ds : List VehicleData}

theorem plainValue_countValue (count : UInt16) : PlainValue defaultDelimiters (countValue count) :=
  not_infix_fields ⟨_, rfl⟩

/-- The loop of `DoUpdate` sets the count of each vehicle. -/
theorem filterMap_settings (i : ℕ) (hsize : vehicles.length ≤ ds.length) :
    (settings i vehicles ds).filterMap outgoing =
      setAll i ((vehicles.map Vehicle.count).map countValue) := by
  induction vehicles generalizing i ds with
  | nil => simp [settings, setAll]
  | cons vehicle rest ih =>
      cases ds with
      | nil => simp at hsize
      | cons d ds =>
          have hle : rest.length ≤ ds.length := by simpa using hsize
          have hrest := ih (i + 1) hle
          rw [settings, List.filterMap_append, hrest, Vehicle.actions]
          split <;> rfl

theorem ofUpdate_settings (i : ℕ) : ∀ action ∈ settings i vehicles ds, OfUpdate action := by
  induction vehicles generalizing i ds with
  | nil => simp [settings]
  | cons vehicle rest ih =>
      cases ds with
      | nil => simp [settings]
      | cons d ds =>
          intro action haction
          obtain haction | haction := List.mem_append.mp haction
          · unfold Vehicle.actions at haction
            split at haction
            · simp only [List.cons_append, List.nil_append, List.mem_cons, List.not_mem_nil,
                or_false] at haction
              obtain rfl | rfl := haction <;> trivial
            · obtain rfl := List.mem_singleton.mp haction
              trivial
          · exact ih (i + 1) action haction

/-- What is left of the callback ends with the response to the latest message. -/
structure Answers (numberOfNodes : ℕ) (counts : List (List UInt16)) (script : List UserAction)
    (o : Outbound) : Prop where
  actions : ∀ action ∈ script, OfUpdate action
  outcome : ∃ data, data.length = numberOfNodes ∧
    o.perform defaultDelimiters (script.filterMap outgoing) =
      .ok ⟨data, (counts.map response).flatten⟩

variable {numberOfNodes : ℕ} {counts : List (List UInt16)} {script : List UserAction}
  {action : UserAction} {o : Outbound}

theorem answers_construct (numberOfNodes : ℕ) :
    Answers numberOfNodes [] [] (.construct numberOfNodes) where
  actions := by simp
  outcome := ⟨_, List.length_replicate, rfl⟩

theorem perform_append {o o' : Outbound} {calls : List Gateway.Call}
    (h : o.perform defaultDelimiters calls = .ok o') (later : List Gateway.Call) :
    o.perform defaultDelimiters (calls ++ later) = o'.perform defaultDelimiters later := by
  rw [Outbound.perform, List.foldlM_append, ← Outbound.perform, h]
  rfl

/-- A callback begins when the one before has sent its response. -/
theorem Answers.begin (h : Answers vehicles.length counts [] o)
    (hsize : vehicles.length ≤ ds.length) :
    Answers vehicles.length (counts ++ [vehicles.map Vehicle.count])
      (settings 0 vehicles ds ++ [.sendResponse true]) o where
  actions := by
    intro action haction
    obtain haction | haction := List.mem_append.mp haction
    · exact ofUpdate_settings 0 action haction
    · rw [List.mem_singleton.mp haction]
      trivial
  outcome := by
    obtain ⟨data, hlen, ho⟩ := h.outcome
    cases ho
    have hvalues : ((vehicles.map Vehicle.count).map countValue).length = data.length := by
      rw [List.length_map, List.length_map, hlen]
    refine ⟨(vehicles.map Vehicle.count).map countValue, by simp, ?_⟩
    have hset := perform_setAll (D := defaultDelimiters) []
      ((vehicles.map Vehicle.count).map countValue) data (counts.map response).flatten hvalues
      (by simp [plainValue_countValue])
    rw [List.nil_append, List.nil_append, List.length_nil] at hset
    rw [List.filterMap_append, filterMap_settings 0 hsize, perform_append hset]
    simp [outgoing, Outbound.perform, Outbound.call, sendResponse, response]

/-- One action of the callback: no error, and the rest stays the same. -/
theorem Answers.user (h : Answers numberOfNodes counts (action :: script) o) {c : Core}
    (ho : c.outbound = o) (hc : c.state = .connected) (hf : c.fatal = none) :
    (c.user defaultDelimiters action).fatal = none ∧
      (c.user defaultDelimiters action).stopped = c.stopped ∧
      Answers numberOfNodes counts script (c.user defaultDelimiters action).outbound := by
  obtain ⟨hactions, data, hlen, hperform⟩ := h
  obtain ⟨haction, hscript⟩ := List.forall_mem_cons.mp hactions
  subst ho
  cases action with
  | schedule delay => exact ⟨hf, rfl, hscript, data, hlen, hperform⟩
  | setValue index value =>
      have hcons : ((c.outbound.call defaultDelimiters (.setValue index value)).bind fun o =>
          o.perform defaultDelimiters (script.filterMap outgoing)) = _ := hperform
      cases hset : setValue defaultDelimiters c.outbound index value with
      | error e => simp [Outbound.call, hset, Except.bind] at hcons
      | ok o =>
          simp only [Outbound.call, hset, Except.bind] at hcons
          simp only [Core.user, hset]
          exact ⟨hf, trivial, hscript, data, hlen, hcons⟩
  | sendResponse sent =>
      cases sent with
      | false => exact absurd haction id
      | true =>
          simp only [Core.user, hc, ne_eq, not_true_eq_false, if_false]
          exact ⟨hf, trivial, hscript, data, hlen, hperform⟩
  | simulatorStop | connect => exact absurd haction id

/-- On a connection that has not failed, the response is sent. -/
theorem answer_of_ofUpdate {conn : Connection} (hfailed : conn.failed = false)
    (h : OfUpdate action) : answer conn action = action := by
  cases action with
  | sendResponse sent =>
      cases sent with
      | false => exact absurd h id
      | true =>
          rw [answer, hfailed]
          rfl
  | schedule | simulatorStop | setValue | connect => rfl

end Responses

end Ns3Cosim.SimpleGateway
