import Mathlib.Data.List.Destutter

/-!
# The external mobility model

`ExternalMobilityModel` keeps the position and the velocity that an external
process sets, and notifies a course change when the velocity is set to another
value. A position that changes is not notified.

## Implementation notes

Nothing depends on what the vectors are: any type whose values can be compared
will do, and `!=` is its comparison. On vectors of floating-point numbers that is
not inequality: a vector with a NaN differs from itself, and the two zeros do not
differ. The results are about vectors on which it is, and say so by `LawfulBEq`;
the definitions are about all. `courseChanges` is history, the position and the
velocity that each `CourseChange` callback finds; no function reads it.
-/

namespace Ns3Cosim.Mobility

/-- The members of `ExternalMobilityModel`, and the course changes that it notified. -/
structure ExternalMobilityModel (V : Type*) where
  position : V
  velocity : V
  courseChanges : List (V × V)
  deriving DecidableEq

namespace ExternalMobilityModel

variable {V : Type*}

/-- The constructor: position and velocity are `(0,0,0)`. -/
def construct [Zero V] : ExternalMobilityModel V where
  position := 0
  velocity := 0
  courseChanges := []

/-- `ExternalMobilityModel::DoGetPosition`. -/
def doGetPosition (m : ExternalMobilityModel V) : V := m.position

/-- `ExternalMobilityModel::DoGetVelocity`. -/
def doGetVelocity (m : ExternalMobilityModel V) : V := m.velocity

/-- What a callback that asks for the position and the velocity is told. -/
def current (m : ExternalMobilityModel V) : V × V := (m.doGetPosition, m.doGetVelocity)

/-- `NotifyCourseChange` calls the callbacks of `CourseChange`. -/
def notifyCourseChange (m : ExternalMobilityModel V) : ExternalMobilityModel V :=
  { m with courseChanges := m.courseChanges ++ [m.current] }

variable [BEq V]

/-- `ExternalMobilityModel::SetVelocity`. -/
def setVelocity (m : ExternalMobilityModel V) (velocity : V) : ExternalMobilityModel V :=
  if velocity != m.velocity then { m with velocity := velocity }.notifyCourseChange else m

/-- `ExternalMobilityModel::DoSetPosition`, which `SetPosition` calls. -/
def doSetPosition (m : ExternalMobilityModel V) (position : V) : ExternalMobilityModel V :=
  if position != m.position then { m with position := position } else m

end ExternalMobilityModel

/-- A call that the external process has made. -/
inductive Call (V : Type*)
  | setPosition (position : V)
  | setVelocity (velocity : V)

variable {V : Type*}

namespace ExternalMobilityModel

variable [BEq V]

/-- One call. -/
def call (m : ExternalMobilityModel V) : Call V → ExternalMobilityModel V
  | .setPosition position => m.doSetPosition position
  | .setVelocity velocity => m.setVelocity velocity

/-- A sequence of calls. -/
def perform (m : ExternalMobilityModel V) (calls : List (Call V)) : ExternalMobilityModel V :=
  calls.foldl call m

/-- The position and the velocity after each call. -/
def trajectory : ExternalMobilityModel V → List (Call V) → List (V × V)
  | _, [] => []
  | m, c :: calls => (m.call c).current :: trajectory (m.call c) calls

end ExternalMobilityModel

/-- The calls for a list of updates in the recommended order. -/
def positionFirst (updates : List (V × V)) : List (Call V) :=
  updates.flatMap fun u => [.setPosition u.1, .setVelocity u.2]

/-- The calls in the other order. -/
def velocityFirst (updates : List (V × V)) : List (Call V) :=
  updates.flatMap fun u => [.setVelocity u.2, .setPosition u.1]

/-- The updates, each with the position of the one before. -/
def delayed : V → List (V × V) → List (V × V)
  | _, [] => []
  | position, u :: updates => (position, u.2) :: delayed u.1 updates

namespace ExternalMobilityModel

section Calls

variable [BEq V] (m : ExternalMobilityModel V)

theorem perform_append (calls calls' : List (Call V)) :
    m.perform (calls ++ calls') = (m.perform calls).perform calls' := by
  simp [perform]

theorem perform_positionFirst_append (updates updates' : List (V × V)) :
    m.perform (positionFirst (updates ++ updates')) =
      (m.perform (positionFirst updates)).perform (positionFirst updates') := by
  rw [positionFirst, List.flatMap_append, perform_append]
  rfl

/-- One update in the recommended order. -/
theorem perform_positionFirst_cons (u : V × V) (updates : List (V × V)) :
    m.perform (positionFirst (u :: updates)) =
      ((m.doSetPosition u.1).setVelocity u.2).perform (positionFirst updates) := rfl

theorem perform_velocityFirst_cons (u : V × V) (updates : List (V × V)) :
    m.perform (velocityFirst (u :: updates)) =
      ((m.setVelocity u.2).doSetPosition u.1).perform (velocityFirst updates) := rfl

variable [LawfulBEq V]

/-- Comparing before the assignment makes no difference to the position. -/
theorem doSetPosition_eq (position : V) :
    m.doSetPosition position = { m with position := position } := by
  unfold doSetPosition
  split
  · rfl
  · rename_i h
    rw [bne_iff_ne, not_not] at h
    rw [h]

theorem setVelocity_of_eq : m.setVelocity m.velocity = m := by
  simp [setVelocity]

theorem setVelocity_of_ne {velocity : V} (h : m.velocity ≠ velocity) :
    m.setVelocity velocity =
      { m with velocity := velocity,
               courseChanges := m.courseChanges ++ [(m.position, velocity)] } := by
  unfold setVelocity
  rw [if_pos (bne_iff_ne.mpr h.symm)]
  rfl

@[simp] theorem current_doSetPosition (position : V) :
    (m.doSetPosition position).current = (position, m.velocity) := by
  rw [doSetPosition_eq]
  rfl

@[simp] theorem current_setVelocity (velocity : V) :
    (m.setVelocity velocity).current = (m.position, velocity) := by
  by_cases h : m.velocity = velocity
  · rw [← h, setVelocity_of_eq]
    rfl
  · rw [setVelocity_of_ne m h]
    rfl

end Calls

end ExternalMobilityModel

/-- Two points of a trajectory with different velocities. -/
abbrev Turned (a b : V × V) : Prop := a.2 ≠ b.2

variable [DecidableEq V]

/-- The points at which the velocity turns, on the way from `a` along the other points. -/
def turns (a : V × V) (points : List (V × V)) : List (V × V) := (points.destutter' Turned a).tail

section Turns

variable {a b : V × V}

@[simp] theorem turns_nil (a : V × V) : turns a [] = [] := rfl

theorem turns_cons_of_eq (h : a.2 = b.2) (points : List (V × V)) :
    turns a (b :: points) = turns a points := by
  rw [turns, List.destutter'_cons_neg _ (not_not.mpr h), turns]

theorem destutter'_eq_cons_turns (a : V × V) (points : List (V × V)) :
    points.destutter' Turned a = a :: turns a points := by
  induction points with
  | nil => rfl
  | cons b points ih =>
      by_cases h : a.2 = b.2
      · rw [turns_cons_of_eq h, List.destutter'_cons_neg _ (not_not.mpr h)]
        exact ih
      · have hturned : Turned a b := h
        rw [turns, List.destutter'_cons_pos _ hturned]
        rfl

theorem turns_cons_of_ne (h : a.2 ≠ b.2) (points : List (V × V)) :
    turns a (b :: points) = b :: turns b points := by
  have hturned : Turned a b := h
  rw [turns, List.destutter'_cons_pos _ hturned, List.tail_cons, destutter'_eq_cons_turns]

theorem turns_sublist (a : V × V) (points : List (V × V)) : (turns a points).Sublist points := by
  have hsublist := (points.destutter'_sublist Turned a).tail
  exact hsublist

theorem isChain_turns (a : V × V) (points : List (V × V)) :
    (a :: turns a points).IsChain Turned := by
  rw [← destutter'_eq_cons_turns]
  exact points.isChain_destutter' Turned a

/-- Only the velocity of the first point matters. -/
theorem turns_congr (h : a.2 = b.2) (points : List (V × V)) : turns a points = turns b points := by
  induction points with
  | nil => rfl
  | cons c points ih =>
      by_cases hc : a.2 = c.2
      · rw [turns_cons_of_eq hc, turns_cons_of_eq (h.symm.trans hc), ih]
      · rw [turns_cons_of_ne hc, turns_cons_of_ne (h ▸ hc)]

/-- The first point of the rest is a turn or not, and the way goes on from there. -/
theorem turns_cons (a b : V × V) (points : List (V × V)) :
    turns a (b :: points) = turns a [b] ++ turns b points := by
  by_cases h : a.2 = b.2
  · rw [turns_cons_of_eq h, turns_cons_of_eq h, turns_nil, List.nil_append, turns_congr h]
  · rw [turns_cons_of_ne h, turns_cons_of_ne h, turns_nil, List.singleton_append]

/-- The delayed updates turn where the updates do, and at the same points exactly when no turn comes
with a change of the position. -/
theorem turns_delayed_iff (a : V × V) (updates : List (V × V)) :
    turns a (delayed a.1 updates) = turns a updates ↔
      (a :: updates).IsChain fun u w => u.2 ≠ w.2 → u.1 = w.1 := by
  induction updates generalizing a with
  | nil => simp [delayed]
  | cons u updates ih =>
      rw [delayed, List.isChain_cons_cons, ← ih u]
      have hdelayed : turns (a.1, u.2) (delayed u.1 updates) = turns u (delayed u.1 updates) :=
        turns_congr (a := (a.1, u.2)) (b := u) rfl _
      rw [turns_cons a (a.1, u.2), turns_cons a u, hdelayed]
      by_cases h : a.2 = u.2
      · have hpoint : turns a [(a.1, u.2)] = [] := turns_cons_of_eq (b := (a.1, u.2)) h []
        rw [hpoint, turns_cons_of_eq h, turns_nil, List.nil_append, List.nil_append]
        simp [h]
      · have hpoint : turns a [(a.1, u.2)] = [(a.1, u.2)] :=
          turns_cons_of_ne (b := (a.1, u.2)) h []
        rw [hpoint, turns_cons_of_ne h, turns_nil, List.singleton_append, List.singleton_append,
          List.cons.injEq]
        simp [h, Prod.ext_iff]

end Turns

namespace ExternalMobilityModel

variable [BEq V] [LawfulBEq V] (m : ExternalMobilityModel V)

/-- One call moves to the next point of the trajectory, and notifies it if the velocity turns. -/
theorem courseChanges_call (c : Call V) :
    (m.call c).courseChanges = m.courseChanges ++ turns m.current [(m.call c).current] := by
  cases c with
  | setPosition position =>
      have hsame : m.current.2 = (m.doSetPosition position).current.2 := by
        rw [current_doSetPosition]
        rfl
      rw [call, turns_cons_of_eq hsame, turns_nil, List.append_nil, doSetPosition_eq]
  | setVelocity velocity =>
      rw [call]
      by_cases h : m.velocity = velocity
      · have hsame : m.current.2 = m.current.2 := rfl
        rw [← h, setVelocity_of_eq, turns_cons_of_eq hsame, turns_nil, List.append_nil]
      · have hturned : m.current.2 ≠ (m.setVelocity velocity).current.2 := by
          rw [current_setVelocity]
          exact h
        rw [turns_cons_of_ne hturned, turns_nil, current_setVelocity, setVelocity_of_ne m h]

/-- Every sequence of calls notifies the points of its trajectory at which the velocity turns. -/
theorem courseChanges_perform (calls : List (Call V)) :
    (m.perform calls).courseChanges =
      m.courseChanges ++ turns m.current (m.trajectory calls) := by
  induction calls generalizing m with
  | nil => simp [perform, trajectory]
  | cons c calls ih =>
      calc
        (m.perform (c :: calls)).courseChanges =
            (m.call c).courseChanges ++ turns (m.call c).current ((m.call c).trajectory calls) :=
          ih (m.call c)
        _ = m.courseChanges ++ turns m.current (m.trajectory (c :: calls)) := by
          rw [trajectory, turns_cons, courseChanges_call, List.append_assoc]

/-- An update in the recommended order turns at the point of the update. -/
theorem update_positionFirst (u : V × V) :
    ((m.doSetPosition u.1).setVelocity u.2).current = u ∧
      ((m.doSetPosition u.1).setVelocity u.2).courseChanges =
        m.courseChanges ++ turns m.current [u] := by
  have hcurrent : ((m.doSetPosition u.1).setVelocity u.2).current = u := by
    rw [current_setVelocity, doSetPosition_eq]
  have hcall := (m.doSetPosition u.1).courseChanges_call (.setVelocity u.2)
  have hsame : (m.doSetPosition u.1).current.2 = m.current.2 := by
    rw [current_doSetPosition]
    rfl
  rw [call, hcurrent, turns_congr hsame, doSetPosition_eq] at hcall
  rw [doSetPosition_eq] at hcurrent ⊢
  exact ⟨hcurrent, hcall⟩

/-- An update in the other order turns where the position is still that of the update before. -/
theorem update_velocityFirst (u : V × V) :
    ((m.setVelocity u.2).doSetPosition u.1).current = u ∧
      ((m.setVelocity u.2).doSetPosition u.1).courseChanges =
        m.courseChanges ++ turns m.current [(m.position, u.2)] := by
  have hcall := m.courseChanges_call (.setVelocity u.2)
  rw [call, current_setVelocity] at hcall
  have hvelocity : (m.setVelocity u.2).velocity = u.2 :=
    congrArg Prod.snd (current_setVelocity m u.2)
  constructor
  · rw [current_doSetPosition, hvelocity]
  · rw [doSetPosition_eq]
    exact hcall

/-- In the recommended order each update is notified at most once, as a whole. -/
theorem perform_positionFirst (updates : List (V × V)) :
    (m.perform (positionFirst updates)).current = (m.current :: updates).getLast (by simp) ∧
      (m.perform (positionFirst updates)).courseChanges =
        m.courseChanges ++ turns m.current updates := by
  induction updates generalizing m with
  | nil => simp [perform, positionFirst]
  | cons u updates ih =>
      obtain ⟨hcurrent, hchanges⟩ := m.update_positionFirst u
      obtain ⟨hlast, hall⟩ := ih ((m.doSetPosition u.1).setVelocity u.2)
      rw [perform_positionFirst_cons]
      constructor
      · rw [hlast]
        simp [hcurrent]
      · rw [hall, hcurrent, hchanges, turns_cons m.current u updates, List.append_assoc]

/-- In the other order each notified velocity comes with the position of the update before. -/
theorem courseChanges_velocityFirst (updates : List (V × V)) :
    (m.perform (velocityFirst updates)).courseChanges =
      m.courseChanges ++ turns m.current (delayed m.position updates) := by
  induction updates generalizing m with
  | nil => simp [perform, velocityFirst, delayed]
  | cons u updates ih =>
      obtain ⟨hcurrent, hchanges⟩ := m.update_velocityFirst u
      have hposition : ((m.setVelocity u.2).doSetPosition u.1).position = u.1 :=
        congrArg Prod.fst hcurrent
      have hsame : turns u (delayed u.1 updates) = turns (m.position, u.2) (delayed u.1 updates) :=
        turns_congr (a := u) (b := (m.position, u.2)) rfl _
      rw [perform_velocityFirst_cons, ih, hcurrent, hposition, hchanges, delayed,
        turns_cons m.current (m.position, u.2) (delayed u.1 updates), hsame, List.append_assoc]

/-- A sequence of calls notifies the points of its trajectory at which the velocity turns, and
nothing else. With the position set first, the notified points are updates, each at most once and
with a velocity other than the one notified before. With the velocity set first the same points are
notified exactly when no turn comes with a change of the position. -/
theorem courseChanges_exact :
    (∀ calls : List (Call V), (m.perform calls).courseChanges =
      m.courseChanges ++ turns m.current (m.trajectory calls)) ∧
    (∀ updates : List (V × V), (m.perform (positionFirst updates)).courseChanges =
      m.courseChanges ++ turns m.current updates ∧
        (turns m.current updates).Sublist updates ∧
        (m.current :: turns m.current updates).IsChain Turned) ∧
    ∀ updates : List (V × V), (m.perform (velocityFirst updates)).courseChanges =
        (m.perform (positionFirst updates)).courseChanges ↔
      (m.current :: updates).IsChain fun u w => u.2 ≠ w.2 → u.1 = w.1 := by
  refine ⟨m.courseChanges_perform, fun updates => ⟨?_, ?_, ?_⟩, fun updates => ?_⟩
  · exact (m.perform_positionFirst updates).2
  · exact turns_sublist m.current updates
  · exact isChain_turns m.current updates
  · rw [(m.perform_positionFirst updates).2, courseChanges_velocityFirst, List.append_cancel_left_eq]
    exact turns_delayed_iff m.current updates

/-- A vehicle that keeps its velocity for two updates and then turns while it moves. -/
theorem courseChanges_exact_turn :
    let m : ExternalMobilityModel ℤ := ⟨0, 0, []⟩
    (m.perform (positionFirst [(0, 1), (2, 1), (3, 4)])).courseChanges = [(0, 1), (3, 4)] ∧
      (m.perform (velocityFirst [(0, 1), (2, 1), (3, 4)])).courseChanges ≠
        (m.perform (positionFirst [(0, 1), (2, 1), (3, 4)])).courseChanges := by
  intro m
  obtain ⟨-, hfirst, horder⟩ := courseChanges_exact m
  constructor
  · rw [(hfirst _).1]
    decide
  · intro heq
    exact absurd ((horder _).mp heq) (by decide)

end ExternalMobilityModel

end Ns3Cosim.Mobility
