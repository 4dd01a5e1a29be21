import Mathlib.Algebra.GroupWithZero.Nat
import Ns3Cosim.Execution.EventQueue

/-!
# The work that the pending events stand for

A weight for each kind of event turns the event list of a simulator into a
measure: scheduling adds the weight of the new event, executing an event takes
its weight away, and cancelling adds nothing. Events that schedule themselves
again use up no work, but they go behind everything else that is due: `front`
counts the events of some kinds before the first other one.
-/

namespace Ns3Cosim.Execution.Simulator

variable {κ : Type*} (weight : κ → ℕ)

/-- The weights of the pending events. -/
def work (s : Simulator κ) : ℕ := (s.queue.map fun e => weight e.kind).sum

theorem work_schedule (s : Simulator κ) (delay : ℕ) (k : κ) :
    (s.schedule delay k).work weight = weight k + s.work weight := by
  have hperm := (s.schedule_perm delay k).map fun e => weight e.kind
  exact hperm.sum_nat

theorem work_scheduleNow (s : Simulator κ) (k : κ) :
    (s.scheduleNow k).work weight = weight k + s.work weight :=
  work_schedule weight s 0 k

theorem work_next {s s' : Simulator κ} {e : Event κ} (h : s.next? = some (e, s')) :
    s.work weight = weight e.kind + s'.work weight := by
  simp only [work, (next?_eq_some h).1, List.map_cons, List.sum_cons]

theorem work_cancel_le (s : Simulator κ) (id : EventId) :
    (s.cancel id).work weight ≤ s.work weight := by
  simp only [work, cancel]
  induction s.queue with
  | nil => exact le_rfl
  | cons e queue ih =>
      rw [List.filter_cons]
      split
      · simp only [List.map_cons, List.sum_cons]
        omega
      · simp only [List.map_cons, List.sum_cons]
        omega

section Front

variable (P : κ → Prop) [DecidablePred P]

/-- The number of events of the kinds `P` before the first one of another kind. -/
def front (s : Simulator κ) : ℕ := (s.queue.takeWhile fun e => P e.kind).length

variable {P} {s s' : Simulator κ} {e a : Event κ}

theorem front_next (h : s.next? = some (e, s')) (hP : P e.kind) : s.front P = s'.front P + 1 := by
  simp [front, (next?_eq_some h).1, hP]

/-- An insertion puts at most one more event to the front. -/
theorem front_schedule_le (s : Simulator κ) (delay : ℕ) (k : κ) :
    (s.schedule delay k).front P ≤ s.front P + 1 := by
  unfold front schedule
  simp only
  induction s.queue with
  | nil =>
      simp only [insertEvent, List.orderedInsert_nil, List.takeWhile_nil]
      exact (List.takeWhile_prefix _).length_le
  | cons b queue ih =>
      simp only [insertEvent, List.orderedInsert_cons] at ih ⊢
      split
      · rw [List.takeWhile_cons]
        split
        · exact le_rfl
        · exact Nat.zero_le _
      · rw [List.takeWhile_cons, List.takeWhile_cons]
        split
        · simp only [List.length_cons]
          omega
        · exact Nat.zero_le _

/-- Behind another event that is due no later it changes nothing at the front. -/
theorem front_schedule_of_mem (ha : a ∈ s.queue) (hP : ¬ P a.kind) {delay : ℕ}
    (ht : a.time ≤ s.now + delay) (k : κ) : (s.schedule delay k).front P ≤ s.front P := by
  have hsorted := s.sorted
  unfold front schedule
  simp only
  revert ha hsorted
  induction s.queue with
  | nil =>
      intro ha
      cases ha
  | cons b queue ih =>
      intro ha hsorted
      obtain ⟨hb, hsorted⟩ := List.pairwise_cons.mp hsorted
      have hle : b.time ≤ a.time := by
        obtain rfl | ha := List.mem_cons.mp ha
        · exact le_rfl
        · exact (hb a ha).time_le
      have hnot : ¬ s.now + (delay : ℤ) < b.time := not_lt.mpr (hle.trans ht)
      simp only [insertEvent, List.orderedInsert_cons, hnot, if_false] at ih ⊢
      rw [List.takeWhile_cons, List.takeWhile_cons]
      split
      · rename_i hPb
        obtain rfl | ha := List.mem_cons.mp ha
        · exact absurd (of_decide_eq_true hPb) hP
        · exact Nat.succ_le_succ (ih ha hsorted)
      · exact Nat.zero_le _

/-- Cancelling events of these kinds brings no others of them to the front. -/
theorem front_cancel_le {id : EventId} (h : ∀ e ∈ s.queue, id = some e.uid → P e.kind) :
    (s.cancel id).front P ≤ s.front P := by
  unfold front cancel
  simp only
  revert h
  induction s.queue with
  | nil => exact fun _ => le_rfl
  | cons b queue ih =>
      intro h
      have hrest := ih fun e he => h e (List.mem_cons_of_mem _ he)
      rw [List.filter_cons]
      by_cases hP : P b.kind
      · have hb : ((b :: queue).takeWhile fun e => P e.kind) =
            b :: queue.takeWhile fun e => P e.kind := by simp [hP]
        rw [hb, List.length_cons]
        split
        · simp only [List.takeWhile_cons, hP, decide_true, if_true, List.length_cons]
          exact Nat.succ_le_succ hrest
        · exact hrest.trans (Nat.le_succ _)
      · have hkeep : id ≠ some b.uid := fun hid => hP (h b List.mem_cons_self hid)
        simp [hkeep, hP]

end Front

end Ns3Cosim.Execution.Simulator
