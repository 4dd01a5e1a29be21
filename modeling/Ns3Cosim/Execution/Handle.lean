import Ns3Cosim.Execution.EventQueue

/-!
# One handle for all events of a kind

A program that keeps the handle of the latest event of some kinds `P`, and
schedules such an event only when none is pending, has at most one of them
pending. `Tracks` is the invariant behind this, with one lemma for each
operation of the simulator.
-/

namespace Ns3Cosim.Execution.Simulator

variable {κ : Type*}

/-- No event of the kinds `P` is pending. -/
def Quiet (s : Simulator κ) (P : κ → Prop) : Prop := ∀ e ∈ s.queue, ¬ P e.kind

/-- Among the pending events, the handle names those of the kinds `P`, and it will not name an event
that is yet to come. -/
structure Tracks (s : Simulator κ) (id : EventId) (P : κ → Prop) : Prop where
  names : ∀ e ∈ s.queue, P e.kind ↔ id = some e.uid
  fresh : ∀ u ∈ id, u < s.nextUid

variable {s s' : Simulator κ} {id : EventId} {P : κ → Prop} {e : Event κ} {delay : ℕ} {k : κ}

theorem Tracks.of_quiet (h : s.Quiet P) : s.Tracks none P where
  names a ha := by simpa using h a ha
  fresh := by simp

namespace Tracks

theorem unique (h : s.Tracks id P) {a b : Event κ} (ha : a ∈ s.queue) (hb : b ∈ s.queue)
    (hPa : P a.kind) (hPb : P b.kind) : a = b := by
  apply s.unique a ha b hb
  have hid : some a.uid = some b.uid := ((h.names a ha).mp hPa).symm.trans ((h.names b hb).mp hPb)
  exact Option.some.inj hid

theorem isPending_iff (h : s.Tracks id P) :
    s.isPending id = true ↔ ∃ e ∈ s.queue, P e.kind := by
  rw [Simulator.isPending_iff]
  constructor
  · rintro ⟨e, he, hid⟩
    exact ⟨e, he, (h.names e he).mpr hid⟩
  · rintro ⟨e, he, hP⟩
    exact ⟨e, he, (h.names e he).mp hP⟩

theorem quiet_iff (h : s.Tracks id P) : s.Quiet P ↔ s.isPending id = false := by
  rw [← Bool.not_eq_true, h.isPending_iff]
  constructor
  · rintro hq ⟨e, he, hP⟩
    exact hq e he hP
  · intro hnone e he hP
    exact hnone ⟨e, he, hP⟩

theorem schedule_other (h : s.Tracks id P) (hk : ¬ P k) : (s.schedule delay k).Tracks id P where
  names a ha := by
    obtain rfl | ha := mem_schedule.mp ha
    · constructor
      · exact fun hP => absurd hP hk
      · intro hid
        exact absurd (h.fresh _ hid) (lt_irrefl _)
    · exact h.names a ha
  fresh u hu := Nat.lt_succ_of_lt (h.fresh u hu)

/-- The handle of a newly scheduled event takes over when no other one is pending. -/
theorem schedule (hq : s.Quiet P) (hk : P k) :
    (s.schedule delay k).Tracks (some s.nextUid) P where
  names a ha := by
    obtain rfl | ha := mem_schedule.mp ha
    · simpa using hk
    · constructor
      · exact fun hP => absurd hP (hq a ha)
      · intro hid
        have hlt := s.fresh a ha
        have huid := Option.some.inj hid
        omega
  fresh u hu := by
    obtain rfl := Option.mem_some_iff.mp hu
    exact Nat.lt_succ_self _

theorem cancel (h : s.Tracks id P) : (s.cancel id).Tracks id P where
  names a ha := h.names a (mem_cancel.mp ha).1
  fresh := h.fresh

theorem cancel_quiet (h : s.Tracks id P) : (s.cancel id).Quiet P := by
  intro a ha hP
  obtain ⟨ha, hid⟩ := mem_cancel.mp ha
  exact hid ((h.names a ha).mp hP)

theorem next (h : s.Tracks id P) (hn : s.next? = some (e, s')) : s'.Tracks id P where
  names a ha := h.names a ((mem_of_next? hn).mpr (Or.inr ha))
  fresh u hu := by
    rw [(next?_eq_some hn).2.2]
    exact h.fresh u hu

/-- While the event that the handle names is executed, none of its kind is pending. -/
theorem next_quiet (h : s.Tracks id P) (hn : s.next? = some (e, s')) (hP : P e.kind) :
    s'.Quiet P := by
  intro a ha hPa
  have hae : a = e :=
    h.unique ((mem_of_next? hn).mpr (Or.inr ha)) ((mem_of_next? hn).mpr (Or.inl rfl)) hPa hP
  have hbefore := before_of_next? hn ha
  rw [hae] at hbefore
  exact hbefore.asymm hbefore

end Tracks

namespace Quiet

theorem schedule_other (h : s.Quiet P) (hk : ¬ P k) : (s.schedule delay k).Quiet P := by
  intro a ha
  obtain rfl | ha := mem_schedule.mp ha
  · exact hk
  · exact h a ha

theorem cancel (h : s.Quiet P) : (s.cancel id).Quiet P :=
  fun a ha => h a (mem_cancel.mp ha).1

theorem next (h : s.Quiet P) (hn : s.next? = some (e, s')) : s'.Quiet P :=
  fun a ha => h a ((mem_of_next? hn).mpr (Or.inr ha))

end Quiet

section Due

variable [DecidablePred P]

/-- The time of the first pending event of the kinds `P`. -/
def due (s : Simulator κ) (P : κ → Prop) [DecidablePred P] : Option ℤ :=
  (s.queue.find? fun e => P e.kind).map Event.time

theorem Quiet.due_eq_none (h : s.Quiet P) : s.due P = none := by
  simp only [due, Option.map_eq_none_iff, List.find?_eq_none, decide_eq_true_eq]
  exact h

namespace Tracks

theorem due_eq_some_iff (h : s.Tracks id P) {t : ℤ} :
    s.due P = some t ↔ ∃ e ∈ s.queue, P e.kind ∧ e.time = t := by
  constructor
  · intro ht
    obtain ⟨e, he, rfl⟩ := Option.map_eq_some_iff.mp ht
    have hP : decide (P e.kind) = true :=
      List.find?_some (p := fun a : Event κ => decide (P a.kind)) he
    exact ⟨e, List.mem_of_find?_eq_some he, of_decide_eq_true hP, rfl⟩
  · rintro ⟨e, he, hP, rfl⟩
    have hsome : (s.queue.find? fun e => P e.kind).isSome :=
      List.find?_isSome.mpr ⟨e, he, decide_eq_true hP⟩
    obtain ⟨a, ha⟩ := Option.isSome_iff_exists.mp hsome
    have hPa : decide (P a.kind) = true :=
      List.find?_some (p := fun a : Event κ => decide (P a.kind)) ha
    rw [due, ha, h.unique (List.mem_of_find?_eq_some ha) he (of_decide_eq_true hPa) hP]
    rfl

theorem due_congr {id' : EventId} (h : s.Tracks id P) (h' : s'.Tracks id' P)
    (hmem : ∀ e, P e.kind → (e ∈ s'.queue ↔ e ∈ s.queue)) : s'.due P = s.due P := by
  apply Option.ext
  intro t
  rw [h.due_eq_some_iff, h'.due_eq_some_iff]
  constructor
  · rintro ⟨e, he, hP, ht⟩
    exact ⟨e, (hmem e hP).mp he, hP, ht⟩
  · rintro ⟨e, he, hP, ht⟩
    exact ⟨e, (hmem e hP).mpr he, hP, ht⟩

theorem due_schedule_other (h : s.Tracks id P) (hk : ¬ P k) :
    (s.schedule delay k).due P = s.due P := by
  refine h.due_congr (h.schedule_other hk) fun e hP => ?_
  rw [mem_schedule]
  constructor
  · rintro (rfl | he)
    · exact absurd hP hk
    · exact he
  · exact Or.inr

theorem due_schedule (hq : s.Quiet P) (hk : P k) :
    (s.schedule delay k).due P = some (s.now + delay) :=
  (schedule hq hk).due_eq_some_iff.mpr ⟨_, mem_schedule.mpr (Or.inl rfl), hk, rfl⟩

theorem due_scheduleNow (hq : s.Quiet P) (hk : P k) : (s.scheduleNow k).due P = some s.now := by
  rw [scheduleNow, due_schedule hq hk]
  simp

theorem due_next_other (h : s.Tracks id P) (hn : s.next? = some (e, s')) (hk : ¬ P e.kind) :
    s'.due P = s.due P := by
  refine h.due_congr (h.next hn) fun a hP => ?_
  rw [mem_of_next? hn]
  constructor
  · exact Or.inr
  · rintro (rfl | ha)
    · exact absurd hP hk
    · exact ha

/-- The clock does not pass a pending event. -/
theorem now_le_due (h : s.Tracks id P) {t : ℤ} (ht : s.due P = some t) : s.now ≤ t := by
  obtain ⟨e, he, -, rfl⟩ := h.due_eq_some_iff.mp ht
  exact s.notPast e he

theorem next_time_le_due (h : s.Tracks id P) (hn : s.next? = some (e, s')) {t : ℤ}
    (ht : s.due P = some t) : e.time ≤ t := by
  obtain ⟨a, ha, -, rfl⟩ := h.due_eq_some_iff.mp ht
  exact time_le_of_pending hn ha

end Tracks

end Due

end Ns3Cosim.Execution.Simulator
