import Mathlib.Data.List.Sort
import Mathlib.Data.Int.Order.Basic

/-!
# A discrete-event simulator

The event list is kept in execution order: by time, and by insertion number
between events of one time. A `Simulator` carries this order, the freshness of
the next insertion number and the fact that no event lies in the past as
fields, so that no operation can produce an event list without them. A
cancelled event is taken out of the list, since it never runs. Times count units
of the time resolution.
-/

namespace Ns3Cosim.Execution

/-- An event with its execution time and its insertion number. -/
structure Event (κ : Type*) where
  time : ℤ
  uid : ℕ
  kind : κ

/-- A handle is empty or refers to the event with one insertion number. -/
abbrev EventId := Option ℕ

namespace Event

variable {κ : Type*}

/-- The execution order: time first, insertion number between equal times. -/
def Before (a b : Event κ) : Prop := a.time < b.time ∨ a.time = b.time ∧ a.uid < b.uid

instance (a b : Event κ) : Decidable (a.Before b) :=
  inferInstanceAs (Decidable (a.time < b.time ∨ a.time = b.time ∧ a.uid < b.uid))

theorem Before.time_le {a b : Event κ} (h : a.Before b) : a.time ≤ b.time := by
  rcases h with h | h <;> omega

theorem Before.asymm {a b : Event κ} (hab : a.Before b) : ¬ b.Before a := by
  unfold Before at *
  omega

end Event

/-- A simulator: the current time, the next insertion number and the pending events. -/
structure Simulator (κ : Type*) where
  now : ℤ
  nextUid : ℕ
  queue : List (Event κ)
  sorted : queue.Pairwise Event.Before
  fresh : ∀ e ∈ queue, e.uid < nextUid
  notPast : ∀ e ∈ queue, now ≤ e.time
  unique : ∀ a ∈ queue, ∀ b ∈ queue, a.uid = b.uid → a = b

/-- Insert behind every event of the same or an earlier time. -/
def insertEvent {κ : Type*} (e : Event κ) (queue : List (Event κ)) : List (Event κ) :=
  queue.orderedInsert (fun a b => a.time < b.time) e

section Insert

variable {κ : Type*} {e : Event κ} {queue : List (Event κ)}

@[simp] theorem mem_insertEvent {a : Event κ} :
    a ∈ insertEvent e queue ↔ a = e ∨ a ∈ queue :=
  List.mem_orderedInsert _

theorem perm_insertEvent : (insertEvent e queue).Perm (e :: queue) :=
  List.perm_orderedInsert _ _ _

theorem insertEvent_sorted (hs : queue.Pairwise Event.Before) (hu : ∀ a ∈ queue, a.uid < e.uid) :
    (insertEvent e queue).Pairwise Event.Before := by
  induction queue with
  | nil => simp [insertEvent]
  | cons b queue ih =>
      obtain ⟨hb, hs⟩ := List.pairwise_cons.mp hs
      simp only [insertEvent, List.orderedInsert_cons]
      split
      · rename_i hlt
        refine List.pairwise_cons.mpr ⟨fun a ha => ?_, List.pairwise_cons.mpr ⟨hb, hs⟩⟩
        obtain rfl | ha := List.mem_cons.mp ha
        · exact Or.inl hlt
        · exact Or.inl (lt_of_lt_of_le hlt (hb a ha).time_le)
      · rename_i hlt
        refine List.pairwise_cons.mpr
          ⟨fun a ha => ?_, ih hs fun a ha => hu a (List.mem_cons_of_mem _ ha)⟩
        obtain rfl | ha := mem_insertEvent.mp ha
        · have := hu b List.mem_cons_self
          unfold Event.Before
          omega
        · exact hb a ha

/-- What an insertion adds to a projection of the event list comes last, when the events that
the projection sees are not later than the new one. -/
theorem filterMap_insertEvent {β : Type*} (f : Event κ → Option β)
    (hs : queue.Pairwise Event.Before) (h : ∀ a ∈ queue, f a ≠ none → a.time ≤ e.time) :
    (insertEvent e queue).filterMap f = queue.filterMap f ++ (f e).toList := by
  induction queue with
  | nil => cases hf : f e <;> simp [insertEvent, hf]
  | cons b queue ih =>
      obtain ⟨hb, hs⟩ := List.pairwise_cons.mp hs
      have ih := ih hs fun a ha => h a (List.mem_cons_of_mem _ ha)
      simp only [insertEvent, List.orderedInsert_cons] at ih ⊢
      split
      · rename_i hlt
        have hnone : (b :: queue).filterMap f = [] := by
          refine List.filterMap_eq_nil_iff.mpr fun a ha => ?_
          by_contra hf
          have hle := h a ha hf
          obtain rfl | ha := List.mem_cons.mp ha
          · omega
          · have := (hb a ha).time_le
            omega
        cases hf : f e <;> simp [hf, hnone]
      · cases hf : f b <;> simp [hf, ih]

/-- A projection that does not see the new event is unchanged. -/
theorem filterMap_insertEvent_of_none {β : Type*} (f : Event κ → Option β) (h : f e = none) :
    (insertEvent e queue).filterMap f = queue.filterMap f := by
  induction queue with
  | nil => simp [insertEvent, h]
  | cons b queue ih =>
      simp only [insertEvent, List.orderedInsert_cons] at ih ⊢
      split
      · simp [h]
      · simp [List.filterMap_cons, ih]

end Insert

namespace Simulator

variable {κ : Type*}

/-- A simulator at time `t` without pending events. -/
def empty (t : ℤ) : Simulator κ where
  now := t
  nextUid := 0
  queue := []
  sorted := List.Pairwise.nil
  fresh := by simp
  notPast := by simp
  unique := by simp

/-- Schedule an event after a delay. Its handle is `some s.nextUid`. -/
def schedule (s : Simulator κ) (delay : ℕ) (k : κ) : Simulator κ where
  now := s.now
  nextUid := s.nextUid + 1
  queue := insertEvent ⟨s.now + delay, s.nextUid, k⟩ s.queue
  sorted := insertEvent_sorted s.sorted s.fresh
  fresh := by
    intro e he
    obtain rfl | he := mem_insertEvent.mp he
    · exact Nat.lt_succ_self _
    · exact Nat.lt_succ_of_lt (s.fresh e he)
  notPast := by
    intro e he
    obtain rfl | he := mem_insertEvent.mp he
    · exact Int.le_add_of_nonneg_right (Int.natCast_nonneg delay)
    · exact s.notPast e he
  unique := by
    intro a ha b hb hab
    rcases mem_insertEvent.mp ha with rfl | ha <;> rcases mem_insertEvent.mp hb with rfl | hb
    · rfl
    · have := s.fresh b hb
      simp only at hab
      omega
    · have := s.fresh a ha
      simp only at hab
      omega
    · exact s.unique a ha b hb hab

/-- Schedule an event at the current time, behind everything queued for it. -/
def scheduleNow (s : Simulator κ) (k : κ) : Simulator κ := s.schedule 0 k

/-- An event is pending while it stands in the event list: neither run, running nor cancelled. -/
def isPending (s : Simulator κ) (id : EventId) : Bool := s.queue.any fun e => id = some e.uid

/-- Cancel the event that a handle refers to. -/
def cancel (s : Simulator κ) (id : EventId) : Simulator κ where
  now := s.now
  nextUid := s.nextUid
  queue := s.queue.filter fun e => id ≠ some e.uid
  sorted := s.sorted.filter _
  fresh := fun e he => s.fresh e (List.mem_of_mem_filter he)
  notPast := fun e he => s.notPast e (List.mem_of_mem_filter he)
  unique := fun a ha b hb =>
    s.unique a (List.mem_of_mem_filter ha) b (List.mem_of_mem_filter hb)

/-- Take the next event and advance the time to it. -/
def next? (s : Simulator κ) : Option (Event κ × Simulator κ) :=
  match h : s.queue with
  | [] => none
  | e :: queue =>
      some (e, {
        now := e.time
        nextUid := s.nextUid
        queue := queue
        sorted := (List.pairwise_cons.mp (h ▸ s.sorted)).2
        fresh := fun a ha => s.fresh a (h ▸ List.mem_cons_of_mem _ ha)
        notPast := fun a ha => ((List.pairwise_cons.mp (h ▸ s.sorted)).1 a ha).time_le
        unique := fun a ha b hb =>
          s.unique a (h ▸ List.mem_cons_of_mem _ ha) b (h ▸ List.mem_cons_of_mem _ hb) })

@[simp] theorem schedule_now (s : Simulator κ) (delay : ℕ) (k : κ) :
    (s.schedule delay k).now = s.now := rfl

@[simp] theorem schedule_nextUid (s : Simulator κ) (delay : ℕ) (k : κ) :
    (s.schedule delay k).nextUid = s.nextUid + 1 := rfl

@[simp] theorem mem_schedule {s : Simulator κ} {delay : ℕ} {k : κ} {e : Event κ} :
    e ∈ (s.schedule delay k).queue ↔ e = ⟨s.now + delay, s.nextUid, k⟩ ∨ e ∈ s.queue :=
  mem_insertEvent

theorem schedule_perm (s : Simulator κ) (delay : ℕ) (k : κ) :
    (s.schedule delay k).queue.Perm (⟨s.now + delay, s.nextUid, k⟩ :: s.queue) :=
  perm_insertEvent

/-- A projection whose visible events are not later than the new one gains it at the end. -/
theorem filterMap_schedule {β : Type*} (f : Event κ → Option β) (s : Simulator κ) (delay : ℕ)
    (k : κ) (h : ∀ e ∈ s.queue, f e ≠ none → e.time ≤ s.now + delay) :
    (s.schedule delay k).queue.filterMap f =
      s.queue.filterMap f ++ (f ⟨s.now + delay, s.nextUid, k⟩).toList :=
  filterMap_insertEvent f s.sorted h

theorem filterMap_schedule_of_none {β : Type*} (f : Event κ → Option β) (s : Simulator κ)
    (delay : ℕ) (k : κ) (h : f ⟨s.now + delay, s.nextUid, k⟩ = none) :
    (s.schedule delay k).queue.filterMap f = s.queue.filterMap f :=
  filterMap_insertEvent_of_none f h

@[simp] theorem scheduleNow_now (s : Simulator κ) (k : κ) :
    (s.scheduleNow k).now = s.now := rfl

@[simp] theorem scheduleNow_nextUid (s : Simulator κ) (k : κ) :
    (s.scheduleNow k).nextUid = s.nextUid + 1 := rfl

@[simp] theorem mem_scheduleNow {s : Simulator κ} {k : κ} {e : Event κ} :
    e ∈ (s.scheduleNow k).queue ↔ e = ⟨s.now, s.nextUid, k⟩ ∨ e ∈ s.queue := by
  simp [scheduleNow]

@[simp] theorem isPending_iff {s : Simulator κ} {id : EventId} :
    s.isPending id = true ↔ ∃ e ∈ s.queue, id = some e.uid := by
  simp [isPending]

@[simp] theorem cancel_now (s : Simulator κ) (id : EventId) : (s.cancel id).now = s.now := rfl

@[simp] theorem cancel_nextUid (s : Simulator κ) (id : EventId) :
    (s.cancel id).nextUid = s.nextUid := rfl

@[simp] theorem mem_cancel {s : Simulator κ} {id : EventId} {e : Event κ} :
    e ∈ (s.cancel id).queue ↔ e ∈ s.queue ∧ id ≠ some e.uid := by
  simp [cancel]

/-- Cancelling an event that is not pending changes nothing. -/
theorem cancel_of_not_isPending {s : Simulator κ} {id : EventId} (h : s.isPending id = false) :
    s.cancel id = s := by
  have hq : s.queue.filter (fun e => id ≠ some e.uid) = s.queue := by
    refine List.filter_eq_self.mpr fun e he => ?_
    have hne : ¬ ∃ e ∈ s.queue, id = some e.uid := by
      rw [← isPending_iff, h]
      exact Bool.false_ne_true
    exact decide_eq_true fun hid => hne ⟨e, he, hid⟩
  cases s
  simp only [cancel] at hq ⊢
  simp only [hq]

/-- Cancelling what a projection does not see leaves the projection alone. -/
theorem filterMap_cancel {β : Type*} (f : Event κ → Option β) (s : Simulator κ) (id : EventId)
    (h : ∀ e ∈ s.queue, id = some e.uid → f e = none) :
    (s.cancel id).queue.filterMap f = s.queue.filterMap f := by
  simp only [cancel]
  rw [List.filterMap_filter]
  refine List.filterMap_congr fun e he => ?_
  by_cases hid : id = some e.uid
  · simp [hid, h e he hid]
  · simp [hid]

/-- Taking the next event: it heads the list, the rest stays, and the time becomes its time. -/
theorem next?_eq_some {s s' : Simulator κ} {e : Event κ} (h : s.next? = some (e, s')) :
    s.queue = e :: s'.queue ∧ s'.now = e.time ∧ s'.nextUid = s.nextUid := by
  unfold next? at h
  split at h
  · cases h
  · rename_i hq
    cases h
    exact ⟨hq, rfl, rfl⟩

section Next

variable {s s' : Simulator κ} {e : Event κ}

theorem exists_next (h : s.queue ≠ []) : ∃ p, s.next? = some p := by
  unfold next?
  split
  · exact absurd ‹_› h
  · exact ⟨_, rfl⟩

theorem mem_of_next? (h : s.next? = some (e, s')) {a : Event κ} :
    a ∈ s.queue ↔ a = e ∨ a ∈ s'.queue := by
  rw [(next?_eq_some h).1, List.mem_cons]

theorem before_of_next? (h : s.next? = some (e, s')) {a : Event κ} (ha : a ∈ s'.queue) :
    e.Before a :=
  (List.pairwise_cons.mp ((next?_eq_some h).1 ▸ s.sorted)).1 a ha

theorem now_le_of_next? (h : s.next? = some (e, s')) : s.now ≤ e.time :=
  s.notPast e ((mem_of_next? h).mpr (Or.inl rfl))

/-- Time stands still while an event is pending at the current time. -/
theorem time_eq_of_pending (h : s.next? = some (e, s')) {a : Event κ} (ha : a ∈ s.queue)
    (hnow : a.time = s.now) : e.time = s.now := by
  have hle := now_le_of_next? h
  obtain rfl | ha := (mem_of_next? h).mp ha
  · exact hnow
  · have := (before_of_next? h ha).time_le
    omega

/-- An event no later than every other pending one is not passed. -/
theorem time_le_of_pending (h : s.next? = some (e, s')) {a : Event κ} (ha : a ∈ s.queue) :
    e.time ≤ a.time := by
  obtain rfl | ha := (mem_of_next? h).mp ha
  · exact le_rfl
  · exact (before_of_next? h ha).time_le

/-- An event is not executed while one that comes before it is pending. -/
theorem ne_of_before (h : s.next? = some (e, s')) {a b : Event κ} (ha : a ∈ s.queue)
    (hab : a.Before b) : e ≠ b := by
  rintro rfl
  obtain rfl | ha := (mem_of_next? h).mp ha
  · exact hab.asymm hab
  · exact (before_of_next? h ha).asymm hab

end Next

end Simulator

end Ns3Cosim.Execution
