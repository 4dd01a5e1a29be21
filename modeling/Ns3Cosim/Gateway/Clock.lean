import Ns3Cosim.Gateway.LockStep
import Ns3Cosim.Gateway.Framing

/-!
# The clock of the server

`m_timeStart` and `m_timePause` are functions of the messages taken so far: the
first timestamp, and the distance from it to the last one. With the lock-step
bound this fixes the simulation time at which the first message is taken.
-/

namespace Ns3Cosim.Gateway

open Words Execution

variable {D : Delimiters}

/-- `m_timeStart` after these timestamps. -/
def startOf : List (ℤ × List Str) → ℤ
  | [] => -nanosecondsPerSecond
  | u :: _ => u.1

/-- `m_timePause` after these timestamps. -/
def pauseOf (us : List (ℤ × List Str)) : ℤ :=
  match us.getLast? with
  | none => 0
  | some u => u.1 - startOf us

theorem startOf_append {us : List (ℤ × List Str)} (hne : us ≠ []) (vs : List (ℤ × List Str)) :
    startOf (us ++ vs) = startOf us := by
  cases us with
  | nil => exact absurd rfl hne
  | cons u us => rfl

theorem pauseOf_append {us : List (ℤ × List Str)} (hne : us ≠ []) (u : ℤ × List Str) :
    pauseOf (us ++ [u]) = u.1 - startOf us := by
  simp only [pauseOf, List.getLast?_append, List.getLast?_singleton, startOf_append hne,
    Option.some_or]

@[simp] theorem pauseOf_singleton (u : ℤ × List Str) : pauseOf [u] = 0 := by
  simp [pauseOf, startOf]

theorem updates_append (D : Delimiters) (messages : List Str) (message : Str) :
    updates D (messages ++ [message]) = updates D messages ++ (update? D message).toList := by
  cases h : update? D message <;> simp [updates, h]

theorem updates_isPrefix {messages messages' : List Str} (h : messages <+: messages') :
    updates D messages <+: updates D messages' := by
  obtain ⟨rest, rfl⟩ := h
  simp [updates]

theorem NeverDecreasing.of_isPrefix {us vs : List (ℤ × List Str)} (hv : NeverDecreasing vs)
    (h : us <+: vs) : NeverDecreasing us := List.Pairwise.sublist h.sublist hv

theorem updates_nonneg {messages : List Str} {u : ℤ × List Str} (h : u ∈ updates D messages) :
    0 ≤ u.1 := by
  obtain ⟨message, -, hu⟩ := List.mem_filterMap.mp h
  exact (update?_eq_some hu).2

/-- `m_timeStart` is negative until a message has set it. -/
theorem startOf_neg_iff {messages : List Str} :
    startOf (updates D messages) < 0 ↔ updates D messages = [] := by
  cases h : updates D messages with
  | nil => simp [startOf, nanosecondsPerSecond]
  | cons u us =>
      have hu : 0 ≤ u.1 := updates_nonneg (h ▸ List.mem_cons_self)
      simp only [startOf, reduceCtorEq, iff_false, not_lt]
      exact hu

/-- The members that keep the server's time are those of the messages taken. -/
def Core.Clock (D : Delimiters) (c : Core) : Prop :=
  c.timeStart = startOf (updates D c.processed) ∧ c.timePause = pauseOf (updates D c.processed)

namespace Core.Clock

variable {c : Core}

/-- No message has been taken as an update while `m_timeStart` is negative. -/
theorem neg_iff (h : c.Clock D) : c.timeStart < 0 ↔ updates D c.processed = [] := by
  rw [h.1]
  exact startOf_neg_iff

theorem forwardUp (h : c.Clock D) : (c.forwardUp D).Clock D := by
  refine Core.forwardUp_cases fun c' hc' => ?_
  cases hc' with
  | empty => exact h
  | @invalid message messages e hq hr =>
      have hu : update? D message = none := by simp [update?, hr]
      simpa [Core.Clock, Core.fail, Core.pop, updates_append, hu] using h
  | @terminate message messages timestamp values hq hr hneg =>
      have hu := update?_of_neg hr hneg
      simpa [Core.Clock, Core.pop, updates_append, hu] using h
  | @first message messages timestamp values hq hr hpos hstart =>
      have hu := update?_of_nonneg hr hpos
      have hnil := h.neg_iff.mp hstart
      have hpause := h.2
      simp only [hnil] at hpause
      constructor
      · simp [Core.pop, updates_append, hnil, hu, startOf]
      · simp only [Core.pop, updates_append, hnil, hu, Option.toList_some, List.nil_append,
          pauseOf_singleton]
        exact hpause
  | @update message messages timestamp values hq hr hpos hstart hle =>
      have hu := update?_of_nonneg hr hpos
      have hne : updates D c.processed ≠ [] := fun hnil => not_lt.mpr hstart (h.neg_iff.mpr hnil)
      constructor
      · simp only [Core.pop, updates_append, hu, Option.toList_some, startOf_append hne]
        exact h.1
      · simp only [Core.pop, updates_append, hu, Option.toList_some, pauseOf_append hne, ← h.1]
  | @past message messages timestamp values hq hr hpos hstart hlt =>
      have hu := update?_of_nonneg hr hpos
      have hne : updates D c.processed ≠ [] := fun hnil => not_lt.mpr hstart (h.neg_iff.mpr hnil)
      constructor
      · simp only [Core.pop, updates_append, hu, Option.toList_some, startOf_append hne]
        exact h.1
      · simp only [Core.pop, updates_append, hu, Option.toList_some, pauseOf_append hne, ← h.1]

theorem user (h : c.Clock D) (action : UserAction) : (c.user D action).Clock D := by
  refine Core.user_cases c action ?_ ?_ ?_ ?_ ?_
  · exact fun _ => h
  · exact h
  · exact fun _ => h
  · exact fun _ _ => h
  · intro outcome
    unfold Core.connect
    split
    · exact h
    · split <;> exact h

theorem waitForNextUpdate (h : c.Clock D) : c.waitForNextUpdate.Clock D := by
  by_cases hs : c.state = .stopping
  · rw [Core.waitForNextUpdate_of_stopping hs]
    exact h
  · rw [Core.waitForNextUpdate_of_ne hs]
    exact h

theorem handleUpdate (h : c.Clock D) (data : List Str) : (c.handleUpdate data).Clock D := by
  simp only [Core.handleUpdate]
  split <;> exact h

theorem cancelEvents (h : c.Clock D) : c.cancelEvents.Clock D := by
  rw [c.cancelEvents_eq]
  exact h

end Core.Clock

theorem clock_preserved : Preserved D (Core.Clock D) where
  push _ _ h := h
  insert _ _ h := h
  user _ _ h _ := h.user _
  wait c _ sim h _ _ := Core.Clock.waitForNextUpdate (c := c.advance sim) h
  forwardUp c _ sim h _ _ _ := Core.Clock.forwardUp (c := c.advance sim) h
  doInitialize _ _ _ _ h _ _ := h
  handleUpdate c _ sim _ h _ _ := Core.Clock.handleUpdate (c := c.advance sim) h _
  leave _ _ _ h _ _ := h
  halt _ h := h
  join _ h := h
  close _ h := h
  destroyTaken _ h := h
  cancelEvents _ _ h := h.cancelEvents

variable {ok : State → Label → Prop} {t₀ : ℤ} {s s' : State} {l : Label}

theorem Occurs.clock (h : Occurs D ok t₀ s) : s.core.Clock D :=
  h.preserved clock_preserved fun _ _ _ _ => ⟨rfl, rfl⟩

/-- A `ForwardUp` runs on a connected gateway only. -/
theorem Handoff.connected_of_forwardUp (h : Handoff s) (hm : s.main = .loop) {e : Event Kind}
    {sim : Simulator Kind} (hn : s.core.sim.next? = some (e, sim)) (hk : e.kind = .forwardUp) :
    s.core.state = .connected := by
  cases hs : s.core.state with
  | created => exact absurd hs h.constructed
  | connected => rfl
  | stopping =>
      have hzero := (h.halted hs (by simp [State.InRun, hm])).2
      have hcount := forwardUps_next hn
      simp only [hk, if_true] at hcount
      simp only [State.scheduled] at hzero
      omega

/-- A `ForwardUp` that runs does not run later than the granted time. -/
theorem Occurs.forwardUp_le (h : Occurs D ok t₀ s) (hm : s.main = .loop)
    (hf : s.core.fatal = none) {e : Event Kind} {sim : Simulator Kind}
    (hn : s.core.sim.next? = some (e, sim)) (hk : e.kind = .forwardUp) :
    e.time ≤ max t₀ s.core.timePause := by
  have hle := h.paced.next_le hn (h.handoff.connected_of_forwardUp hm hn hk) hf
  rw [(Simulator.next?_eq_some hn).2.1] at hle
  exact hle

/-- Before the first message simulation time is the time of `Connect`. -/
theorem Occurs.now_eq_of_first (h : Occurs D ok t₀ s) (ht : 0 ≤ t₀)
    (hc : s.core.state = .connected) (hf : s.core.fatal = none) {e : Event Kind}
    {sim : Simulator Kind} (hn : s.core.sim.next? = some (e, sim))
    (hnil : updates D s.core.processed = []) : sim.now = t₀ := by
  have hpause : s.core.timePause = 0 := by
    rw [h.clock.2, hnil]
    rfl
  have hle := h.paced.next_le hn hc hf
  rw [hpause, max_eq_left ht] at hle
  exact le_antisymm hle (h.paced.start_le_next hn)

end Ns3Cosim.Gateway
