import Ns3Cosim.Gateway.Callbacks
import Ns3Cosim.Gateway.Lifecycle
import Ns3Cosim.Gateway.Timestamps

/-!
# A well-formed stream ends no gateway

When every message of the stream has a header and the timestamps never decrease,
`ForwardUp` raises no error in any run of a gateway connected at time 0. What
ends such a gateway is user code.
-/

namespace Ns3Cosim.Gateway

open Words Execution

variable {D : Delimiters} {s s' : State} {l : Label}

/-- Every message of the stream can be read, and the timestamps never decrease. -/
structure WellFormed (D : Delimiters) (stream : Str) : Prop where
  readable : ∀ message ∈ (cut D.delimiterMessage stream).1, ∃ u, readMessage D message = .ok u
  ordered : NeverDecreasing (updates D (cut D.delimiterMessage stream).1)

theorem WellFormed.of_isPrefix {v w : Str} (h : WellFormed D w) (hv : v <+: w) : WellFormed D v where
  readable message hm := h.readable message ((cut_isPrefix D.message_ne hv).subset hm)
  ordered := h.ordered.of_isPrefix (updates_isPrefix (cut_isPrefix D.message_ne hv))

/-- An invalid header was that of a message which was taken. -/
def Core.Blames (D : Delimiters) (c : Core) : Prop :=
  c.fatal = some .invalidHeader → ∃ message ∈ c.processed, ∃ e, readMessage D message = .error e

namespace Core.Blames

variable {c : Core}

theorem forwardUp (hf : c.fatal = none) : (c.forwardUp D).Blames D := by
  refine Core.forwardUp_cases fun c' hc' => ?_
  cases hc' with
  | empty => exact fun h => by cases h
  | @invalid message messages e hq hr =>
      intro _
      exact ⟨message, List.mem_append_right _ (List.mem_singleton.mpr rfl), e, hr⟩
  | terminate | first | update =>
      intro h
      have hnone : c.fatal = some .invalidHeader := h
      rw [hf] at hnone
      cases hnone
  | past => exact fun h => by cases h

end Core.Blames

theorem blames_preserved : Preserved D (Core.Blames D) where
  push _ _ h := h
  insert _ _ h := h
  user _ action _ hf := fun h => absurd h (Core.user_fatal hf action).1
  wait c _ sim h _ _ := by
    have hadvance : (c.advance sim).Blames D := h
    by_cases hs : (c.advance sim).state = .stopping
    · rw [Core.waitForNextUpdate_of_stopping hs]
      exact hadvance
    · rw [Core.waitForNextUpdate_of_ne hs]
      exact hadvance
  forwardUp c _ sim _ hf _ _ := Core.Blames.forwardUp (c := c.advance sim) hf
  doInitialize _ _ _ _ h _ _ := h
  handleUpdate c e sim data h _ _ := by
    simp only [Core.handleUpdate]
    split <;> exact h
  leave _ _ _ h _ _ := h
  halt _ h := h
  join _ h := h
  close _ h := h
  destroyTaken _ h := h
  cancelEvents c _ h := by
    rw [c.cancelEvents_eq]
    exact h

/-- Only `ForwardUp` and user code raise errors. -/
theorem fatal_of_step (hl : ∀ action, l ≠ .user action) (h : step D s l = some s') :
    s'.core.fatal = none ∨ ∃ e : FatalError, s'.core.fatal = some e ∧ e.OfForwardUp := by
  have hf := (step_eq_some h).1
  cases Step.of_step h with
  | server | silent | push | scheduleForwardUp | scheduleStop | resume | insert | drained
  | doInitialize | unrelated => exact Or.inl hf
  | user => exact absurd rfl (hl _)
  | @wait e sim =>
      left
      by_cases hs : (s.core.advance sim).state = .stopping
      · rw [Core.waitForNextUpdate_of_stopping hs]
        exact hf
      · rw [Core.waitForNextUpdate_of_ne hs]
        exact hf
  | @forwardUp e sim =>
      refine Core.forwardUp_cases (c := s.core.advance sim) (P := fun c => c.fatal = none ∨
        ∃ e : FatalError, c.fatal = some e ∧ e.OfForwardUp) fun c' hc' => ?_
      cases hc' with
      | empty => exact Or.inr ⟨_, rfl, Or.inl rfl⟩
      | invalid _ hr => exact Or.inr ⟨_, rfl, Or.inr (Or.inl (readMessage_error hr))⟩
      | terminate | first | update => exact Or.inl hf
      | past => exact Or.inr ⟨_, rfl, Or.inr (Or.inr rfl)⟩
  | stop =>
      rw [(State.stop_frame _ _).fatal]
      exact Or.inl hf
  | handleUpdate =>
      left
      simp only [Core.handleUpdate]
      split <;> exact hf
  | join =>
      rw [State.joined, Core.cancelEvents_eq]
      exact Or.inl hf
  | destroy =>
      rw [s.destroy_frame.fatal]
      exact Or.inl hf

namespace Occurs

variable {ok : State → Label → Prop} {t₀ : ℤ}

theorem blames (h : Occurs D ok t₀ s) : s.core.Blames D :=
  h.preserved blames_preserved fun _ _ _ _ => by
    simp [Core.Blames, State.connected, Core.connect, Core.construct, Core.scheduleWait]

/-- On a well-formed stream `ForwardUp` raises none of its errors. -/
theorem not_ofForwardUp (h : Occurs D ok 0 s) (hw : WellFormed D s.conn.sent) {e : FatalError}
    (hf : s.core.fatal = some e) : ¬ e.OfForwardUp := by
  rintro (rfl | rfl | rfl)
  · exact h.handoff.neverEmpty hf
  · obtain ⟨message, hm, e, hr⟩ := h.blames hf
    obtain ⟨u, hu⟩ := hw.readable message (h.processed_isPrefix.subset hm)
    rw [hr] at hu
    cases hu
  · exact h.not_rejected hw.ordered hf

/-- So only user code ends the gateway. -/
theorem fatal_eq_none (h : Occurs D always 0 s) (hl : ∀ action, l ≠ .user action)
    (hstep : step D s l = some s') (hw : WellFormed D s'.conn.sent) : s'.core.fatal = none := by
  obtain hnone | ⟨e, he, hforward⟩ := fatal_of_step hl hstep
  · exact hnone
  · exact absurd hforward ((h.next trivial hstep).not_ofForwardUp hw he)

end Occurs

section Record

/-- What only the callbacks and user code change. -/
structure Core.SameRecord (c c' : Core) : Prop where
  log : c'.log = c.log
  outbound : c'.outbound = c.outbound

theorem Core.SameRecord.refl (c : Core) : c.SameRecord c := ⟨rfl, rfl⟩

theorem State.stop_sameRecord (s : State) (destroying : Bool) :
    s.core.SameRecord (s.stop destroying).core := by
  refine State.stop_cases s destroying ?_ ?_ ?_
  · exact fun _ _ => ⟨rfl, rfl⟩
  · rw [Core.cancelEvents_eq]
    exact ⟨rfl, rfl⟩
  · rw [Core.cancelEvents_eq]
    exact ⟨rfl, rfl⟩

theorem Core.waitForNextUpdate_sameRecord (c : Core) : c.SameRecord c.waitForNextUpdate := by
  by_cases hs : c.state = .stopping
  · rw [Core.waitForNextUpdate_of_stopping hs]
    exact .refl c
  · rw [Core.waitForNextUpdate_of_ne hs]
    exact ⟨rfl, rfl⟩

theorem Core.forwardUp_sameRecord (c : Core) : c.SameRecord (c.forwardUp D) := by
  refine Core.forwardUp_cases (P := fun c' => c.SameRecord c') fun c' hc' => ?_
  cases hc' <;> exact ⟨rfl, rfl⟩

/-- A step that runs no user code and no event. -/
theorem sameRecord_of_step (hl : l ≠ .event)
    (hu : ∀ action, l = .user action → ∃ delay, action = .schedule delay)
    (h : step D s l = some s') : s.core.SameRecord s'.core := by
  cases Step.of_step h with
  | server | silent | push | scheduleForwardUp | scheduleStop | resume | insert | drained =>
      exact ⟨rfl, rfl⟩
  | user =>
      obtain ⟨delay, rfl⟩ := hu _ rfl
      exact ⟨rfl, rfl⟩
  | wait | forwardUp | stop | doInitialize | handleUpdate | unrelated => exact absurd rfl hl
  | join =>
      rw [State.joined, Core.cancelEvents_eq]
      exact ⟨rfl, rfl⟩
  | destroy =>
      refine State.destroy_cases s ?_ ?_
      · intro _
        have hstop := State.stop_sameRecord { s with core.eventDestroy := false } true
        exact ⟨hstop.log, hstop.outbound⟩
      · exact fun _ => ⟨rfl, rfl⟩

/-- An event logs its callback, and nothing else. -/
theorem record_of_event {e : Event Kind} {sim : Simulator Kind}
    (hn : s.core.sim.next? = some (e, sim)) (h : step D s .event = some s') :
    s'.core.log = s.core.log ++ (callback? e).toList ∧ s'.core.outbound = s.core.outbound := by
  have htime := (Simulator.next?_eq_some hn).2.1
  rw [eq_execute_of_event h hn]
  cases hk : e.kind with
  | waitForNextUpdate =>
      have hsame := (s.core.advance sim).waitForNextUpdate_sameRecord
      simp only [callback?, hk, Option.toList_none, List.append_nil]
      exact ⟨hsame.log, hsame.outbound⟩
  | forwardUp =>
      have hsame := (s.core.advance sim).forwardUp_sameRecord (D := D)
      simp only [callback?, hk, Option.toList_none, List.append_nil]
      exact ⟨hsame.log, hsame.outbound⟩
  | stop =>
      have hsame := State.stop_sameRecord { s with core := s.core.advance sim } false
      simp only [callback?, hk, Option.toList_none, List.append_nil]
      exact ⟨hsame.log, hsame.outbound⟩
  | unrelated =>
      simp only [callback?, hk, Option.toList_none, List.append_nil]
      exact ⟨rfl, rfl⟩
  | doInitialize data =>
      simp only [callback?, hk, Option.toList_some, ← htime]
      exact ⟨rfl, rfl⟩
  | handleUpdate data =>
      simp only [callback?, hk, Option.toList_some, ← htime, State.execute, Core.handleUpdate]
      split <;> exact ⟨rfl, rfl⟩

theorem State.stop_stopped (s : State) (destroying : Bool) :
    (s.stop destroying).core.stopped = s.core.stopped := by
  refine State.stop_cases (P := fun s' => s'.core.stopped = s.core.stopped) s destroying ?_ ?_ ?_
  · exact fun _ _ => rfl
  · rw [Core.cancelEvents_eq]
    rfl
  · rw [Core.cancelEvents_eq]

/-- Apart from `ForwardUp` and user code nothing stops the simulator. -/
theorem stopped_of_step (hl : ∀ action, l = .user action → ∃ delay, action = .schedule delay)
    (h : step D s l = some s') (hs : s'.core.stopped = true) :
    s.core.stopped = true ∨ ∃ message values, ∃ timestamp < 0,
      s'.core.processed = s.core.processed ++ [message] ∧
        readMessage D message = .ok (timestamp, values) := by
  cases Step.of_step h with
  | server | silent | push | scheduleForwardUp | scheduleStop | resume | insert | drained
  | doInitialize | unrelated => exact Or.inl hs
  | user =>
      obtain ⟨delay, rfl⟩ := hl _ rfl
      exact Or.inl hs
  | @wait e sim =>
      left
      by_cases hstate : (s.core.advance sim).state = .stopping
      · rw [Core.waitForNextUpdate_of_stopping hstate] at hs
        exact hs
      · rw [Core.waitForNextUpdate_of_ne hstate] at hs
        exact hs
  | @forwardUp e sim =>
      revert hs
      refine Core.forwardUp_cases (c := s.core.advance sim) (P := fun c => c.stopped = true →
        s.core.stopped = true ∨ ∃ message values, ∃ timestamp < 0,
          c.processed = s.core.processed ++ [message] ∧
            readMessage D message = .ok (timestamp, values)) fun c' hc' hs => ?_
      cases hc' with
      | empty | invalid | first | update | past => exact Or.inl hs
      | terminate _ hr hneg => exact Or.inr ⟨_, _, _, hneg, rfl, hr⟩
  | @stop e sim =>
      rw [State.stop_stopped] at hs
      exact Or.inl hs
  | handleUpdate =>
      left
      simp only [Core.handleUpdate] at hs
      split at hs <;> exact hs
  | join =>
      rw [State.joined, Core.cancelEvents_eq] at hs
      exact Or.inl hs
  | destroy =>
      left
      revert hs
      refine State.destroy_cases (P := fun s' => s'.core.stopped = true → s.core.stopped = true)
        s ?_ ?_
      · intro _
        rw [State.stop_stopped]
        exact id
      · exact fun _ => id

/-- Apart from a `Stop` event and `Simulator::Destroy` nothing stops the gateway. -/
theorem stopping_of_step (hinv : s.core.state ≠ .created) (h : step D s l = some s')
    (hs : s'.core.state = .stopping) :
    s.core.state = .stopping ∨ s.Executes l .stop ∨
      l = .destroy ∧ (s.core.stopped = true ∨ s.core.sim.queue = []) := by
  cases Step.of_step h with
  | server | silent | push | scheduleForwardUp | scheduleStop | resume | insert | drained
  | doInitialize | unrelated => exact Or.inl hs
  | @user action =>
      have hsame := Core.user_lifecycle (D := D) hinv action
      simp only [Core.lifecycle, Prod.mk.injEq] at hsame
      exact Or.inl (hsame.1 ▸ hs)
  | @wait e sim =>
      have hsame := Core.waitForNextUpdate_lifecycle (c := s.core.advance sim)
      simp only [Core.lifecycle, Prod.mk.injEq] at hsame
      exact Or.inl (hsame.1.symm.trans hs)
  | @forwardUp e sim =>
      have hsame := Core.forwardUp_lifecycle (D := D) (c := s.core.advance sim)
      simp only [Core.lifecycle, Prod.mk.injEq] at hsame
      exact Or.inl (hsame.1.symm.trans hs)
  | @handleUpdate e sim data =>
      have hsame := Core.handleUpdate_lifecycle (c := s.core.advance sim) data
      simp only [Core.lifecycle, Prod.mk.injEq] at hsame
      exact Or.inl (hsame.1.symm.trans hs)
  | stop _ _ hn hk => exact Or.inr (Or.inl ((State.executes_iff hn).mpr hk))
  | join =>
      rw [State.joined, Core.cancelEvents_eq] at hs
      exact Or.inl hs
  | destroy _ hguard => exact Or.inr (Or.inr ⟨rfl, hguard⟩)

end Record

end Ns3Cosim.Gateway
