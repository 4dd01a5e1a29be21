import Ns3Cosim.Gateway.Clock

/-!
# The callbacks of a run

`Core.callbacks` lists the callbacks that ran and then those that are pending.
Apart from a `ForwardUp`, no step changes this list: a callback that runs moves
from the event list into the log.
-/

namespace Ns3Cosim.Gateway

open Execution

variable {D : Delimiters}

/-- The callback that an event will run. -/
def callback? (e : Event Kind) : Option Callback :=
  match e.kind with
  | .doInitialize data => some ⟨.doInitialize, data, e.time⟩
  | .handleUpdate data => some ⟨.doUpdate, data, e.time⟩
  | _ => none

/-- The callbacks that are scheduled, in the order of the event list. -/
def pendingCallbacks (sim : Simulator Kind) : List Callback := sim.queue.filterMap callback?

/-- The callbacks that ran and those that are pending. -/
def Core.callbacks (c : Core) : List Callback := c.log ++ pendingCallbacks c.sim

/-- The messages whose `ForwardUp` ended without a fatal error. -/
def Core.accepted (c : Core) : List Str :=
  if c.fatal = some .invalidHeader ∨ c.fatal = some .timestampsNotIncreasing then
    c.processed.dropLast
  else c.processed

section Pending

variable {sim sim' : Simulator Kind} {e : Event Kind}

theorem pendingCallbacks_eq_nil_iff :
    pendingCallbacks sim = [] ↔ ∀ e ∈ sim.queue, callback? e = none :=
  List.filterMap_eq_nil_iff

theorem pendingCallbacks_next (hn : sim.next? = some (e, sim')) :
    pendingCallbacks sim = (callback? e).toList ++ pendingCallbacks sim' := by
  unfold pendingCallbacks
  rw [(Simulator.next?_eq_some hn).1]
  cases h : callback? e <;> simp [h]

theorem pendingCallbacks_cancel {eventWait : EventId} (h : Handles sim eventWait) :
    pendingCallbacks (sim.cancel eventWait) = pendingCallbacks sim := by
  refine Simulator.filterMap_cancel callback? sim eventWait fun e he hid => ?_
  simp [callback?, h.waitKind e he hid]

/-- Scheduling an event without a callback. -/
theorem pendingCallbacks_schedule_of_none (sim : Simulator Kind) (delay : ℕ) {kind : Kind}
    (h : ∀ time uid, callback? ⟨time, uid, kind⟩ = none) :
    pendingCallbacks (sim.schedule delay kind) = pendingCallbacks sim :=
  Simulator.filterMap_schedule_of_none callback? sim delay kind (h _ _)

/-- Scheduling an event with a callback. -/
theorem pendingCallbacks_schedule (sim : Simulator Kind) (delay : ℕ) {kind : Kind}
    {callback : Callback} (h : callback? ⟨sim.now + delay, sim.nextUid, kind⟩ = some callback) :
    (pendingCallbacks (sim.schedule delay kind)).Perm (pendingCallbacks sim ++ [callback]) := by
  have hperm := (sim.schedule_perm delay kind).filterMap callback?
  rw [List.filterMap_cons_some h] at hperm
  exact hperm.trans (List.perm_append_singleton _ _).symm

end Pending

theorem Core.accepted_of_none {c : Core} (hf : c.fatal = none) : c.accepted = c.processed := by
  simp [Core.accepted, hf]

/-- A message whose `ForwardUp` failed is not accepted. -/
theorem Core.accepted_of_fatal {c : Core} {messages : List Str} {message : Str}
    (hp : c.processed = messages ++ [message])
    (hf : c.fatal = some .invalidHeader ∨ c.fatal = some .timestampsNotIncreasing) :
    c.accepted = messages := by
  unfold Core.accepted
  rw [if_pos hf, hp, List.dropLast_concat]

theorem Core.accepted_isPrefix (c : Core) : c.accepted <+: c.processed := by
  unfold Core.accepted
  split
  · exact List.dropLast_prefix _
  · exact List.prefix_rfl

/-- No message is taken, no callback runs, and none is added or lost. -/
structure Core.SameBooks (c c' : Core) : Prop where
  processed : c'.processed = c.processed
  timeStart : c'.timeStart = c.timeStart
  timePause : c'.timePause = c.timePause
  fatal : c'.fatal = c.fatal ∨ ∃ e : FatalError, ¬ e.OfForwardUp ∧ c'.fatal = some e
  log : c'.log = c.log
  pending : pendingCallbacks c'.sim = pendingCallbacks c.sim

namespace Core.SameBooks

variable {c c' c'' : Core}

theorem refl (c : Core) : c.SameBooks c := ⟨rfl, rfl, rfl, Or.inl rfl, rfl, rfl⟩

theorem trans (h : c.SameBooks c') (h' : c'.SameBooks c'') : c.SameBooks c'' where
  processed := h'.processed.trans h.processed
  timeStart := h'.timeStart.trans h.timeStart
  timePause := h'.timePause.trans h.timePause
  fatal := by
    obtain heq | hsome := h'.fatal
    · rw [heq]
      exact h.fatal
    · exact Or.inr hsome
  log := h'.log.trans h.log
  pending := h'.pending.trans h.pending

theorem schedule (c : Core) (delay : ℕ) (kind : Kind)
    (hk : ∀ time uid, callback? ⟨time, uid, kind⟩ = none) :
    c.SameBooks { c with sim := c.sim.schedule delay kind } :=
  ⟨rfl, rfl, rfl, Or.inl rfl, rfl, pendingCallbacks_schedule_of_none c.sim delay hk⟩

theorem cancel (hh : c.Handled) : c.SameBooks { c with sim := c.sim.cancel c.eventWait } :=
  ⟨rfl, rfl, rfl, Or.inl rfl, rfl, pendingCallbacks_cancel hh⟩

/-- An event without a callback leaves the event list. -/
theorem advance {e : Event Kind} {sim : Simulator Kind} (hn : c.sim.next? = some (e, sim))
    (hk : callback? e = none) : c.SameBooks (c.advance sim) := by
  refine ⟨rfl, rfl, rfl, Or.inl rfl, rfl, ?_⟩
  rw [pendingCallbacks_next hn, hk, Option.toList_none, List.nil_append]
  rfl

theorem cancelEvents (hh : c.Handled) : c.SameBooks c.cancelEvents := by
  rw [c.cancelEvents_eq]
  exact (cancel hh).trans ⟨rfl, rfl, rfl, Or.inl rfl, rfl, rfl⟩

theorem waitForNextUpdate (hh : c.Handled) : c.SameBooks c.waitForNextUpdate := by
  by_cases hs : c.state = .stopping
  · rw [Core.waitForNextUpdate_of_stopping hs]
    exact refl c
  · rw [Core.waitForNextUpdate_of_ne hs]
    exact ((cancel hh).trans (schedule _ 0 _ fun _ _ => rfl)).trans
      ⟨rfl, rfl, rfl, Or.inl rfl, rfl, rfl⟩

theorem fail (c : Core) {e : FatalError} (he : ¬ e.OfForwardUp) : c.SameBooks (c.fail e) :=
  ⟨rfl, rfl, rfl, Or.inr ⟨e, he, rfl⟩, rfl, rfl⟩

theorem user (hc : c.state ≠ .created) (action : UserAction) : c.SameBooks (c.user D action) := by
  refine Core.user_cases c action ?_ ?_ ?_ ?_ ?_
  · exact fun delay => schedule c delay _ fun _ _ => rfl
  · exact ⟨rfl, rfl, rfl, Or.inl rfl, rfl, rfl⟩
  · exact fun _ => ⟨rfl, rfl, rfl, Or.inl rfl, rfl, rfl⟩
  · exact fun _ he => fail c he
  · intro outcome
    rw [Core.connect_of_ne hc]
    exact fail c (by simp [FatalError.OfForwardUp])

end Core.SameBooks

theorem State.stop_sameBooks (s : State) (hh : s.core.Handled) (destroying : Bool) :
    s.core.SameBooks (s.stop destroying).core := by
  have hhalt : s.core.SameBooks { s.core with state := .stopping } :=
    ⟨rfl, rfl, rfl, Or.inl rfl, rfl, rfl⟩
  have hclose : s.core.SameBooks (Core.close { s.core with state := .stopping }) :=
    ⟨rfl, rfl, rfl, Or.inl rfl, rfl, rfl⟩
  refine State.stop_cases s destroying ?_ ?_ ?_
  · exact fun _ _ => hhalt
  · exact hclose.trans (Core.SameBooks.cancelEvents hh)
  · exact hhalt.trans (Core.SameBooks.cancelEvents hh)

/-- No message is taken, and the callbacks are the same, run or pending. -/
structure Core.Carries (c c' : Core) : Prop where
  processed : c'.processed = c.processed
  timeStart : c'.timeStart = c.timeStart
  timePause : c'.timePause = c.timePause
  fatal : c'.fatal = c.fatal ∨ ∃ e : FatalError, ¬ e.OfForwardUp ∧ c'.fatal = some e
  callbacks : c'.callbacks = c.callbacks
  pending : pendingCallbacks c'.sim ⊆ pendingCallbacks c.sim

theorem Core.SameBooks.carries {c c' : Core} (h : c.SameBooks c') : c.Carries c' where
  processed := h.processed
  timeStart := h.timeStart
  timePause := h.timePause
  fatal := h.fatal
  callbacks := by rw [Core.callbacks, h.log, h.pending, Core.callbacks]
  pending := by rw [h.pending]; exact List.Subset.refl _

namespace Core.Carries

variable {c c' : Core} {e : Event Kind} {sim : Simulator Kind}

/-- The messages accepted are the same, too. -/
theorem accepted (h : c.Carries c') (hf : c.fatal = none) : c'.accepted = c.accepted := by
  rw [Core.accepted_of_none hf, ← h.processed]
  obtain heq | ⟨e, he, heq⟩ := h.fatal
  · exact Core.accepted_of_none (heq.trans hf)
  · unfold Core.accepted
    refine if_neg fun hfatal => he ?_
    rw [heq, Option.some.injEq, Option.some.injEq] at hfatal
    exact Or.inr hfatal

/-- The callback of the event that runs moves from the pending ones into the log. -/
theorem runs (hn : c.sim.next? = some (e, sim)) {callback : Callback}
    (hcb : callback? e = some callback) (hprocessed : c'.processed = c.processed)
    (hstart : c'.timeStart = c.timeStart) (hpause : c'.timePause = c.timePause)
    (hfatal : c'.fatal = c.fatal) (hlog : c'.log = c.log ++ [callback])
    (hpending : pendingCallbacks c'.sim = pendingCallbacks sim) : c.Carries c' := by
  have hnext := pendingCallbacks_next hn
  rw [hcb, Option.toList_some] at hnext
  refine ⟨hprocessed, hstart, hpause, Or.inl hfatal, ?_, ?_⟩
  · rw [Core.callbacks, Core.callbacks, hlog, hpending, hnext, List.append_assoc]
  · rw [hpending, hnext]
    exact List.subset_append_right _ _

theorem doInitialize (hn : c.sim.next? = some (e, sim)) {data : List Str}
    (hk : e.kind = .doInitialize data) : c.Carries ((c.advance sim).doInitialize data) := by
  have hcb : callback? e = some ⟨.doInitialize, data, sim.now⟩ := by
    simp only [callback?, hk, (Simulator.next?_eq_some hn).2.1]
  exact runs hn hcb rfl rfl rfl rfl rfl rfl

theorem handleUpdate (hn : c.sim.next? = some (e, sim)) {data : List Str}
    (hk : e.kind = .handleUpdate data) : c.Carries ((c.advance sim).handleUpdate data) := by
  have hcb : callback? e = some ⟨.doUpdate, data, sim.now⟩ := by
    simp only [callback?, hk, (Simulator.next?_eq_some hn).2.1]
  simp only [Core.handleUpdate]
  split
  · exact runs hn hcb rfl rfl rfl rfl rfl (pendingCallbacks_schedule_of_none sim 0 fun _ _ => rfl)
  · exact runs hn hcb rfl rfl rfl rfl rfl rfl

end Core.Carries

variable {s s' : State} {l : Label}

/-- Apart from a `ForwardUp`, every step carries the books over. -/
theorem Handoff.carries (h : Handoff s) (hstep : Gateway.step D s l = some s')
    (hx : ¬ s.Executes l .forwardUp) : s.core.Carries s'.core := by
  have hh := h.handled
  cases Step.of_step hstep with
  | server | silent | push | scheduleForwardUp | scheduleStop | resume | drained =>
      exact Core.SameBooks.carries ⟨rfl, rfl, rfl, Or.inl rfl, rfl, rfl⟩
  | user => exact (Core.SameBooks.user h.constructed _).carries
  | insert _ hin =>
      apply Core.SameBooks.carries
      obtain rfl | rfl := h.kinds _ (hin ▸ List.mem_cons_self)
      · exact Core.SameBooks.schedule _ 0 _ fun _ _ => rfl
      · exact Core.SameBooks.schedule _ 0 _ fun _ _ => rfl
  | wait _ _ hn hk =>
      have hadvance := Core.SameBooks.advance hn (by simp [callback?, hk])
      exact (hadvance.trans (Core.SameBooks.waitForNextUpdate (hh.advance hn))).carries
  | forwardUp _ _ hn hk => exact absurd ((State.executes_iff hn).mpr hk) hx
  | stop _ _ hn hk =>
      have hadvance := Core.SameBooks.advance hn (by simp [callback?, hk])
      exact (hadvance.trans
        (State.stop_sameBooks { s with core := s.core.advance _ } (hh.advance hn) false)).carries
  | doInitialize _ _ hn hk => exact Core.Carries.doInitialize hn hk
  | handleUpdate _ _ hn hk => exact Core.Carries.handleUpdate hn hk
  | unrelated _ _ hn hk => exact (Core.SameBooks.advance hn (by simp [callback?, hk])).carries
  | join =>
      have hjoin : s.core.SameBooks s.core.join.close := ⟨rfl, rfl, rfl, Or.inl rfl, rfl, rfl⟩
      exact (hjoin.trans (Core.SameBooks.cancelEvents hh)).carries
  | destroy =>
      refine State.destroy_cases s ?_ ?_
      · intro _
        have htaken : s.core.SameBooks { s.core with eventDestroy := false } :=
          ⟨rfl, rfl, rfl, Or.inl rfl, rfl, rfl⟩
        exact (htaken.trans
          (State.stop_sameBooks { s with core.eventDestroy := false } hh true)).carries
      · intro _
        exact (Core.SameBooks.refl _).carries

end Ns3Cosim.Gateway
