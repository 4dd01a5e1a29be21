import Ns3Cosim.Execution.Handle
import Ns3Cosim.Gateway.CallbackLog

/-!
# Increasing timestamps never leave a stale pause

When every timestamp is later than the one before, two updates are never due at
the same time. `HandleUpdate` then finds no wait pending when it schedules one,
so `m_eventWait` refers to every wait there is, and a granted advance is never
held back by one.
-/

namespace Ns3Cosim.Gateway

open Words Execution

variable {D : Delimiters} {ok : State → Label → Prop}

/-- Every timestamp is later than those before it. -/
def Increasing (us : List (ℤ × List Str)) : Prop := us.Pairwise fun a b => a.1 < b.1

instance (us : List (ℤ × List Str)) : Decidable (Increasing us) :=
  inferInstanceAs (Decidable (us.Pairwise _))

theorem Increasing.neverDecreasing {us : List (ℤ × List Str)} (h : Increasing us) :
    NeverDecreasing us := h.imp fun hlt => hlt.le

theorem Increasing.of_isPrefix {us vs : List (ℤ × List Str)} (h : Increasing vs) (hu : us <+: vs) :
    Increasing us := h.sublist hu.sublist

/-- The later one of two updates is due later. -/
def DueAfter (a b : Callback) : Prop := a.name = .doUpdate → a.time < b.time

theorem Increasing.expectedLog {us : List (ℤ × List Str)} (h : Increasing us) (t₀ : ℤ) :
    (Gateway.expectedLog t₀ us).Pairwise DueAfter := by
  cases us with
  | nil => exact List.Pairwise.nil
  | cons first rest =>
      obtain ⟨-, hrest⟩ := List.pairwise_cons.mp h
      rw [Gateway.expectedLog]
      apply List.pairwise_cons.mpr
      constructor
      · intro b _ hname
        cases hname
      · apply List.pairwise_map.mpr
        exact hrest.imp fun hlt _ => Int.sub_lt_sub_right hlt _

/-- `m_eventWait` refers to every pending wait, and a wait and an update are never both pending. -/
structure Exclusive (sim : Simulator Kind) (eventWait : EventId) : Prop where
  tracks : sim.Tracks eventWait (· = .waitForNextUpdate)
  alone : sim.Quiet (· = .waitForNextUpdate) ∨ sim.Quiet (·.isHandleUpdate = true)

/-- `Exclusive` of the main thread's side. -/
def Core.Exclusive (c : Core) : Prop := Gateway.Exclusive c.sim c.eventWait

namespace Exclusive

variable {sim sim' : Simulator Kind} {eventWait : EventId} {e : Event Kind}

theorem schedule (h : Exclusive sim eventWait) (delay : ℕ) {kind : Kind}
    (hwait : kind ≠ .waitForNextUpdate) (hupdate : kind.isHandleUpdate = false) :
    Exclusive (sim.schedule delay kind) eventWait where
  tracks := h.tracks.schedule_other hwait
  alone := by
    obtain hquiet | hquiet := h.alone
    · exact Or.inl (hquiet.schedule_other hwait)
    · exact Or.inr (hquiet.schedule_other (by simp [hupdate]))

theorem cancel (h : Exclusive sim eventWait) : Exclusive (sim.cancel eventWait) eventWait where
  tracks := h.tracks.cancel
  alone := Or.inl h.tracks.cancel_quiet

theorem advance (h : Exclusive sim eventWait) (hn : sim.next? = some (e, sim')) :
    Exclusive sim' eventWait where
  tracks := h.tracks.next hn
  alone := h.alone.imp (fun hquiet => hquiet.next hn) fun hquiet => hquiet.next hn

/-- A wait that is scheduled when neither a wait nor an update is pending. -/
theorem scheduleWait (hwait : sim.Quiet (· = .waitForNextUpdate))
    (hupdate : sim.Quiet (·.isHandleUpdate = true)) :
    Exclusive (sim.scheduleNow .waitForNextUpdate) (some sim.nextUid) where
  tracks := Simulator.Tracks.schedule hwait rfl
  alone := Or.inr (hupdate.schedule_other (by simp [Kind.isHandleUpdate]))

/-- An update that is scheduled once the wait has been cancelled. -/
theorem grant (h : Exclusive sim eventWait) (delay : ℕ) (data : List Str) :
    Exclusive ((sim.cancel eventWait).schedule delay (.handleUpdate data)) eventWait where
  tracks := h.tracks.cancel.schedule_other (by simp)
  alone := Or.inl (h.tracks.cancel_quiet.schedule_other (by simp))

end Exclusive

namespace Core.Exclusive

variable {c : Core} {e : Event Kind} {sim : Simulator Kind}

theorem cancelEvents (h : c.Exclusive) : c.cancelEvents.Exclusive := by
  rw [c.cancelEvents_eq]
  exact h.cancel

theorem user (h : c.Exclusive) (hc : c.state ≠ .created) (action : UserAction) :
    (c.user D action).Exclusive := by
  refine Core.user_cases c action ?_ ?_ ?_ ?_ ?_
  · exact fun delay => h.schedule delay (by simp) rfl
  · exact h
  · exact fun _ => h
  · exact fun _ _ => h
  · intro outcome
    rw [Core.connect_of_ne hc]
    exact h

/-- The wait that runs was the only one, and no update is pending. -/
theorem waitForNextUpdate (h : c.Exclusive) (hn : c.sim.next? = some (e, sim))
    (hk : e.kind = .waitForNextUpdate) : (c.advance sim).waitForNextUpdate.Exclusive := by
  have hquiet : sim.Quiet (· = .waitForNextUpdate) := h.tracks.next_quiet hn hk
  have hupdate : c.sim.Quiet (·.isHandleUpdate = true) := by
    obtain hwait | hupdate := h.alone
    · exact absurd hk (hwait e ((Simulator.mem_of_next? hn).mpr (Or.inl rfl)))
    · exact hupdate
  by_cases hs : (c.advance sim).state = .stopping
  · rw [Core.waitForNextUpdate_of_stopping hs]
    exact h.advance hn
  · rw [Core.waitForNextUpdate_of_ne hs]
    exact Gateway.Exclusive.scheduleWait hquiet.cancel (hupdate.next hn).cancel

theorem forwardUp (h : c.Exclusive) : (c.forwardUp D).Exclusive := by
  refine Core.forwardUp_cases fun c' hc' => ?_
  cases hc' with
  | empty | invalid | terminate => exact h
  | first => exact Gateway.Exclusive.schedule h 0 (by simp) rfl
  | update => exact Gateway.Exclusive.grant h _ _
  | past => exact Gateway.Exclusive.cancel h

/-- The update that runs was the last one, if it schedules a wait. -/
theorem handleUpdate (h : c.Exclusive) (hn : c.sim.next? = some (e, sim)) {data : List Str}
    (hk : e.kind = .handleUpdate data)
    (hlast : e.time = c.timePause → sim.Quiet (·.isHandleUpdate = true)) :
    ((c.advance sim).handleUpdate data).Exclusive := by
  have hwait : c.sim.Quiet (· = .waitForNextUpdate) := by
    obtain hwait | hupdate := h.alone
    · exact hwait
    · exact absurd (by simp [hk, Kind.isHandleUpdate])
        (hupdate e ((Simulator.mem_of_next? hn).mpr (Or.inl rfl)))
  have hnow := (Simulator.next?_eq_some hn).2.1
  unfold Core.handleUpdate
  split
  · rename_i hpause
    have hquiet := hlast (hnow.symm.trans hpause)
    exact Gateway.Exclusive.scheduleWait (hwait.next hn) hquiet
  · exact Gateway.Exclusive.advance h hn

end Core.Exclusive

variable {s s' : State} {l : Label}

theorem State.stop_exclusive (h : s.core.Exclusive) (destroying : Bool) :
    (s.stop destroying).core.Exclusive := by
  refine State.stop_cases s destroying ?_ ?_ ?_
  · exact fun _ _ => h
  · exact Core.Exclusive.cancelEvents (c := Core.close _) h
  · exact Core.Exclusive.cancelEvents (c := { s.core with state := .stopping }) h

theorem Core.Exclusive.step (h : s.core.Exclusive) (hinv : Handoff s)
    (hlast : ∀ e sim, s.core.sim.next? = some (e, sim) → e.kind.isHandleUpdate = true →
      e.time = s.core.timePause → sim.Quiet (·.isHandleUpdate = true))
    (hstep : step D s l = some s') : s'.core.Exclusive := by
  cases Step.of_step hstep with
  | server | silent | push | scheduleForwardUp | scheduleStop | resume | drained => exact h
  | user => exact h.user hinv.constructed _
  | insert _ hin =>
      obtain rfl | rfl := hinv.kinds _ (hin ▸ List.mem_cons_self)
      · exact Gateway.Exclusive.schedule h 0 (by simp) rfl
      · exact Gateway.Exclusive.schedule h 0 (by simp) rfl
  | wait _ _ hn hk => exact h.waitForNextUpdate hn hk
  | forwardUp _ _ hn => exact Core.Exclusive.forwardUp (Gateway.Exclusive.advance h hn)
  | stop _ _ hn =>
      have hadvance := Gateway.Exclusive.advance h hn
      exact State.stop_exclusive (s := { s with core := s.core.advance _ }) hadvance false
  | doInitialize _ _ hn | unrelated _ _ hn => exact Gateway.Exclusive.advance h hn
  | handleUpdate _ _ hn hk =>
      exact h.handleUpdate hn hk (hlast _ _ hn (by simp [hk, Kind.isHandleUpdate]))
  | join => exact Core.Exclusive.cancelEvents (c := s.core.join.close) h
  | destroy =>
      refine State.destroy_cases s ?_ ?_
      · intro _
        exact State.stop_exclusive (s := { s with core.eventDestroy := false }) h true
      · exact fun _ => h

namespace Occurs

variable {t₀ : ℤ}

/-- Behind an update that is due at the granted time no other one is pending. -/
theorem quiet_of_pause (h : Occurs D ok t₀ s) (ht : 0 ≤ t₀) (hf : s.core.fatal = none)
    (hinc : Increasing (updates D (cut D.delimiterMessage s.conn.sent).1)) {e : Event Kind}
    {sim : Simulator Kind} (hn : s.core.sim.next? = some (e, sim))
    (hk : e.kind.isHandleUpdate = true) (hpause : e.time = s.core.timePause) :
    sim.Quiet (·.isHandleUpdate = true) := by
  have hord := hinc.neverDecreasing
  have hbook := (h.inOrder hord).ledger ht
  have hincreasing : Increasing (updates D s.core.accepted) :=
    hinc.of_isPrefix (updates_isPrefix h.accepted_isPrefix)
  have hdue := hincreasing.expectedLog t₀
  rw [← hbook.balanced, Core.callbacks, pendingCallbacks_next hn] at hdue
  have hdue := (List.pairwise_append.mp (List.pairwise_append.mp hdue).2.1).2.2
  have hcallback : ∀ a : Event Kind, a.kind.isHandleUpdate = true →
      ∃ data, callback? a = some ⟨.doUpdate, data, a.time⟩ := by
    intro a ha
    cases hak : a.kind with
    | handleUpdate data => exact ⟨data, by simp [callback?, hak]⟩
    | waitForNextUpdate | forwardUp | stop | doInitialize | unrelated =>
        simp [hak, Kind.isHandleUpdate] at ha
  intro a ha hka
  obtain ⟨data, hcb⟩ := hcallback e hk
  obtain ⟨data', hcb'⟩ := hcallback a hka
  have hlt : e.time < a.time :=
    hdue ⟨.doUpdate, data, e.time⟩ (by simp [hcb]) ⟨.doUpdate, data', a.time⟩
      (List.mem_filterMap.mpr ⟨a, ha, hcb'⟩) rfl
  have hpending : a ∈ s.core.sim.queue := (Simulator.mem_of_next? hn).mpr (Or.inr ha)
  have hle : a.time ≤ s.core.timePause :=
    hbook.bounded hf _ (List.mem_filterMap.mpr ⟨a, hpending, hcb'⟩) rfl
  omega

theorem exclusive (h : Occurs D ok t₀ s) (ht : 0 ≤ t₀)
    (hinc : Increasing (updates D (cut D.delimiterMessage s.conn.sent).1)) : s.core.Exclusive := by
  revert hinc
  refine h.induct (P := fun s => Increasing (updates D (cut D.delimiterMessage s.conn.sent).1) →
    s.core.Exclusive) (fun sim outbound hsim _ _ => ?_) fun s l s' hs ih _ hstep hinc => ?_
  · have hquiet : sim.Quiet (· = .waitForNextUpdate) := fun e he => by simp [hsim e he]
    have hupdate : sim.Quiet (·.isHandleUpdate = true) := fun e he => by
      simp [hsim e he, Kind.isHandleUpdate]
    exact Gateway.Exclusive.scheduleWait hquiet hupdate
  · have hold := hinc.of_isPrefix
      (updates_isPrefix (cut_isPrefix D.message_ne (sent_isPrefix hstep)))
    refine (ih hold).step hs.handoff (fun e sim hn hk hpause => ?_) hstep
    exact hs.quiet_of_pause ht (step_eq_some hstep).1 hold hn hk hpause

end Occurs

/-- A server whose timestamps increase never finds its gateway frozen: `m_eventWait` refers to every
wait that is pending, there is at most one, and none while an update waits for its time. -/
theorem update_never_held_back (t₀ : ℕ) (h : Occurs D always t₀ s)
    (hinc : Increasing (updates D (cut D.delimiterMessage s.conn.sent).1)) :
    (∀ w ∈ s.core.sim.queue, w.kind = .waitForNextUpdate → s.core.eventWait = some w.uid) ∧
      (∀ v ∈ s.core.sim.queue, ∀ w ∈ s.core.sim.queue, v.kind = .waitForNextUpdate →
        w.kind = .waitForNextUpdate → v = w) ∧
      ((∃ e ∈ s.core.sim.queue, e.kind.isHandleUpdate = true) →
        ∀ w ∈ s.core.sim.queue, w.kind ≠ .waitForNextUpdate) := by
  have hexclusive := h.exclusive (Int.natCast_nonneg t₀) hinc
  refine ⟨fun w hw hk => (hexclusive.tracks.names w hw).mp hk, ?_, ?_⟩
  · exact fun v hv w hw hkv hkw => hexclusive.tracks.unique hv hw hkv hkw
  · rintro ⟨e, he, hk⟩
    obtain hwait | hupdate := hexclusive.alone
    · exact hwait
    · exact absurd hk (hupdate e he)

theorem update_never_held_back_grantedRun :
    ∃ s, State.after defaultDelimiters always 0 1 Label.grantedRun = some s ∧
      (∃ e ∈ s.core.sim.queue, e.kind.isHandleUpdate = true) ∧
      ∀ w ∈ s.core.sim.queue, w.kind ≠ .waitForNextUpdate := by
  have hrun : (State.after defaultDelimiters always 0 1 Label.grantedRun).any (fun s =>
      (∃ e ∈ s.core.sim.queue, e.kind.isHandleUpdate = true) ∧
      Increasing (updates defaultDelimiters
        (cut defaultDelimiters.delimiterMessage s.conn.sent).1)) := by
    decide +kernel
  obtain ⟨s, hs, hp⟩ := (Option.any_eq_true _ _).mp hrun
  obtain ⟨hupdate, hinc⟩ := of_decide_eq_true hp
  exact ⟨s, hs, hupdate, (update_never_held_back 0 (.of_after hs) hinc).2.2 hupdate⟩

end Ns3Cosim.Gateway
