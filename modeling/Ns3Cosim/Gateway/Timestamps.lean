import Ns3Cosim.Gateway.CallbackLog

/-!
# Which timestamps are rejected, and when the updates run

`ForwardUp` compares a timestamp with `Simulator::Now()`. The README promises
times relative to the moment of `Connect`, and the error speaks of values that
do not increase; the two coincide with the test of the code only for a gateway
connected at time 0, and only where no granted time is lowered.
-/

namespace Ns3Cosim.Gateway

open Words Execution

variable {D : Delimiters} {ok : State → Label → Prop} {t₀ : ℤ} {s s' : State} {l : Label}

/-- `ForwardUp` raises the error exactly for a later update in the past. -/
theorem Core.forwardUp_rejects {c : Core} (hf : c.fatal = none) :
    (c.forwardUp D).fatal = some .timestampsNotIncreasing ↔
      ∃ message ∈ c.messageQueue.head?, ∃ u, update? D message = some u ∧ 0 ≤ c.timeStart ∧
        u.1 - c.timeStart < c.sim.now := by
  refine Core.forwardUp_cases (P := fun c' => c'.fatal = some .timestampsNotIncreasing ↔ _)
    fun c' hc' => ?_
  have hhead : ∀ {message messages}, c.messageQueue = message :: messages →
      ∀ m, m ∈ c.messageQueue.head? ↔ m = message := by
    intro message messages hq m
    simp [hq, eq_comm]
  cases hc' with
  | empty hq => simp [Core.fail, hq]
  | @invalid message _ _ hq hr =>
      have hu : update? D message = none := by simp only [update?, hr]
      simp [Core.fail, readMessage_error hr, hhead hq, hu]
  | terminate hq hr hneg => simp [Core.pop, hf, hhead hq, update?_of_neg hr hneg]
  | first hq hr hpos hstart => simp [Core.pop, hf, hhead hq, not_le.mpr hstart]
  | update hq hr hpos hstart hle =>
      simp [Core.pop, hf, hhead hq, update?_of_nonneg hr hpos, not_lt.mpr hle]
  | past hq hr hpos hstart hlt =>
      simp [hhead hq, update?_of_nonneg hr hpos, hstart, hlt]

/-- User code raises neither of the errors of `ForwardUp` about a message. -/
theorem Core.user_fatal {c : Core} (hf : c.fatal = none) (action : UserAction) :
    (c.user D action).fatal ≠ some .invalidHeader ∧
      (c.user D action).fatal ≠ some .timestampsNotIncreasing := by
  refine Core.user_cases (P := fun c' => c'.fatal ≠ some .invalidHeader ∧
    c'.fatal ≠ some .timestampsNotIncreasing) c action ?_ ?_ ?_ ?_ ?_
  · simp [hf]
  · simp [hf]
  · simp [hf]
  · intro e he
    constructor
    · exact fun heq => he (Or.inr (Or.inl (Option.some.inj heq)))
    · exact fun heq => he (Or.inr (Or.inr (Option.some.inj heq)))
  · intro outcome
    unfold Core.connect
    split
    · simp [Core.fail]
    · split <;> simp [Core.fail, Core.scheduleWait, hf]

/-- A step raises the error exactly when it takes a later update in the past. -/
theorem rejects_iff (hstep : step D s l = some s') :
    s'.core.fatal = some .timestampsNotIncreasing ↔
      ∃ u now, s.Takes D l u now ∧ 0 ≤ s.core.timeStart ∧ u.1 - s.core.timeStart < now := by
  have hf := (step_eq_some hstep).1
  have hquiet : ∀ {P : Prop}, s'.core.fatal = none ∨ s'.core.fatal = s.core.fatal → ¬ P →
      (s'.core.fatal = some .timestampsNotIncreasing ↔ P) := by
    rintro P (hs' | hs') hP
    · simp [hs', hP]
    · simp [hs', hf, hP]
  have hno : ∀ {e : Event Kind} {sim : Simulator Kind}, s.core.sim.next? = some (e, sim) →
      e.kind ≠ .forwardUp →
      ¬ ∃ u now, s.Takes D .event u now ∧ 0 ≤ s.core.timeStart ∧ u.1 - s.core.timeStart < now := by
    rintro e sim hn hk ⟨u, now, ⟨-, e', sim', hn', hk', -⟩, -⟩
    cases hn.symm.trans hn'
    exact hk hk'
  have hlabel : l ≠ .event →
      ¬ ∃ u now, s.Takes D l u now ∧ 0 ≤ s.core.timeStart ∧ u.1 - s.core.timeStart < now := by
    rintro hl ⟨u, now, ⟨rfl, -⟩, -⟩
    exact hl rfl
  cases Step.of_step hstep with
  | server | silent | push | scheduleForwardUp | scheduleStop | resume | insert | drained =>
      exact hquiet (Or.inr rfl) (hlabel (by simp))
  | user =>
      exact iff_of_false (Core.user_fatal hf _).2 (hlabel (by simp))
  | @wait e sim _ _ hn hk =>
      refine hquiet (Or.inr ?_) (hno hn (by simp [hk]))
      by_cases hs : (s.core.advance sim).state = .stopping
      · rw [Core.waitForNextUpdate_of_stopping hs]
        rfl
      · rw [Core.waitForNextUpdate_of_ne hs]
        rfl
  | @forwardUp e sim _ _ hn hk =>
      rw [Core.forwardUp_rejects (c := s.core.advance sim) hf]
      have hnow : sim.now = e.time := (Simulator.next?_eq_some hn).2.1
      constructor
      · rintro ⟨message, hm, u, hu, hstart, hlt⟩
        exact ⟨u, e.time, ⟨rfl, e, sim, hn, hk, rfl, message, hm, hu⟩, hstart, hnow ▸ hlt⟩
      · rintro ⟨u, now, ⟨-, e', sim', hn', -, rfl, message, hm, hu⟩, hstart, hlt⟩
        cases hn.symm.trans hn'
        exact ⟨message, hm, u, hu, hstart, hnow.symm ▸ hlt⟩
  | @stop e sim _ _ hn hk =>
      exact hquiet (Or.inr (State.stop_frame _ _).fatal) (hno hn (by simp [hk]))
  | doInitialize _ _ hn hk => exact hquiet (Or.inr rfl) (hno hn (by simp [hk]))
  | @handleUpdate e sim data _ _ hn hk =>
      refine hquiet (Or.inr ?_) (hno hn (by simp [hk]))
      simp only [Core.handleUpdate]
      split <;> rfl
  | unrelated _ _ hn hk => exact hquiet (Or.inr rfl) (hno hn (by simp [hk]))
  | join =>
      refine hquiet (Or.inr ?_) (hlabel (by simp))
      rw [State.joined, Core.cancelEvents_eq]
      rfl
  | destroy => exact hquiet (Or.inr s.destroy_frame.fatal) (hlabel (by simp))

theorem Occurs.now_le_of_takes (h : Occurs D ok t₀ s) (hstep : step D s l = some s')
    {u : ℤ × List Str} {now : ℤ} (htakes : s.Takes D l u now) :
    now ≤ max t₀ s.core.timePause := by
  obtain ⟨rfl, e, sim, hn, hk, rfl, -⟩ := htakes
  exact h.forwardUp_le (loop_of_event hstep).1 (step_eq_some hstep).1 hn hk

/-- What a fatal error of `ForwardUp` says about the messages taken. -/
def Core.Failed (D : Delimiters) (c : Core) : Prop :=
  c.Clock D ∧
    (c.fatal = some .invalidHeader → updates D c.processed.dropLast = updates D c.processed) ∧
    (c.fatal = some .timestampsNotIncreasing → 2 ≤ (updates D c.processed).length)

namespace Core.Failed

variable {c : Core}

theorem forwardUp (h : c.Failed D) (hf : c.fatal = none) : (c.forwardUp D).Failed D := by
  have hclock := h.1.forwardUp
  obtain ⟨c', hc', hcases⟩ : ∃ c', c.forwardUp D = c' ∧ c.Forwarded D c' := ⟨_, rfl, c.forwarded D⟩
  rw [hc'] at hclock ⊢
  refine ⟨hclock, ?_⟩
  cases hcases with
  | empty => simp [Core.fail]
  | @invalid message _ _ hq hr =>
      have hu : update? D message = none := by simp only [update?, hr]
      simp [Core.fail, Core.pop, readMessage_error hr, updates_append, hu]
  | terminate | first | update => simp [Core.pop, hf]
  | past hq hr hpos hstart =>
      have hsome : updates D c.processed ≠ [] :=
        fun hnil => not_lt.mpr hstart (h.1.neg_iff.mpr hnil)
      have hlen := List.length_pos_iff.mpr hsome
      simp only [Core.pop, updates_append, update?_of_nonneg hr hpos, reduceCtorEq,
        Option.some.injEq, false_implies, Option.toList_some, List.length_append,
        List.length_singleton, forall_const, true_and]
      omega

end Core.Failed

theorem failed_preserved : Preserved D (Core.Failed D) where
  push _ _ h := h
  insert _ _ h := h
  user c action h hf := by
    obtain ⟨hheader, htime⟩ := Core.user_fatal (D := D) hf action
    exact ⟨h.1.user action, fun hf => absurd hf hheader, fun hf => absurd hf htime⟩
  wait c e sim h hn _ := by
    have hadvance : (c.advance sim).Failed D := h
    by_cases hs : (c.advance sim).state = .stopping
    · rw [Core.waitForNextUpdate_of_stopping hs]
      exact hadvance
    · rw [Core.waitForNextUpdate_of_ne hs]
      exact hadvance
  forwardUp c e sim h hf _ _ := Core.Failed.forwardUp (c := c.advance sim) h hf
  doInitialize _ _ _ _ h _ _ := h
  handleUpdate c e sim data h _ _ := by
    simp only [Core.handleUpdate]
    split <;> exact h
  leave _ _ _ h _ _ := h
  halt _ h := h
  join _ h := h
  close _ h := h
  destroyTaken _ h := h
  cancelEvents c _ h := by
    rw [c.cancelEvents_eq]
    exact h

theorem Occurs.failed (h : Occurs D ok t₀ s) : s.core.Failed D :=
  h.preserved failed_preserved fun _ _ _ _ => ⟨⟨rfl, rfl⟩, by simp [State.connected, Core.connect,
    Core.construct, Core.scheduleWait]⟩

/-- A gateway connected at time 0 rejects no stream whose timestamps never decrease. -/
theorem Occurs.not_rejected (h : Occurs D ok 0 s)
    (hord : NeverDecreasing (updates D (cut D.delimiterMessage s.conn.sent).1)) :
    s.core.fatal ≠ some .timestampsNotIncreasing := by
  revert hord
  refine h.induct (P := fun s => NeverDecreasing (updates D (cut D.delimiterMessage
    s.conn.sent).1) → s.core.fatal ≠ some .timestampsNotIncreasing) (fun sim outbound _ _ _ => ?_)
    fun s l s' hs _ _ hstep hord hrejected => ?_
  · simp [State.connected, Core.connect, Core.construct, Core.scheduleWait]
  · have hbefore := hord.of_isPrefix
      (updates_isPrefix (cut_isPrefix D.message_ne (sent_isPrefix hstep)))
    obtain ⟨u, now, htakes, hstart, hlt⟩ := (rejects_iff hstep).mp hrejected
    have hpause := hs.pause_le hbefore htakes
    have hfirst := hs.start_le hbefore htakes
    have hnow := hs.now_le_of_takes hstep htakes
    have hle : max 0 s.core.timePause ≤ u.1 - s.core.timeStart :=
      max_le (Int.sub_nonneg_of_le hfirst) hpause
    exact absurd (hnow.trans hle) (not_le.mpr hlt)

/-- The law of the README: no timestamp is rejected, and the update of message `i` is due at `t₀`
plus the distance of its timestamp from the first one. -/
structure Relative (D : Delimiters) (t₀ : ℤ) (s : State) : Prop where
  notRejected : s.core.fatal ≠ some .timestampsNotIncreasing
  shifted : ∀ (i : ℕ) (first u : ℤ × List Str) (c : Callback), 1 ≤ i →
    (updates D s.core.accepted)[0]? = some first → (updates D s.core.accepted)[i]? = some u →
    (s.core.log ++ pendingCallbacks s.core.sim)[i]? = some c → c.time = t₀ + (u.1 - first.1)

/-- The expected time of an update leaves the time of `Connect` out. -/
theorem expectedLog_getElem? {us : List (ℤ × List Str)} {first u : ℤ × List Str} {i : ℕ}
    (t₀ : ℤ) (hi : 1 ≤ i) (hfirst : us[0]? = some first) (hu : us[i]? = some u) :
    (expectedLog t₀ us)[i]? = some ⟨.doUpdate, u.2, u.1 - first.1⟩ := by
  cases us with
  | nil => simp at hfirst
  | cons v us =>
      obtain ⟨j, rfl⟩ : ∃ j, i = j + 1 := ⟨i - 1, by omega⟩
      simp only [List.getElem?_cons_zero, Option.some.injEq] at hfirst
      simp only [List.getElem?_cons_succ] at hu
      subst hfirst
      simp [expectedLog, hu]

/-- On a stream of never decreasing timestamps the law of the README holds exactly while the
gateway was connected at time 0 or has taken no second update. -/
theorem relative_iff (t₀ : ℕ) (h : Occurs D always t₀ s)
    (hord : NeverDecreasing (updates D (cut D.delimiterMessage s.conn.sent).1)) :
    Relative D t₀ s ↔ t₀ = 0 ∨ (updates D s.core.processed).length ≤ 1 := by
  have hbook : s.core.log ++ pendingCallbacks s.core.sim =
      expectedLog t₀ (updates D s.core.accepted) :=
    ((h.inOrder hord).ledger (Int.natCast_nonneg t₀)).balanced
  obtain ⟨-, hheader, htime⟩ := h.failed
  have hle : (updates D s.core.accepted).length ≤ (updates D s.core.processed).length :=
    (updates_isPrefix s.core.accepted_isPrefix).length_le
  constructor
  · intro hrel
    by_contra hcon
    obtain ⟨ht, hlen⟩ := not_or.mp hcon
    have haccepted : updates D s.core.accepted = updates D s.core.processed := by
      unfold Core.accepted
      split
      · rename_i hf
        exact hheader (hf.resolve_right hrel.notRejected)
      · rfl
    have hlen : 2 ≤ (updates D s.core.accepted).length := by
      rw [haccepted]
      omega
    obtain ⟨first, hfirst⟩ : ∃ first, (updates D s.core.accepted)[0]? = some first :=
      ⟨_, List.getElem?_eq_getElem (by omega)⟩
    obtain ⟨u, hu⟩ : ∃ u, (updates D s.core.accepted)[1]? = some u :=
      ⟨_, List.getElem?_eq_getElem (by omega)⟩
    have hlog := expectedLog_getElem? (t₀ : ℤ) le_rfl hfirst hu
    have hshift := hrel.shifted 1 first u _ le_rfl hfirst hu (hbook ▸ hlog)
    simp only at hshift
    omega
  · intro hcond
    refine ⟨fun hf => ?_, fun i first u c hi hfirst hu hc => ?_⟩
    · obtain rfl | hlen := hcond
      · exact h.not_rejected hord hf
      · have := htime hf
        omega
    · have hlog := expectedLog_getElem? (t₀ : ℤ) hi hfirst hu
      rw [hbook, hlog] at hc
      obtain rfl | hlen := hcond
      · cases hc
        simp
      · have hlt := (List.getElem?_eq_some_iff.mp hu).1
        omega

theorem relative_iff_grantedRun :
    ∃ s, State.after defaultDelimiters always (5 : ℕ) 1 Label.grantedRun = some s ∧
      (Relative defaultDelimiters (5 : ℕ) s ↔
        5 = 0 ∨ (updates defaultDelimiters s.core.processed).length ≤ 1) := by
  have hrun : (State.after defaultDelimiters always (5 : ℕ) 1 Label.grantedRun).any (fun s =>
      NeverDecreasing (updates defaultDelimiters
        (cut defaultDelimiters.delimiterMessage s.conn.sent).1)) := by
    decide +kernel
  obtain ⟨s, hs, hp⟩ := (Option.any_eq_true _ _).mp hrun
  exact ⟨s, hs, relative_iff 5 (.of_after hs) (of_decide_eq_true hp)⟩

/-- The case of the README: connected at 5 s, the messages `10 0` and `11 0`. -/
def readmeRun : List Label :=
  [.server (.send ['1', '0', ' ', '0', '\r', '\n', '1', '1', ' ', '0', '\r', '\n'])] ++
    Label.receive 12 ++ Label.received ++
    [.resume, .drain, .drain, .drain, .event, .drain, .event, .drain, .event]

/-- The update that the README has run at 6 s ends the program: the code compares 1 s with 5 s. -/
theorem rejected_readmeRun :
    ∃ s, State.after defaultDelimiters always ((5000000000 : ℕ) : ℤ) 1 readmeRun = some s ∧
      updates defaultDelimiters (cut defaultDelimiters.delimiterMessage s.conn.sent).1 =
        [(10 * nanosecondsPerSecond, []), (11 * nanosecondsPerSecond, [])] ∧
      s.core.fatal = some .timestampsNotIncreasing := by
  have hrun : (State.after defaultDelimiters always ((5000000000 : ℕ) : ℤ) 1 readmeRun).any
      (fun s => updates defaultDelimiters
        (cut defaultDelimiters.delimiterMessage s.conn.sent).1 =
          [(10 * nanosecondsPerSecond, []), (11 * nanosecondsPerSecond, [])] ∧
        s.core.fatal = some .timestampsNotIncreasing) := by
    decide +kernel
  obtain ⟨s, hs, hp⟩ := (Option.any_eq_true _ _).mp hrun
  exact ⟨s, hs, of_decide_eq_true hp⟩

/-- The granted time changes with a later update only. -/
theorem Occurs.timePause_step (h : Occurs D ok t₀ s) (hstep : step D s l = some s')
    (hs' : Occurs D ok t₀ s') :
    s'.core.timePause = s.core.timePause ∨ ∃ u now, s.Takes D l u now ∧ 0 ≤ s.core.timeStart ∧
      s'.core.timePause = u.1 - s.core.timeStart := by
  by_cases hx : s.Executes l .forwardUp
  · obtain ⟨message, hmessage, hprocessed⟩ := h.handoff.executes_forwardUp hstep hx
    have hhead : message ∈ s.core.messageQueue.head? := by
      rw [← h.handoff.history, List.getElem?_append_right le_rfl, Nat.sub_self] at hmessage
      rw [List.head?_eq_getElem?]
      exact hmessage
    have hpause := hs'.clock.2
    rw [hprocessed, updates_append] at hpause
    cases hu : update? D message with
    | none =>
        left
        rw [hpause, h.clock.2, hu, Option.toList_none, List.append_nil]
    | some u =>
        rw [hu, Option.toList_some] at hpause
        by_cases hnil : updates D s.core.processed = []
        · left
          rw [hpause, h.clock.2, hnil, List.nil_append, pauseOf_singleton]
          rfl
        · right
          obtain ⟨rfl, e, sim, hn, hk⟩ := hx
          refine ⟨u, e.time, ⟨rfl, e, sim, hn, hk, rfl, message, hhead, hu⟩, ?_, ?_⟩
          · exact not_lt.mp fun hneg => hnil (h.clock.neg_iff.mp hneg)
          · rw [hpause, pauseOf_append hnil, ← h.clock.1]
  · left
    rw [hs'.clock.2, h.clock.2, h.handoff.processed_eq hstep hx]

/-- While nothing has been rejected, the granted time is not negative. -/
theorem Occurs.timePause_nonneg (h : Occurs D ok 0 s)
    (hf : s.core.fatal ≠ some .timestampsNotIncreasing) : 0 ≤ s.core.timePause := by
  revert hf
  refine (h.mono fun _ _ _ => trivial).induct
    (P := fun s => s.core.fatal ≠ some .timestampsNotIncreasing → 0 ≤ s.core.timePause)
    (fun _ _ _ _ _ => le_rfl) fun s l s' hs ih hok hstep hf => ?_
  have hnone := (step_eq_some hstep).1
  obtain hpause | ⟨u, now, htakes, hstart, hpause⟩ := hs.timePause_step hstep (hs.next hok hstep)
  · rw [hpause]
    exact ih (by simp [hnone])
  · rw [hpause]
    have hnow : now ≤ u.1 - s.core.timeStart := by
      by_contra hlt
      exact hf ((rejects_iff hstep).mpr ⟨u, now, htakes, hstart, not_le.mp hlt⟩)
    obtain ⟨-, e, sim, hn, -, rfl, -⟩ := htakes
    exact (hs.paced.start_le.trans (Simulator.now_le_of_next? hn)).trans hnow

/-- A gateway connected at time 0 rejects an update exactly for being older than the one before,
if and only if the step is in order. The first update is not rejected. In a run whose steps are all
in order the updates run in the order of their arrival, and a step that rejects nothing does not
lower the granted time. -/
theorem rejected_iff_decreasing (h : Occurs D always 0 s) :
    (∀ l s' u now prev, step D s l = some s' → s.Takes D l u now →
      (updates D s.core.processed).getLast? = some prev →
      (InOrder D s l ↔ (s'.core.fatal = some .timestampsNotIncreasing ↔ u.1 < prev.1))) ∧
    (∀ l s', step D s l = some s' → updates D s.core.processed = [] →
      s'.core.fatal ≠ some .timestampsNotIncreasing) ∧
    (Occurs D (InOrder D) 0 s →
      s.core.log ++ pendingCallbacks s.core.sim = expectedLog 0 (updates D s.core.accepted) ∧
      ∀ l s', step D s l = some s' → InOrder D s l →
        s'.core.fatal ≠ some .timestampsNotIncreasing →
        s.core.timePause ≤ s'.core.timePause) := by
  refine ⟨fun l s' u now prev hstep htakes hprev => ?_, fun l s' hstep hnil hf => ?_,
    fun hin => ⟨(hin.ledger le_rfl).balanced, fun l s' hstep hok hf => ?_⟩⟩
  · have hne : updates D s.core.processed ≠ [] := by
      rintro hnil
      simp [hnil] at hprev
    have hstart : 0 ≤ s.core.timeStart :=
      not_lt.mp fun hneg => hne (h.clock.neg_iff.mp hneg)
    have hpause : s.core.timePause = prev.1 - s.core.timeStart := by
      rw [h.clock.2, h.clock.1]
      simp only [pauseOf, hprev]
    have hnow : now ≤ s.core.timePause := by
      have hle := h.now_le_of_takes hstep htakes
      rwa [max_eq_right (h.timePause_nonneg (by simp [(step_eq_some hstep).1]))] at hle
    have hrejects : s'.core.fatal = some .timestampsNotIncreasing ↔
        u.1 - s.core.timeStart < now := by
      rw [rejects_iff hstep]
      constructor
      · rintro ⟨v, time, hv, -, hlt⟩
        obtain ⟨rfl, rfl⟩ := htakes.eq hv
        exact hlt
      · intro hlt
        exact ⟨u, now, htakes, hstart, hlt⟩
    have hinOrder : InOrder D s l ↔
        (now ≤ u.1 - s.core.timeStart → s.core.timePause ≤ u.1 - s.core.timeStart) := by
      rw [inOrder_iff]
      constructor
      · intro hall
        exact hall u now htakes
      · intro hu v time hv
        obtain ⟨rfl, rfl⟩ := htakes.eq hv
        exact hu
    rw [hinOrder, hrejects]
    omega
  · obtain ⟨u, now, -, hstart, -⟩ := (rejects_iff hstep).mp hf
    exact absurd (h.clock.neg_iff.mpr hnil) (not_lt.mpr hstart)
  · rcases h.timePause_step hstep (h.next trivial hstep) with hpause |
      ⟨u, now, htakes, hstart, hpause⟩
    · rw [hpause]
    · rw [hpause]
      apply inOrder_iff.mp hok u now htakes
      by_contra hlt
      exact hf ((rejects_iff hstep).mpr ⟨u, now, htakes, hstart, not_le.mp hlt⟩)

theorem rejected_iff_decreasing_grantedRun :
    ∃ s, State.after defaultDelimiters (InOrder defaultDelimiters) 0 1 Label.grantedRun = some s ∧
      s.core.timePause = 6 * nanosecondsPerSecond ∧
      s.core.log ++ pendingCallbacks s.core.sim =
        expectedLog 0 (updates defaultDelimiters s.core.accepted) ∧
      ∀ l s', step defaultDelimiters s l = some s' → InOrder defaultDelimiters s l →
        s'.core.fatal ≠ some .timestampsNotIncreasing →
        s.core.timePause ≤ s'.core.timePause := by
  have hrun : (State.after defaultDelimiters (InOrder defaultDelimiters) 0 1
      Label.grantedRun).any (fun s => s.core.timePause = 6 * nanosecondsPerSecond) := by
    decide +kernel
  obtain ⟨s, hs, hp⟩ := (Option.any_eq_true _ _).mp hrun
  have h := Occurs.of_after hs
  exact ⟨s, hs, of_decide_eq_true hp,
    (rejected_iff_decreasing (h.mono fun _ _ _ => trivial)).2.2 h⟩

/-- Four messages, the third of them older than the second, that are all taken at time 0. -/
def olderRun : List Label :=
  [.server (.send ['0', ' ', '0', '\r', '\n', '1', '0', ' ', '0', ' ', 'a', '\r', '\n',
    '5', ' ', '0', ' ', 'b', '\r', '\n', '2', '0', ' ', '0', ' ', 'c', '\r', '\n'])] ++
    Label.receive 28 ++ Label.received ++ Label.received ++ Label.received ++
    [.resume, .drain, .drain, .drain, .drain, .drain, .event, .drain, .event, .drain, .event,
      .drain, .event, .drain, .event, .drain, .event, .resume, .drain, .event, .resume, .drain,
      .event]

/-- The older timestamp is accepted, and the update of the message before it runs after its own. -/
theorem accepted_olderRun :
    ∃ s, State.after defaultDelimiters always 0 1 olderRun = some s ∧
      updates defaultDelimiters s.core.processed =
        [(0, []), (10 * nanosecondsPerSecond, [['a']]), (5 * nanosecondsPerSecond, [['b']]),
          (20 * nanosecondsPerSecond, [['c']])] ∧
      s.core.fatal = none ∧
      s.core.log = [⟨.doInitialize, [], 0⟩, ⟨.doUpdate, [['b']], 5 * nanosecondsPerSecond⟩,
        ⟨.doUpdate, [['a']], 10 * nanosecondsPerSecond⟩] := by
  have hrun : (State.after defaultDelimiters always 0 1 olderRun).any (fun s =>
      updates defaultDelimiters s.core.processed =
        [(0, []), (10 * nanosecondsPerSecond, [['a']]), (5 * nanosecondsPerSecond, [['b']]),
          (20 * nanosecondsPerSecond, [['c']])] ∧
      s.core.fatal = none ∧
      s.core.log = [⟨.doInitialize, [], 0⟩, ⟨.doUpdate, [['b']], 5 * nanosecondsPerSecond⟩,
        ⟨.doUpdate, [['a']], 10 * nanosecondsPerSecond⟩]) := by
    decide +kernel
  obtain ⟨s, hs, hp⟩ := (Option.any_eq_true _ _).mp hrun
  exact ⟨s, hs, of_decide_eq_true hp⟩

end Ns3Cosim.Gateway
