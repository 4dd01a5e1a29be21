import Ns3Cosim.Gateway.Callbacks

/-!
# The callbacks of a run are those that the messages call for

`expectedLog` is the log that a list of updates calls for, without any queue,
thread or event. While the granted time never goes back, the callbacks that ran
and those that are pending are together the expected log of the messages taken;
so every log is a beginning of one and the same list.
-/

namespace Ns3Cosim.Gateway

open Words Execution

variable {D : Delimiters}

/-- The callbacks that a gateway connected at `t₀` owes for these updates. -/
def expectedLog (t₀ : ℤ) : List (ℤ × List Str) → List Callback
  | [] => []
  | first :: rest =>
      ⟨.doInitialize, first.2, t₀⟩ :: rest.map fun u => ⟨.doUpdate, u.2, u.1 - first.1⟩

/-- A `ForwardUp` that takes an update not before `Now()` does not lower the granted time. -/
def InOrder (D : Delimiters) (s : State) : Label → Prop
  | .event => ∀ p ∈ s.core.sim.next?, p.1.kind = .forwardUp → ∀ message ∈ s.core.messageQueue.head?,
      ∀ u ∈ update? D message, p.1.time ≤ u.1 - s.core.timeStart →
        s.core.timePause ≤ u.1 - s.core.timeStart
  | _ => True

instance (s : State) (l : Label) : Decidable (InOrder D s l) :=
  match l with
  | .event => by unfold InOrder; infer_instance
  | .server _ | .reader _ | .user _ | .resume | .drain | .join | .destroy => .isTrue trivial

/-- The step executes, at the time `now`, a `ForwardUp` whose message carries the update `u`. -/
def State.Takes (D : Delimiters) (s : State) (l : Label) (u : ℤ × List Str) (now : ℤ) : Prop :=
  l = .event ∧ ∃ e sim, s.core.sim.next? = some (e, sim) ∧ e.kind = .forwardUp ∧ e.time = now ∧
    ∃ message ∈ s.core.messageQueue.head?, update? D message = some u

theorem State.Takes.eq {s : State} {l : Label} {u u' : ℤ × List Str} {now now' : ℤ}
    (h : s.Takes D l u now) (h' : s.Takes D l u' now') : u = u' ∧ now = now' := by
  obtain ⟨-, e, sim, hn, -, rfl, message, hm, hu⟩ := h
  obtain ⟨-, e', sim', hn', -, rfl, message', hm', hu'⟩ := h'
  cases hn.symm.trans hn'
  cases (Option.mem_def.mp hm).symm.trans (Option.mem_def.mp hm')
  exact ⟨Option.some.inj (hu.symm.trans hu'), rfl⟩

theorem inOrder_iff {s : State} {l : Label} : InOrder D s l ↔ ∀ u now, s.Takes D l u now →
    now ≤ u.1 - s.core.timeStart → s.core.timePause ≤ u.1 - s.core.timeStart := by
  constructor
  · rintro h u now ⟨rfl, e, sim, hn, hk, rfl, message, hm, hu⟩ hle
    exact h (e, sim) (Option.mem_def.mpr hn) hk message hm u (Option.mem_def.mpr hu) hle
  · intro h
    cases l with
    | event =>
        intro p hp hk message hm u hu hle
        exact h u p.1.time ⟨rfl, p.1, p.2, hp, hk, rfl, message, hm, hu⟩ hle
    | server | reader | user | resume | drain | join | destroy => exact trivial

theorem expectedLog_append {us : List (ℤ × List Str)} (t₀ : ℤ) (hne : us ≠ [])
    (u : ℤ × List Str) :
    expectedLog t₀ (us ++ [u]) = expectedLog t₀ us ++ [⟨.doUpdate, u.2, u.1 - startOf us⟩] := by
  cases us with
  | nil => exact absurd rfl hne
  | cons first rest => simp [expectedLog, startOf]

theorem expectedLog_isPrefix {us vs : List (ℤ × List Str)} (t₀ : ℤ) (h : us <+: vs) :
    expectedLog t₀ us <+: expectedLog t₀ vs := by
  obtain ⟨rest, rfl⟩ := h
  cases us with
  | nil => exact List.nil_prefix
  | cons first us =>
      simp only [List.cons_append, expectedLog, List.map_append]
      exact List.prefix_append _ _

/-- The books of the callbacks: those that ran and those that are pending are what the accepted
messages call for, and no update is pending later than the granted time. -/
structure Core.Ledger (D : Delimiters) (t₀ : ℤ) (c : Core) : Prop where
  balanced : c.callbacks = expectedLog t₀ (updates D c.accepted)
  bounded : c.fatal = none → ∀ callback ∈ pendingCallbacks c.sim, callback.name = .doUpdate →
    callback.time ≤ c.timePause

namespace Core.Ledger

variable {t₀ : ℤ} {c c' : Core} {e : Event Kind} {sim : Simulator Kind}

theorem carries (h : c.Ledger D t₀) (hf : c.fatal = none) (hc : c.Carries c') : c'.Ledger D t₀ where
  balanced := by
    rw [hc.callbacks, hc.accepted hf]
    exact h.balanced
  bounded := by
    intro _ callback hcb hname
    rw [hc.timePause]
    exact h.bounded hf callback (hc.pending hcb) hname

/-- A callback that is due after all pending ones comes last. -/
theorem callbacks_schedule (c : Core) (delay : ℕ) (kind : Kind) {callback : Callback}
    (hcb : callback? ⟨c.sim.now + delay, c.sim.nextUid, kind⟩ = some callback)
    (hlast : ∀ e ∈ c.sim.queue, callback? e ≠ none → e.time ≤ c.sim.now + delay) :
    Core.callbacks { c with sim := c.sim.schedule delay kind } = c.callbacks ++ [callback] := by
  have hnew : pendingCallbacks (c.sim.schedule delay kind) =
      pendingCallbacks c.sim ++ (some callback).toList := by
    rw [← hcb]
    exact Simulator.filterMap_schedule callback? c.sim delay kind hlast
  simp only [Core.callbacks, hnew, Option.toList_some, List.append_assoc]

/-- The first message of a gateway: its callback is due now. -/
theorem first (h : c.Ledger D t₀) (hf : c.fatal = none) (hnow : c.sim.now = t₀) {message : Str}
    {timestamp : ℤ} {values : List Str} (hu : update? D message = some (timestamp, values))
    (hnil : updates D c.processed = []) (hf' : c'.fatal = none)
    (hprocessed : c'.processed = c.processed ++ [message]) (hlog : c'.log = c.log)
    (hsim : c'.sim = c.sim.scheduleNow (.doInitialize values)) : c'.Ledger D t₀ := by
  have hbook := h.balanced
  rw [Core.accepted_of_none hf, hnil] at hbook
  obtain ⟨hempty, hpending⟩ := List.append_eq_nil_iff.mp hbook
  have hvisible := pendingCallbacks_eq_nil_iff.mp hpending
  have hnew := callbacks_schedule c 0 (.doInitialize values) rfl
    fun e he hne => absurd (hvisible e he) hne
  simp only [Core.callbacks] at hnew
  refine ⟨?_, fun _ callback hcb hname => ?_⟩
  · rw [Core.callbacks, hlog, hsim, Simulator.scheduleNow, hnew, Core.accepted_of_none hf',
      hprocessed, updates_append, hnil, hu, hempty, hpending]
    simp [expectedLog, hnow]
  · rw [hsim, Simulator.scheduleNow] at hcb
    rw [hempty, hpending, List.nil_append, List.nil_append, List.nil_append] at hnew
    rw [hnew, List.mem_singleton] at hcb
    rw [hcb] at hname
    cases hname

/-- A later message: its callback is due after all pending ones. -/
theorem grant (h : c.Ledger D t₀) (hh : c.Handled) (hf : c.fatal = none) {message : Str}
    {timestamp : ℤ} {values : List Str} (hu : update? D message = some (timestamp, values))
    (hne : updates D c.processed ≠ []) (hstart : c.timeStart = startOf (updates D c.processed))
    (hnow : c.sim.now ≤ timestamp - c.timeStart) (hpause : c.timePause ≤ timestamp - c.timeStart)
    (hf' : c'.fatal = none) (hprocessed : c'.processed = c.processed ++ [message])
    (hlog : c'.log = c.log) (hpause' : c'.timePause = timestamp - c.timeStart)
    (hsim : c'.sim = (c.sim.cancel c.eventWait).schedule
      (timestamp - c.timeStart - c.sim.now).toNat (.handleUpdate values)) : c'.Ledger D t₀ := by
  have hcancel := (Core.SameBooks.cancel hh).carries
  have htime : c.sim.now + ((timestamp - c.timeStart - c.sim.now).toNat : ℤ) =
      timestamp - c.timeStart := by
    rw [Int.toNat_of_nonneg (by omega)]
    omega
  have hnew := callbacks_schedule { c with sim := c.sim.cancel c.eventWait }
    (timestamp - c.timeStart - c.sim.now).toNat (.handleUpdate values) rfl
    fun e he hvisible => by
      have hmem := (Simulator.mem_cancel.mp he).1
      simp only [Simulator.cancel_now, htime]
      cases hk : e.kind with
      | handleUpdate data =>
          have hcb : callback? e = some ⟨.doUpdate, data, e.time⟩ := by simp only [callback?, hk]
          exact (h.bounded hf _ (List.mem_filterMap.mpr ⟨e, hmem, hcb⟩) rfl).trans hpause
      | doInitialize data =>
          have himmediate := Handles.immediate hh e hmem (by simp [hk, Kind.Immediate])
          rw [himmediate]
          exact hnow
      | waitForNextUpdate | forwardUp | stop | unrelated => simp [callback?, hk] at hvisible
  simp only [Core.callbacks, Simulator.cancel_now, htime] at hnew
  have hcallbacks : c'.callbacks = c.callbacks ++ [⟨.doUpdate, values, timestamp - c.timeStart⟩] := by
    rw [Core.callbacks, hlog, hsim, hnew, ← hcancel.callbacks]
    rfl
  refine ⟨?_, fun _ callback hcb hname => ?_⟩
  · have hbook := h.balanced
    rw [Core.accepted_of_none hf] at hbook
    rw [hcallbacks, hbook, Core.accepted_of_none hf', hprocessed, updates_append, hu,
      Option.toList_some, expectedLog_append t₀ hne, hstart]
  · rw [hsim] at hcb
    rw [hpause']
    obtain ⟨e, he, hcb⟩ := List.mem_filterMap.mp hcb
    obtain rfl | he := Simulator.mem_schedule.mp he
    · cases hcb
      exact htime.le
    · have hpending := List.mem_filterMap.mpr ⟨e, (Simulator.mem_cancel.mp he).1, hcb⟩
      exact (h.bounded hf callback hpending hname).trans hpause

/-- A message whose `ForwardUp` fails is not entered. -/
theorem reject (h : c.Ledger D t₀) (hf : c.fatal = none) {message : Str}
    (hprocessed : c'.processed = c.processed ++ [message])
    (hf' : c'.fatal = some .invalidHeader ∨ c'.fatal = some .timestampsNotIncreasing)
    (hcallbacks : c'.callbacks = c.callbacks) : c'.Ledger D t₀ where
  balanced := by
    rw [hcallbacks, Core.accepted_of_fatal hprocessed hf', ← Core.accepted_of_none hf]
    exact h.balanced
  bounded := by
    intro hnone
    rw [hnone] at hf'
    simp at hf'

/-- `ForwardUp` enters a message into the books, unless it fails. -/
theorem forwardUp (h : c.Ledger D t₀) (hh : c.Handled) (hclock : c.Clock D) (hf : c.fatal = none)
    (hn : c.sim.next? = some (e, sim)) (hk : e.kind = .forwardUp) (hne : c.messageQueue ≠ [])
    (hnow : updates D c.processed = [] → sim.now = t₀)
    (horder : ∀ message ∈ c.messageQueue.head?, ∀ u ∈ update? D message,
      sim.now ≤ u.1 - c.timeStart → c.timePause ≤ u.1 - c.timeStart) :
    ((c.advance sim).forwardUp D).Ledger D t₀ := by
  have hbook := h.carries hf (Core.SameBooks.advance hn (by simp [callback?, hk])).carries
  have hhandled := hh.advance hn
  refine Core.forwardUp_cases fun c' hc' => ?_
  cases hc' with
  | empty hq => exact absurd hq hne
  | @invalid message messages error hq hr =>
      have hfatal : error = .invalidHeader := readMessage_error hr
      exact hbook.reject hf rfl (Or.inl (congrArg some hfatal)) rfl
  | @terminate message messages timestamp values hq hr hneg =>
      refine ⟨?_, hbook.bounded⟩
      have hbalanced := hbook.balanced
      rw [Core.accepted_of_none (by exact hf)] at hbalanced ⊢
      simp only [Core.pop, updates_append, update?_of_neg hr hneg, Option.toList_none,
        List.append_nil]
      exact hbalanced
  | @first message messages timestamp values hq hr hpos hstart =>
      have hnil := hclock.neg_iff.mp hstart
      exact hbook.first hf (hnow hnil) (update?_of_nonneg hr hpos) hnil hf rfl rfl rfl
  | @update message messages timestamp values hq hr hpos hstart hle =>
      have hupdate := update?_of_nonneg hr hpos
      have hsome : updates D c.processed ≠ [] :=
        fun hnil => not_lt.mpr hstart (hclock.neg_iff.mpr hnil)
      have hhead : message ∈ c.messageQueue.head? := by
        have hq : c.messageQueue = message :: messages := hq
        rw [hq]
        rfl
      have hpause := horder message hhead (timestamp, values) hupdate hle
      exact hbook.grant hhandled hf hupdate hsome hclock.1 hle hpause hf rfl rfl rfl rfl
  | @past message messages timestamp values hq hr hpos hstart hlt =>
      refine hbook.reject hf rfl (Or.inr rfl) ?_
      exact (Core.SameBooks.cancel hhandled).carries.callbacks

variable {ok : State → Label → Prop} {s s' : State} {l : Label}

theorem step (h : s.core.Ledger D t₀) (hs : Occurs D ok t₀ s) (ht : 0 ≤ t₀) (hok : InOrder D s l)
    (hstep : Gateway.step D s l = some s') : s'.core.Ledger D t₀ := by
  have hf := (step_eq_some hstep).1
  have hinv := hs.handoff
  by_cases hx : s.Executes l .forwardUp
  · obtain ⟨rfl, e, sim, hn, hk⟩ := hx
    have hm := (loop_of_event hstep).1
    obtain ⟨message, messages, hq, -⟩ := hinv.take hn hk
    rw [eq_execute_of_event hstep hn, hk]
    refine h.forwardUp hinv.handled hs.clock hf hn hk (by simp [hq]) (fun hnil => ?_)
      fun message hhead u hu hle => ?_
    · exact hs.now_eq_of_first ht (hinv.connected_of_forwardUp hm hn hk) hf hn hnil
    · rw [(Simulator.next?_eq_some hn).2.1] at hle
      exact hok _ (Option.mem_def.mpr hn) hk message hhead u hu hle
  · exact h.carries hf (hinv.carries hstep hx)

end Core.Ledger

variable {t₀ : ℤ} {s : State}

/-- Right after `Connect` there is no callback. -/
theorem State.connected_callbacks {sim : Simulator Kind}
    (hsim : ∀ e ∈ sim.queue, e.kind = .unrelated) (outbound : Outbound) :
    (State.connected sim outbound).core.callbacks = [] := by
  refine pendingCallbacks_eq_nil_iff.mpr fun e he => ?_
  obtain rfl | he := Simulator.mem_scheduleNow.mp he
  · rfl
  · simp [callback?, hsim e he]

theorem Occurs.ledger (h : Occurs D (InOrder D) t₀ s) (ht : 0 ≤ t₀) : s.core.Ledger D t₀ := by
  refine h.induct (P := fun s => s.core.Ledger D t₀) (fun sim outbound hsim _ => ?_)
    fun _ _ _ hs hinv hok hstep => hinv.step hs ht hok hstep
  have hnone := State.connected_callbacks hsim outbound
  refine ⟨hnone, fun _ callback hcb => ?_⟩
  have hpending : pendingCallbacks (State.connected sim outbound).core.sim = [] := hnone
  rw [hpending] at hcb
  cases hcb

end Ns3Cosim.Gateway
