import Ns3Cosim.Gateway.HandedData
import Ns3Cosim.Gateway.System64
import Ns3Cosim.Gateway.TimeRange

/-!
# Runs in which nothing wraps

With headers that are a signed and an unsigned 32-bit integer, and a gateway that
is connected in the first century of simulation time, every time fits 64 bits. A
run with 64-bit times is then a run without bounds, and keeps to what holds of
every such run.
-/

namespace Ns3Cosim.Gateway

open Execution

variable {D : Delimiters}

/-- `ForwardUp` computes with 64 bits what it computes without bounds if all its times fit. -/
theorem Core.forwardUp64_of_computedTimes {c : Core} {message : Str} {messages : List Str}
    (hq : c.messageQueue = message :: messages)
    (hfits : ∀ header, header? D message = some header →
      ∀ t ∈ c.computedTimes header, InInt64 t) : c.forwardUp64 D = c.forwardUp D := by
  have hread := readMessage_eq D message
  cases hh : header? D message with
  | none =>
      rw [hh] at hread
      simp only [Core.forwardUp64, Core.forwardUp, hq, readMessage64_eq, hread, Except.map]
  | some header =>
      rw [hh] at hread
      have htimes := hfits header hh
      simp only [Core.computedTimes, List.forall_mem_cons] at htimes
      obtain ⟨-, -, htimestamp, hpause, hdelta, -⟩ := htimes
      have hgrant := Core.grant64_of_inInt64 (c := c.pop message messages)
        ((splitMessage D message).drop 2) hpause hdelta
      simp only [Core.forwardUp64, Core.forwardUp, hq, readMessage64_eq, hread, Except.map,
        wrap64_of_inInt64 htimestamp, Core.process64, Core.process, hgrant]

/-- The `DoUpdate` of a message, run or pending, is at the distance of its timestamp from the
reference time. -/
def Core.OnTime (D : Delimiters) (c : Core) : Prop :=
  ∀ callback ∈ c.callbacks, callback.name = .doUpdate →
    ∃ u ∈ updates D c.processed, callback.time = u.1 - startOf (updates D c.processed)

namespace Core.OnTime

variable {c c' : Core}

theorem carries (h : c.OnTime D) (hc : c.Carries c') : c'.OnTime D := by
  intro callback hcallback hname
  rw [hc.callbacks] at hcallback
  rw [hc.processed]
  exact h callback hcallback hname

/-- A message that is taken leaves the times of the callbacks as they are. -/
theorem take (h : c.OnTime D) (message : Str) (hprocessed : c'.processed = c.processed ++ [message])
    (hcallbacks : ∀ callback ∈ c'.callbacks, callback.name = .doUpdate → callback ∈ c.callbacks ∨
      ∃ u ∈ update? D message, 0 ≤ c.timeStart ∧ callback.time = u.1 - c.timeStart)
    (hclock : c.Clock D) : c'.OnTime D := by
  intro callback hcallback hname
  rw [hprocessed, updates_append]
  obtain hold | ⟨u, hu, hstart, htime⟩ := hcallbacks callback hcallback hname
  · obtain ⟨u, hu, htime⟩ := h callback hold hname
    refine ⟨u, List.mem_append_left _ hu, ?_⟩
    rw [htime, startOf_append (List.ne_nil_of_mem hu)]
  · have hne : updates D c.processed ≠ [] :=
      fun hnil => not_lt.mpr hstart (hclock.neg_iff.mpr hnil)
    refine ⟨u, List.mem_append_right _ (Option.mem_toList.mpr hu), ?_⟩
    rw [htime, hclock.1, startOf_append hne]

theorem forwardUp (h : c.OnTime D) (hh : c.Handled) (hclock : c.Clock D)
    (hne : c.messageQueue ≠ []) : (c.forwardUp D).OnTime D := by
  refine Core.forwardUp_cases (P := Core.OnTime D) fun c' hc' => ?_
  cases hc' with
  | empty hq => exact absurd hq hne
  | invalid | terminate => exact h.take _ rfl (fun _ hcallback _ => Or.inl hcallback) hclock
  | @first message messages timestamp values hq hr hpos hstart =>
      refine h.take message rfl (fun callback hcallback hname => ?_) hclock
      have hperm : List.Perm (Core.callbacks { c.pop message messages with
            timeStart := timestamp, sim := c.sim.scheduleNow (.doInitialize values) })
          (c.callbacks ++ [⟨.doInitialize, values, c.sim.now + (0 : ℕ)⟩]) :=
        Core.callbacks_schedule rfl rfl rfl rfl
      obtain hold | hnew := List.mem_append.mp (hperm.mem_iff.mp hcallback)
      · exact Or.inl hold
      · rw [List.mem_singleton.mp hnew] at hname
        cases hname
  | @update message messages timestamp values hq hr hpos hstart hle =>
      refine h.take message rfl (fun callback hcallback _ => ?_) hclock
      have hperm : List.Perm (Core.callbacks { c.pop message messages with
            timePause := timestamp - c.timeStart,
            sim := (c.sim.cancel c.eventWait).schedule
              (timestamp - c.timeStart - c.sim.now).toNat (.handleUpdate values) })
          (c.callbacks ++ [⟨.doUpdate, values,
            c.sim.now + ((timestamp - c.timeStart - c.sim.now).toNat : ℤ)⟩]) :=
        Core.callbacks_schedule rfl rfl (pendingCallbacks_cancel hh) rfl
      obtain hold | hnew := List.mem_append.mp (hperm.mem_iff.mp hcallback)
      · exact Or.inl hold
      · rw [List.mem_singleton.mp hnew]
        refine Or.inr ⟨(timestamp, values), update?_of_nonneg hr hpos, hstart, ?_⟩
        dsimp only
        omega
  | past =>
      refine h.take _ rfl (fun callback hcallback _ => Or.inl ?_) hclock
      rw [Core.callbacks, ← pendingCallbacks_cancel hh]
      exact hcallback

end Core.OnTime

variable {t₀ : ℤ} {s s' : State} {l : Label}

theorem Occurs.onTime {ok : State → Label → Prop} (h : Occurs D ok t₀ s) : s.core.OnTime D := by
  refine h.induct (P := fun s => s.core.OnTime D) (fun sim outbound hsim _ => ?_) ?_
  · intro callback hcallback
    rw [State.connected_callbacks hsim outbound] at hcallback
    cases hcallback
  · intro s l s' hs htimes _ hstep
    by_cases hx : s.Executes l .forwardUp
    · obtain ⟨rfl, e, sim, hn, hk⟩ := hx
      obtain ⟨message, messages, hq, -⟩ := hs.handoff.take hn hk
      have hadvance := htimes.carries (Core.SameBooks.advance hn (by simp [callback?, hk])).carries
      rw [eq_execute_of_event hstep hn, hk]
      exact hadvance.forwardUp (hs.handoff.handled.advance hn) hs.clock (by simp [Core.advance, hq])
    · exact htimes.carries (hs.handoff.carries hstep hx)

/-- A `HandleUpdate` runs at a time that fits. -/
theorem Occurs.handleUpdate_inInt64 {ok : State → Label → Prop} (h : Occurs D ok t₀ s)
    (hn : ∀ message ∈ s.pushed, NanosecondsRange D message) {e : Event Kind} {sim : Simulator Kind}
    (hnext : s.core.sim.next? = some (e, sim)) {data : List Str}
    (hk : e.kind = .handleUpdate data) : InInt64 sim.now := by
  have hcallback : (⟨.doUpdate, data, e.time⟩ : Callback) ∈ s.core.callbacks := by
    refine List.mem_append_right _ (List.mem_filterMap.mpr ⟨e, ?_, ?_⟩)
    · exact (Simulator.mem_of_next? hnext).mpr (Or.inl rfl)
    · simp only [callback?, hk]
  obtain ⟨u, hu, htime⟩ := h.onTime _ hcallback rfl
  have htime : e.time = u.1 - startOf (updates D s.core.processed) := htime
  have hrange := sub_startOf_inRange (h.handoff.processed_subset hn) hu
  rw [(Simulator.next?_eq_some hnext).2.1, htime]
  simp only [InRange, timeBound, nanosecondsPerSecond, InInt64] at hrange ⊢
  omega

/-- A message that was pushed stays in the history. -/
theorem pushed_subset_of_step (hstep : step D s l = some s') : s.pushed ⊆ s'.pushed := by
  cases Step.of_step hstep with
  | push => exact List.subset_append_left _ _
  | stop =>
      rw [(State.stop_frame _ false).pushed]
      exact List.Subset.refl _
  | destroy =>
      rw [s.destroy_frame.pushed]
      exact List.Subset.refl _
  | server | silent | scheduleForwardUp | scheduleStop | user | resume | insert | drained | wait
    | forwardUp | doInitialize | handleUpdate | unrelated | join => exact List.Subset.refl _

theorem pushed_subset_of_step64 (hstep : step64 D s l = some s') : s.pushed ⊆ s'.pushed := by
  cases Step64.of_step64 hstep with
  | forwardUp | handleUpdate => exact List.Subset.refl _
  | same hstep => exact pushed_subset_of_step hstep

/-- With documented headers a step with 64-bit times is the step without bounds. -/
theorem Occurs.step64_eq (h : Occurs D always t₀ s) (ht : 0 ≤ t₀) (ht' : t₀ ≤ 2 ^ 62)
    (hn : ∀ message ∈ s.pushed, NanosecondsRange D message) (l : Label) :
    step64 D s l = step D s l := by
  unfold step64 step
  split
  · rename_i hf
    cases l with
    | server | reader | user | resume | drain | join | destroy => rfl
    | event =>
        simp only [State.act64, State.act]
        split
        · rename_i hg
          refine Option.map_congr fun p hp => ?_
          obtain ⟨e, sim⟩ := p
          cases hk : e.kind with
          | waitForNextUpdate | stop | doInitialize | unrelated => simp only [State.execute64]
          | handleUpdate data =>
              have hnow := h.handleUpdate_inInt64 hn hp hk
              simp only [State.execute64, State.execute,
                Core.handleUpdate64_of_inInt64 (c := s.core.advance sim) data hnow]
          | forwardUp =>
              obtain ⟨message, messages, hq, -⟩ := h.handoff.take hp hk
              have hpushed : message ∈ s.pushed := by
                rw [← h.handoff.history, hq]
                exact List.mem_append_right _ List.mem_cons_self
              have heq := Core.forwardUp64_of_computedTimes (c := s.core.advance sim) hq
                fun header hh => h.computedTimes_inInt64 ht ht' hn hg.1 hf hp hk hpushed hh
              simp only [State.execute64, State.execute, heq]
        · rfl
  · rfl

/-- With documented headers a run with 64-bit times is a run without bounds. -/
theorem Occurs64.occurs (h : Occurs64 D always t₀ s) (ht : 0 ≤ t₀) (ht' : t₀ ≤ 2 ^ 62)
    (hn : ∀ message ∈ s.pushed, NanosecondsRange D message) : Occurs D always t₀ s := by
  refine h.induct (P := fun s => (∀ message ∈ s.pushed, NanosecondsRange D message) →
    Occurs D always t₀ s) ?_ ?_ hn
  · intro sim outbound hsim hnow _ _
    exact ⟨sim, outbound, hsim, hnow, .start⟩
  · intro s l s' ih _ hstep hn'
    have hn : ∀ message ∈ s.pushed, NanosecondsRange D message :=
      fun message hmessage => hn' message (pushed_subset_of_step64 hstep hmessage)
    have hs := ih hn
    rw [hs.step64_eq ht ht' hn] at hstep
    exact hs.next trivial hstep

/-- A run without bounds is a run with 64-bit times, too. -/
theorem Occurs.occurs64 (h : Occurs D always t₀ s) (ht : 0 ≤ t₀) (ht' : t₀ ≤ 2 ^ 62)
    (hn : ∀ message ∈ s.pushed, NanosecondsRange D message) : Occurs64 D always t₀ s := by
  refine h.induct (P := fun s => (∀ message ∈ s.pushed, NanosecondsRange D message) →
    Occurs64 D always t₀ s) ?_ ?_ hn
  · intro sim outbound hsim hnow _
    exact ⟨sim, outbound, hsim, hnow, ⟨by omega, by omega⟩, .start⟩
  · intro s l s' hs ih _ hstep hn'
    have hn : ∀ message ∈ s.pushed, NanosecondsRange D message :=
      fun message hmessage => hn' message (pushed_subset_of_step hstep hmessage)
    obtain ⟨sim, outbound, hsim, hnow, hfits, hr⟩ := ih hn
    rw [← hs.step64_eq ht ht' hn] at hstep
    exact ⟨sim, outbound, hsim, hnow, hfits, hr.next trivial hstep⟩

/-- For headers that are a signed and an unsigned 32-bit integer, and a gateway that is connected at
a time below `2 ^ 62`, the states that occur in runs with 64-bit times are those that occur in runs
without bounds. -/
theorem occurs64_iff (ht : 0 ≤ t₀) (ht' : t₀ ≤ 2 ^ 62)
    (hn : ∀ message ∈ s.pushed, NanosecondsRange D message) :
    Occurs64 D always t₀ s ↔ Occurs D always t₀ s := by
  constructor
  · exact fun h => h.occurs ht ht' hn
  · exact fun h => h.occurs64 ht ht' hn

theorem occurs64_iff_grantedRun :
    ∃ s, State.after64 defaultDelimiters always 5 1 Label.grantedRun = some s ∧
      s.core.timePause = 6 * nanosecondsPerSecond ∧ Occurs defaultDelimiters always 5 s := by
  have hrun : (State.after64 defaultDelimiters always 5 1 Label.grantedRun).any (fun s =>
      s.core.timePause = 6 * nanosecondsPerSecond ∧
        ∀ message ∈ s.pushed, NanosecondsRange defaultDelimiters message) := by
    decide +kernel
  obtain ⟨s, hs, hp⟩ := (Option.any_eq_true _ _).mp hrun
  obtain ⟨hpause, hn⟩ := of_decide_eq_true hp
  have hoccurs : Occurs64 defaultDelimiters always 5 s := .of_after64 (by decide) hs
  exact ⟨s, hs, hpause, (occurs64_iff (by decide) (by decide) hn).mp hoccurs⟩

end Ns3Cosim.Gateway
