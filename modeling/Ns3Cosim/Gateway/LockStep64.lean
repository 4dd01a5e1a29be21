import Ns3Cosim.Gateway.Refinement64

/-!
# Lock-step execution with 64-bit times

Where the distance of a timestamp from the reference time and the current time
leaves 64 bits, `timeDelta` wraps to a positive value: `ForwardUp` finds no error
and cancels the wait, and the granted time is passed. Where no distance does, the
system keeps to the granted time.
-/

namespace Ns3Cosim.Gateway

open Execution

variable {D : Delimiters}

/-- The step is not a `ForwardUp` that takes an update whose distance from the reference time and
from the current time does not fit 64 bits. -/
def DeltaFits (D : Delimiters) (s : State) : Label → Prop
  | .event => ∀ p ∈ s.core.sim.next?, p.1.kind = .forwardUp →
      ∀ message ∈ s.core.messageQueue.head?, ∀ u ∈ update64? D message,
        0 ≤ s.core.timeStart → InInt64 (u.1 - s.core.timeStart - p.1.time)
  | _ => True

instance (s : State) (l : Label) : Decidable (DeltaFits D s l) :=
  match l with
  | .event => by unfold DeltaFits; infer_instance
  | .server _ | .reader _ | .user _ | .resume | .drain | .join | .destroy => .isTrue trivial

/-- A step that executes no `ForwardUp` sets neither the reference time nor the granted time. -/
theorem times_of_step {s s' : State} {l : Label} (hstep : step D s l = some s')
    (hx : ¬ s.Executes l .forwardUp) :
    s'.core.timeStart = s.core.timeStart ∧ s'.core.timePause = s.core.timePause := by
  have hstop : ∀ (s : State) (destroying : Bool),
      (s.stop destroying).core.timeStart = s.core.timeStart ∧
        (s.stop destroying).core.timePause = s.core.timePause := by
    intro s destroying
    refine State.stop_cases s destroying ?_ ?_ ?_
    · exact fun _ _ => ⟨rfl, rfl⟩
    · rw [Core.cancelEvents_eq]
      exact ⟨rfl, rfl⟩
    · rw [Core.cancelEvents_eq]
      exact ⟨rfl, rfl⟩
  cases Step.of_step hstep with
  | server | silent | push | scheduleForwardUp | scheduleStop | resume | insert | drained =>
      exact ⟨rfl, rfl⟩
  | doInitialize | unrelated => exact ⟨rfl, rfl⟩
  | forwardUp _ _ hn hk => exact absurd ((State.executes_iff hn).mpr hk) hx
  | user =>
      refine Core.user_cases (P := fun c => c.timeStart = s.core.timeStart ∧
        c.timePause = s.core.timePause) _ _ ?_ ?_ ?_ ?_ ?_
      · exact fun _ => ⟨rfl, rfl⟩
      · exact ⟨rfl, rfl⟩
      · exact fun _ => ⟨rfl, rfl⟩
      · exact fun _ _ => ⟨rfl, rfl⟩
      · intro outcome
        unfold Core.connect
        split
        · exact ⟨rfl, rfl⟩
        · split <;> exact ⟨rfl, rfl⟩
  | @wait e sim =>
      by_cases hs : (s.core.advance sim).state = .stopping
      · rw [Core.waitForNextUpdate_of_stopping hs]
        exact ⟨rfl, rfl⟩
      · rw [Core.waitForNextUpdate_of_ne hs]
        exact ⟨rfl, rfl⟩
  | handleUpdate =>
      simp only [Core.handleUpdate]
      split <;> exact ⟨rfl, rfl⟩
  | stop => exact hstop { s with core := s.core.advance _ } false
  | join =>
      simp only [State.joined, Core.cancelEvents_eq]
      exact ⟨rfl, rfl⟩
  | destroy =>
      refine State.destroy_cases s ?_ ?_
      · intro _
        exact hstop { s with core.eventDestroy := false } true
      · intro _
        exact ⟨rfl, rfl⟩

/-- `Core.Paced` with members that are 64 bits wide. -/
structure Core.Paced64 (t₀ : ℤ) (c : Core) : Prop where
  paced : c.Paced t₀
  timeStart : InInt64 c.timeStart
  timePause : InInt64 c.timePause

namespace Core.Paced64

variable {t₀ : ℤ} {c : Core} {e : Event Kind} {sim : Simulator Kind}

theorem fail (h : c.Paced64 t₀) (error : FatalError) : (c.fail error).Paced64 t₀ where
  paced := h.paced.fail error
  timeStart := h.timeStart
  timePause := h.timePause

/-- An update whose distance fits is granted, or found to be in the past, as without bounds. -/
theorem process64 (h : c.Paced64 t₀) {timestamp : ℤ} (ht : InInt64 timestamp) (values : List Str)
    (hfits : 0 ≤ timestamp → 0 ≤ c.timeStart → InInt64 (timestamp - c.timeStart - c.sim.now)) :
    (c.process64 timestamp values).Paced64 t₀ := by
  unfold Core.process64
  split
  · exact ⟨h.paced, h.timeStart, h.timePause⟩
  · rename_i hneg
    split
    · exact ⟨⟨h.paced.handles.scheduleNow _, h.paced.start_le, h.paced.constructed,
        fun hc hf => (h.paced.blocked hc hf).schedule _ _⟩, ht, h.timePause⟩
    · rename_i hstart
      have hdelta := hfits (not_lt.mp hneg) (not_lt.mp hstart)
      have hpause : InInt64 (timestamp - c.timeStart) := by
        have hset := h.timeStart
        simp only [InInt64] at ht hset ⊢
        omega
      rw [Core.grant64_of_inInt64 values hpause hdelta]
      have hpaced := h.paced.grant timestamp values
      obtain hle | hlt := le_or_gt c.sim.now (timestamp - c.timeStart)
      · rw [Core.grant_of_le values hle] at hpaced ⊢
        exact ⟨hpaced, h.timeStart, hpause⟩
      · rw [Core.grant_of_lt values hlt] at hpaced ⊢
        exact ⟨hpaced, h.timeStart, hpause⟩

theorem forwardUp64 (h : c.Paced64 t₀)
    (hfits : ∀ message ∈ c.messageQueue.head?, ∀ u ∈ update64? D message,
      0 ≤ c.timeStart → InInt64 (u.1 - c.timeStart - c.sim.now)) :
    (c.forwardUp64 D).Paced64 t₀ := by
  unfold Core.forwardUp64
  split
  · exact h.fail _
  · rename_i message messages hq
    have hpop : (c.pop message messages).Paced64 t₀ := ⟨h.paced, h.timeStart, h.timePause⟩
    split
    · exact hpop.fail _
    · rename_i timestamp values hr
      refine hpop.process64 (readMessage64_inInt64 hr) values fun hpos hstart => ?_
      exact hfits message (by rw [hq]; rfl) (timestamp, values) (update64?_of_nonneg hr hpos) hstart

/-- `HandleUpdate` recognizes the granted time, which is 64 bits wide. -/
theorem handleUpdate64 (h : c.Paced64 t₀) (hn : c.sim.next? = some (e, sim)) {data : List Str}
    (hk : e.kind = .handleUpdate data) : ((c.advance sim).handleUpdate64 data).Paced64 t₀ := by
  have hnow := (Simulator.next?_eq_some hn).2.1
  simp only [Core.handleUpdate64]
  split
  · exact ⟨h.paced.scheduleWait hn, h.timeStart, h.timePause⟩
  · rename_i hne
    refine ⟨h.paced.advance hn (by simp [hk]) fun _ _ ht => hne ?_, h.timeStart, h.timePause⟩
    rw [Core.now64, Core.advance, hnow, ht]
    exact wrap64_of_inInt64 h.timePause

end Core.Paced64

/-- The invariant of a run with 64-bit times. -/
structure Paced64 (t₀ : ℤ) (s : State) : Prop where
  core : s.core.Paced64 t₀
  joins : JoinsStopping s

theorem Paced64.step {t₀ : ℤ} {s s' : State} {l : Label} (h : Paced64 t₀ s) (hok : DeltaFits D s l)
    (hstep : step64 D s l = some s') : Paced64 t₀ s' := by
  obtain ⟨hcore, hjoins⟩ := h
  cases Step64.of_step64 hstep with
  | same hstep hforward _ =>
      obtain ⟨hstart, hpause⟩ := times_of_step hstep hforward
      exact ⟨⟨(paced_preserved t₀).step hjoins hcore.paced hstep, hstart ▸ hcore.timeStart,
        hpause ▸ hcore.timePause⟩, hjoins.step hstep⟩
  | @forwardUp e sim hm hs hn hk =>
      have hnow := (Simulator.next?_eq_some hn).2.1
      have hadvance : (s.core.advance sim).Paced64 t₀ :=
        ⟨hcore.paced.advance hn (by simp [hk]) fun _ hd => by simp [hk] at hd, hcore.timeStart,
          hcore.timePause⟩
      refine ⟨hadvance.forwardUp64 fun message hq u hu hset => ?_, fun b hb => by cases hb⟩
      have hdelta := hok (e, sim) hn hk message hq u hu hset
      rw [← hnow] at hdelta
      exact hdelta
  | handleUpdate hm hs hn hk =>
      exact ⟨hcore.handleUpdate64 hn hk, fun b hb => by cases hb⟩

theorem Occurs64.paced64 {t₀ : ℤ} {s : State} (h : Occurs64 D (DeltaFits D) t₀ s) :
    Paced64 t₀ s := by
  refine h.induct (P := Paced64 t₀) (fun sim outbound hsim ht _ => ?_)
    fun _ _ _ hs hok hstep => hs.step hok hstep
  refine ⟨⟨paced_connected hsim ht outbound, ?_, ?_⟩, fun b hb => by cases hb⟩
  · change InInt64 (-nanosecondsPerSecond)
    decide
  · change InInt64 0
    decide

/-- An update that is read has a header. -/
theorem update64?_eq_some {message : Str} {u : ℤ × List Str} (h : update64? D message = some u) :
    ∃ header, header? D message = some header ∧ u.1 = wrap64 (timeOf header) := by
  unfold update64? at h
  rw [readMessage64_eq, readMessage_eq] at h
  cases hh : header? D message with
  | none => simp [hh, Except.map] at h
  | some header =>
      simp only [hh, Except.map] at h
      split at h
      · cases h
      · cases h
        exact ⟨header, rfl, rfl⟩

/-- With documented headers every step meets the condition. -/
theorem Occurs.deltaFits {t₀ : ℤ} {s s' : State} {l : Label} (h : Occurs D always t₀ s)
    (ht : 0 ≤ t₀) (ht' : t₀ ≤ 2 ^ 62) (hn : ∀ message ∈ s.pushed, NanosecondsRange D message)
    (hstep : step D s l = some s') : DeltaFits D s l := by
  cases l with
  | event =>
      intro p hp hk message hq u hu _
      obtain ⟨e, sim⟩ := p
      obtain ⟨messages, hq⟩ := List.head?_eq_some_iff.mp hq
      have hpushed : message ∈ s.pushed := by
        rw [← h.handoff.history, hq]
        exact List.mem_append_right _ List.mem_cons_self
      obtain ⟨header, hh, hwrap⟩ := update64?_eq_some hu
      have htimes := h.computedTimes_inInt64 ht ht' hn (loop_of_event hstep).1
        (step_eq_some hstep).1 hp hk hpushed hh
      simp only [Core.computedTimes, List.forall_mem_cons] at htimes
      obtain ⟨-, -, htimestamp, -, hdelta, -⟩ := htimes
      rw [hwrap, wrap64_of_inInt64 htimestamp, ← (Simulator.next?_eq_some hp).2.1]
      exact hdelta
  | server | reader | user | resume | drain | join | destroy => exact trivial

theorem Occurs64.deltaFits {t₀ : ℤ} {s : State} (h : Occurs64 D always t₀ s) (ht : 0 ≤ t₀)
    (ht' : t₀ ≤ 2 ^ 62) (hn : ∀ message ∈ s.pushed, NanosecondsRange D message) :
    Occurs64 D (DeltaFits D) t₀ s := by
  obtain ⟨sim, outbound, hsim, hnow, hfits, hr⟩ := h
  refine ⟨sim, outbound, hsim, hnow, hfits, ?_⟩
  induction hr with
  | start => exact .start
  | @next s s' l hr _ hstep ih =>
      have hn : ∀ message ∈ s.pushed, NanosecondsRange D message :=
        fun message hmessage => hn message (pushed_subset_of_step64 hstep hmessage)
      have hs : Occurs D always t₀ s :=
        Occurs64.occurs ⟨sim, outbound, hsim, hnow, hfits, hr⟩ ht ht' hn
      have hstep' := hs.step64_eq ht ht' hn l ▸ hstep
      exact (ih hn).next (hs.deltaFits ht ht' hn hstep') hstep

/-- In a run in which no `ForwardUp` takes an update whose distance from the reference time and the
current time leaves 64 bits, simulation time is at most the time of `Connect` or the last time
granted by the server while the gateway is connected and no fatal error was raised, and so is every
event that runs next. Runs with documented headers are such runs. -/
theorem now_le_granted (D : Delimiters) (t₀ : ℤ) :
    (∀ s, Occurs64 D (DeltaFits D) t₀ s → s.core.state = .connected → s.core.fatal = none →
      s.core.now64 ≤ max t₀ s.core.timePause ∧
        ∀ e sim, s.core.sim.next? = some (e, sim) → e.time ≤ max t₀ s.core.timePause) ∧
    ∀ s, Occurs64 D always t₀ s → 0 ≤ t₀ → t₀ ≤ 2 ^ 62 →
      (∀ message ∈ s.pushed, NanosecondsRange D message) → Occurs64 D (DeltaFits D) t₀ s := by
  constructor
  · intro s hs hc hf
    have hfits : InInt64 t₀ := by
      obtain ⟨-, -, -, -, hfits, -⟩ := hs
      exact hfits
    have hpaced := hs.paced64.core
    obtain ⟨hnow, hnext⟩ := hpaced.paced.now_le hc hf
    have hlow := hpaced.paced.start_le
    have hpause := hpaced.timePause
    refine ⟨?_, hnext⟩
    rw [Core.now64, wrap64_of_inInt64]
    · exact hnow
    · simp only [InInt64] at hfits hpause ⊢
      omega
  · exact fun s hs ht ht' hn => hs.deltaFits ht ht' hn

theorem now_le_granted_grantedRun :
    (∃ s, State.after64 defaultDelimiters (DeltaFits defaultDelimiters) 5 1 Label.grantedRun =
        some s ∧
      s.core.timePause = 6 * nanosecondsPerSecond ∧
      s.core.now64 ≤ max 5 s.core.timePause ∧
      ∀ e sim, s.core.sim.next? = some (e, sim) → e.time ≤ max 5 s.core.timePause) ∧
    ∃ s, State.after64 defaultDelimiters always 5 1 Label.grantedRun = some s ∧
      Occurs64 defaultDelimiters (DeltaFits defaultDelimiters) 5 s := by
  obtain ⟨hgranted, hdocumented⟩ := now_le_granted defaultDelimiters 5
  constructor
  · have hrun : (State.after64 defaultDelimiters (DeltaFits defaultDelimiters) 5 1
        Label.grantedRun).any (fun s => s.core.timePause = 6 * nanosecondsPerSecond ∧
          s.core.state = .connected ∧ s.core.fatal = none) := by
      decide +kernel
    obtain ⟨s, hs, hp⟩ := (Option.any_eq_true _ _).mp hrun
    obtain ⟨hpause, hc, hf⟩ := of_decide_eq_true hp
    exact ⟨s, hs, hpause, hgranted s (.of_after64 (by decide) hs) hc hf⟩
  · have hrun : (State.after64 defaultDelimiters always 5 1 Label.grantedRun).any (fun s =>
        ∀ message ∈ s.pushed, NanosecondsRange defaultDelimiters message) := by
      decide +kernel
    obtain ⟨s, hs, hp⟩ := (Option.any_eq_true _ _).mp hrun
    exact ⟨s, hs, hdocumented s (.of_after64 (by decide) hs) (by decide) (by decide)
      (of_decide_eq_true hp)⟩

/-- A gateway is connected at 5 s, and an unrelated event is scheduled for 6 s. The reference time is
the last that 64 bits have, so the distance of the next timestamp, 0, leaves them. -/
def wrappedRun : List Label :=
  [.user (.schedule 1000000000),
    .server (.send ['0', ' ', '9', '2', '2', '3', '3', '7', '2', '0', '3', '6', '8', '5', '4', '7',
      '7', '5', '8', '0', '7', '\r', '\n', '0', ' ', '0', '\r', '\n'])] ++
    Label.receive 28 ++ Label.received ++
    [.resume, .drain, .drain, .drain, .event, .drain, .event, .drain, .event, .drain, .event,
      .resume, .drain, .event]

/-- The unrelated event runs at 6 s, although no time after 5 s was granted. -/
theorem granted_passed :
    ∃ s, State.after64 defaultDelimiters always (5 * nanosecondsPerSecond) 1 wrappedRun = some s ∧
      s.core.state = .connected ∧ s.core.fatal = none ∧ s.core.timePause = -(2 ^ 63 - 1) ∧
      s.core.now64 = 6 * nanosecondsPerSecond ∧
      ¬ s.core.now64 ≤ max (5 * nanosecondsPerSecond) s.core.timePause := by
  have hrun : (State.after64 defaultDelimiters always (5 * nanosecondsPerSecond) 1 wrappedRun).any
      (fun s => s.core.state = .connected ∧ s.core.fatal = none ∧
        s.core.timePause = -(2 ^ 63 - 1) ∧ s.core.now64 = 6 * nanosecondsPerSecond ∧
        ¬ s.core.now64 ≤ max (5 * nanosecondsPerSecond) s.core.timePause) := by
    decide +kernel
  obtain ⟨s, hs, hp⟩ := (Option.any_eq_true _ _).mp hrun
  exact ⟨s, hs, of_decide_eq_true hp⟩

end Ns3Cosim.Gateway
