import Mathlib.Data.Prod.Lex
import Ns3Cosim.Gateway.Clock
import Ns3Cosim.Gateway.Int64

/-!
# The 64 bits of a time

A time is a signed 64-bit number of nanoseconds. With a normalised header, whose
nanoseconds are less than a second, `ForwardUp` never leaves this range: the
timestamps are bounded by the 32 bits of the seconds, and simulation time is
bounded by the time that the server has granted.
-/

namespace Ns3Cosim.Gateway

open Words Execution

variable {D : Delimiters}

/-- The two numbers of the header, when both can be read. -/
def header? (D : Delimiters) (message : Str) : Option (ℤ × ℤ) :=
  match splitMessage D message with
  | seconds :: nanoseconds :: _ =>
      match stoi seconds, stol nanoseconds with
      | some s, some ns => some (s, ns)
      | _, _ => none
  | _ => none

/-- `Seconds(s) + NanoSeconds(ns)`. -/
def timeOf (header : ℤ × ℤ) : ℤ := header.1 * nanosecondsPerSecond + header.2

/-- The nanoseconds of the header are less than a second. -/
def Normalized (D : Delimiters) (message : Str) : Prop :=
  ∀ header ∈ header? D message, 0 ≤ header.2 ∧ header.2 < nanosecondsPerSecond

instance (message : Str) : Decidable (Normalized D message) :=
  inferInstanceAs (Decidable (∀ header ∈ header? D message, _))

/-- The nanoseconds of the header are an unsigned 32-bit integer. -/
def NanosecondsRange (D : Delimiters) (message : Str) : Prop :=
  ∀ header ∈ header? D message, 0 ≤ header.2 ∧ header.2 < 2 ^ 32

instance (message : Str) : Decidable (NanosecondsRange D message) :=
  inferInstanceAs (Decidable (∀ header ∈ header? D message, _))

/-- The headers that can be read. -/
def headers (D : Delimiters) (messages : List Str) : List (ℤ × ℤ) := messages.filterMap (header? D)

/-- The time of the first header with seconds that are not negative; the initial value of
`m_timeStart` when there is none. -/
def firstTime (hs : List (ℤ × ℤ)) : ℤ :=
  match hs.find? fun header => 0 ≤ header.1 with
  | none => -nanosecondsPerSecond
  | some header => timeOf header

/-- The times that `ForwardUp` computes from a header, in the order of the source: the seconds, the
nanoseconds, the timestamp, `m_timePause`, `timeDelta` and the time of `HandleUpdate`. -/
def Core.computedTimes (c : Core) (header : ℤ × ℤ) : List ℤ :=
  let timePause := timeOf header - c.timeStart
  let timeDelta := timePause - c.sim.now
  [header.1 * nanosecondsPerSecond, header.2, timeOf header, timePause, timeDelta,
    c.sim.now + timeDelta]

section Headers

variable {message : Str} {header a b : ℤ × ℤ}

/-- A normalised time is negative exactly when its seconds are. -/
theorem timeOf_neg_iff (h : 0 ≤ header.2 ∧ header.2 < nanosecondsPerSecond) :
    timeOf header < 0 ↔ header.1 < 0 := by
  simp only [timeOf, nanosecondsPerSecond] at *
  omega

/-- Normalised times are ordered as their seconds and nanoseconds, lexicographically. -/
theorem timeOf_lt_iff (ha : 0 ≤ a.2 ∧ a.2 < nanosecondsPerSecond)
    (hb : 0 ≤ b.2 ∧ b.2 < nanosecondsPerSecond) :
    timeOf a < timeOf b ↔ toLex a < toLex b := by
  rw [Prod.Lex.toLex_lt_toLex]
  simp only [timeOf, nanosecondsPerSecond] at *
  omega

/-- The seconds of a header are a signed 32-bit integer. -/
theorem header?_seconds (h : header? D message = some header) :
    -2 ^ 31 ≤ header.1 ∧ header.1 < 2 ^ 31 := by
  unfold header? at h
  split at h
  · split at h
    · rename_i hs _
      cases h
      exact of_decide_eq_true (Option.filter_eq_some_iff.mp hs).2
    · cases h
  · cases h

/-- `readMessage` computes the time of the header. -/
theorem readMessage_eq (D : Delimiters) (message : Str) : readMessage D message =
    match header? D message with
    | some header => .ok (timeOf header, (splitMessage D message).drop 2)
    | none => .error .invalidHeader := by
  unfold readMessage header?
  cases splitMessage D message with
  | nil => rfl
  | cons seconds fields =>
      cases fields with
      | nil => rfl
      | cons nanoseconds values =>
          dsimp only
          cases stoi seconds <;> cases stol nanoseconds <;> rfl

theorem update?_of_header (hn : Normalized D message) (h : header? D message = some header) :
    (update? D message).map Prod.fst = if 0 ≤ header.1 then some (timeOf header) else none := by
  have hneg := timeOf_neg_iff (hn header h)
  simp only [update?, readMessage_eq, h]
  by_cases hs : 0 ≤ header.1
  · rw [if_pos hs, if_neg (by omega), Option.map_some]
  · rw [if_neg hs, if_pos (by omega), Option.map_none]

/-- The first timestamp is the time of the first header whose seconds are not negative. -/
theorem startOf_updates {messages : List Str} (hn : ∀ message ∈ messages, Normalized D message) :
    startOf (updates D messages) = firstTime (headers D messages) := by
  induction messages with
  | nil => rfl
  | cons message messages ih =>
      have ih := ih fun m hm => hn m (List.mem_cons_of_mem _ hm)
      cases h : header? D message with
      | none =>
          have hu : update? D message = none := by simp only [update?, readMessage_eq, h]
          simp only [updates, headers, List.filterMap_cons, hu, h]
          exact ih
      | some header =>
          have hu := update?_of_header (hn message List.mem_cons_self) h
          simp only [updates, headers, List.filterMap_cons, h, firstTime, List.find?_cons]
          by_cases hs : 0 ≤ header.1
          · rw [if_pos hs] at hu
            obtain ⟨u, hu, hfst⟩ := Option.map_eq_some_iff.mp hu
            simp only [hu, hs, decide_true, startOf, hfst]
          · rw [if_neg hs, Option.map_eq_none_iff] at hu
            simp only [hu, hs, decide_false]
            exact ih

end Headers

/-- No timestamp has this many nanoseconds. -/
def timeBound : ℤ := 2 ^ 31 * nanosecondsPerSecond + 2 ^ 32

/-- The times of headers with 32-bit numbers, and their distances. -/
def InRange (t : ℤ) : Prop := -timeBound < t ∧ t < timeBound

theorem Normalized.nanosecondsRange {message : Str} (h : Normalized D message) :
    NanosecondsRange D message := by
  intro header hh
  have hns := h header hh
  simp only [nanosecondsPerSecond] at hns
  omega

theorem timeOf_inRange {message : Str} {header : ℤ × ℤ} (hn : NanosecondsRange D message)
    (h : header? D message = some header) : InRange (timeOf header) := by
  have hs := header?_seconds h
  have hns := hn header h
  simp only [InRange, timeBound, timeOf, nanosecondsPerSecond] at *
  omega

theorem update_inRange {messages : List Str}
    (hn : ∀ message ∈ messages, NanosecondsRange D message) {u : ℤ × List Str}
    (hu : u ∈ updates D messages) : InRange u.1 := by
  obtain ⟨message, hm, hu⟩ := List.mem_filterMap.mp hu
  obtain ⟨hr, -⟩ := update?_eq_some hu
  rw [readMessage_eq] at hr
  split at hr
  · rename_i header h
    cases hr
    exact timeOf_inRange (hn message hm) h
  · cases hr

/-- The reference time is in range. -/
theorem startOf_inRange {messages : List Str}
    (hn : ∀ message ∈ messages, NanosecondsRange D message) :
    -nanosecondsPerSecond ≤ startOf (updates D messages) ∧
      startOf (updates D messages) < timeBound := by
  cases h : updates D messages with
  | nil => simp [startOf, timeBound, nanosecondsPerSecond]
  | cons u us =>
      have hmem : u ∈ updates D messages := h ▸ List.mem_cons_self
      have hpos := updates_nonneg hmem
      have hlt := (update_inRange hn hmem).2
      simp only [startOf, nanosecondsPerSecond]
      omega

/-- The distance of an update from the reference time is in range. -/
theorem sub_startOf_inRange {messages : List Str}
    (hn : ∀ message ∈ messages, NanosecondsRange D message) {u : ℤ × List Str}
    (hu : u ∈ updates D messages) : InRange (u.1 - startOf (updates D messages)) := by
  have hstart : 0 ≤ startOf (updates D messages) := by
    refine not_lt.mp fun hneg => ?_
    rw [startOf_neg_iff.mp hneg] at hu
    cases hu
  have hpos := updates_nonneg hu
  have hlt := (update_inRange hn hu).2
  have hlt' := (startOf_inRange hn).2
  constructor <;> omega

/-- The members that keep the server's time are in range. -/
theorem Core.Clock.inRange {c : Core} (h : c.Clock D)
    (hn : ∀ message ∈ c.processed, NanosecondsRange D message) :
    -nanosecondsPerSecond ≤ c.timeStart ∧ c.timeStart < timeBound ∧ InRange c.timePause := by
  obtain ⟨hlow, hhigh⟩ := startOf_inRange hn
  rw [h.1, h.2]
  refine ⟨hlow, hhigh, ?_⟩
  unfold pauseOf
  split
  · simp [InRange, timeBound, nanosecondsPerSecond]
  · rename_i u hu
    exact sub_startOf_inRange hn (List.mem_of_getLast? hu)

/-- What `ForwardUp` makes of a readable header: it stops the simulator for the signal to
terminate only, and it schedules `HandleUpdate` at the last of the times that it computes. -/
theorem Core.forwardUp_header {c : Core} {message : Str} {messages : List Str} {header : ℤ × ℤ}
    (hq : c.messageQueue = message :: messages) (hrunning : c.stopped = false)
    (h : header? D message = some header) :
    ((c.forwardUp D).stopped = true ↔ timeOf header < 0) ∧
      ∀ e ∈ (c.forwardUp D).sim.queue, ∀ data, e.kind = .handleUpdate data →
        e ∈ c.sim.queue ∨ (c.computedTimes header).getLast? = some e.time := by
  have hread := readMessage_eq D message
  rw [h] at hread
  rw [Core.forwardUp_of_ok hq hread]
  refine Core.process_cases _ (timeOf header) _ ?_ ?_ ?_ ?_
  · intro hneg
    exact ⟨iff_of_true rfl hneg, fun e he _ _ => Or.inl he⟩
  · intro hpos _
    refine ⟨iff_of_false (by simp [Core.pop, hrunning]) (not_lt.mpr hpos), fun e he data hk => ?_⟩
    obtain rfl | he := Simulator.mem_scheduleNow.mp he
    · cases hk
    · exact Or.inl he
  · intro hpos _ hle
    refine ⟨iff_of_false (by simp [Core.pop, hrunning]) (not_lt.mpr hpos), fun e he data hk => ?_⟩
    obtain rfl | he := Simulator.mem_schedule.mp he
    · right
      simp only [Core.computedTimes, List.getLast?_cons_cons, List.getLast?_singleton,
        Simulator.cancel_now, Option.some.injEq]
      simp only [Core.pop] at hle ⊢
      omega
    · exact Or.inl (Simulator.mem_cancel.mp he).1
  · intro hpos _ _
    exact ⟨iff_of_false (by simp [Core.pop, hrunning]) (not_lt.mpr hpos),
      fun e he _ _ => Or.inl (Simulator.mem_cancel.mp he).1⟩

/-- The list has the times of the model: an update's timestamp, `m_timePause` and `timeDelta` are its
entries, and so is the time at which `HandleUpdate` is scheduled. -/
theorem Core.forwardUp_computes {c : Core} {message : Str} {messages : List Str} {header : ℤ × ℤ}
    (hq : c.messageQueue = message :: messages) (h : header? D message = some header)
    (hpos : 0 ≤ timeOf header) (hstart : 0 ≤ c.timeStart) :
    ∃ timestamp values time, readMessage D message = .ok (timestamp, values) ∧
      c.computedTimes header = [header.1 * nanosecondsPerSecond, header.2, timestamp,
        (c.forwardUp D).timePause, (c.forwardUp D).timePause - c.sim.now, time] ∧
      (c.sim.now ≤ time →
        ∃ e ∈ (c.forwardUp D).sim.queue, e.kind = .handleUpdate values ∧ e.time = time) ∧
      (time < c.sim.now → (c.forwardUp D).fatal = some .timestampsNotIncreasing) := by
  have hread := readMessage_eq D message
  rw [h] at hread
  have htime : c.sim.now + (timeOf header - c.timeStart - c.sim.now) =
      timeOf header - c.timeStart := by omega
  refine ⟨timeOf header, (splitMessage D message).drop 2, timeOf header - c.timeStart, hread, ?_⟩
  rw [Core.computedTimes, htime, Core.forwardUp_of_ok hq hread]
  refine Core.process_cases (c.pop message messages) (timeOf header) _ ?_ ?_ ?_ ?_
  · exact fun hneg => absurd hpos (not_le.mpr hneg)
  · exact fun _ hneg => absurd hstart (not_le.mpr hneg)
  · intro _ _ hle
    refine ⟨rfl, fun _ => ⟨_, Simulator.mem_schedule.mpr (Or.inl rfl), rfl, ?_⟩, fun hlt => ?_⟩
    · simp only [Simulator.cancel_now, Core.pop] at hle ⊢
      omega
    · exact absurd hle (not_le.mpr hlt)
  · intro _ _ hlt
    exact ⟨rfl, fun hle => absurd hle (not_le.mpr hlt), fun _ => rfl⟩

variable {s s' : State}

/-- Once `m_timeStart` is set, a step leaves it as it is. -/
theorem Occurs.timeStart_step {t₀ : ℤ} {l : Label} (h : Occurs D always t₀ s)
    (hset : 0 ≤ s.core.timeStart) (hstep : step D s l = some s') :
    s'.core.timeStart = s.core.timeStart := by
  have hne : updates D s.core.processed ≠ [] :=
    fun hnil => not_lt.mpr hset (h.clock.neg_iff.mpr hnil)
  rw [(h.next trivial hstep).clock.1, h.clock.1]
  by_cases hx : s.Executes l .forwardUp
  · obtain ⟨message, -, hprocessed⟩ := h.handoff.executes_forwardUp hstep hx
    rw [hprocessed, updates_append, startOf_append hne]
  · rw [h.handoff.processed_eq hstep hx]

theorem Occurs.timeStart_eq {t₀ : ℤ} (h : Occurs D always t₀ s) (hset : 0 ≤ s.core.timeStart)
    (hr : Reach (step D) always s s') : s'.core.timeStart = s.core.timeStart := by
  have hkept : Occurs D always t₀ s' ∧ s'.core.timeStart = s.core.timeStart := by
    induction hr with
    | start => exact ⟨h, rfl⟩
    | next _ _ hstep ih =>
        obtain ⟨hoccurs, heq⟩ := ih
        constructor
        · exact hoccurs.next trivial hstep
        · exact (hoccurs.timeStart_step (heq.symm ▸ hset) hstep).trans heq
  exact hkept.2

theorem Handoff.processed_subset (h : Handoff s) {P : Str → Prop} (hn : ∀ m ∈ s.pushed, P m) :
    ∀ m ∈ s.core.processed, P m := by
  intro m hm
  apply hn
  rw [← h.history]
  exact List.mem_append_left _ hm

/-- Every time that an executed `ForwardUp` computes fits 64 bits. -/
theorem Occurs.computedTimes_inInt64 {t₀ : ℤ} (h : Occurs D always t₀ s) (ht : 0 ≤ t₀)
    (ht' : t₀ ≤ 2 ^ 62) (hn : ∀ message ∈ s.pushed, NanosecondsRange D message) (hm : s.main = .loop)
    (hf : s.core.fatal = none) {e : Event Kind} {sim : Simulator Kind}
    (hnext : s.core.sim.next? = some (e, sim)) (hk : e.kind = .forwardUp) {message : Str}
    (hmessage : message ∈ s.pushed) {header : ℤ × ℤ} (hh : header? D message = some header) :
    ∀ t ∈ (s.core.advance sim).computedTimes header, InInt64 t := by
  obtain ⟨hstart, hstart', hpause⟩ := h.clock.inRange (h.handoff.processed_subset hn)
  have hseconds := header?_seconds hh
  have hnanoseconds := hn message hmessage header hh
  -- simulation time lies between that of `Connect` and the granted one
  have hlow : t₀ ≤ sim.now := h.paced.start_le_next hnext
  have hhigh : sim.now ≤ max t₀ s.core.timePause := by
    rw [(Simulator.next?_eq_some hnext).2.1]
    exact h.forwardUp_le hm hf hnext hk
  obtain ⟨-, hgranted⟩ := hpause
  simp only [Core.computedTimes, Core.advance, List.mem_cons, List.not_mem_nil, or_false,
    forall_eq_or_imp, forall_eq, InInt64, timeOf, timeBound, nanosecondsPerSecond] at *
  omega

/-- For a gateway connected at time 0 that receives normalised headers, `ForwardUp` computes with
64 bits what it would compute without bounds, it takes a message for the signal to terminate exactly
if the seconds are negative, the reference time is that of the first other message and is not set
again, and times are ordered as their headers. -/
theorem timestamps_exact (h : Occurs D always 0 s)
    (hn : ∀ message ∈ s.pushed, Normalized D message) :
    (∀ e sim s' message header, s.core.sim.next? = some (e, sim) → e.kind = .forwardUp →
      step D s .event = some s' → message ∈ s.core.messageQueue.head? →
      header? D message = some header →
        (∀ t ∈ (s.core.advance sim).computedTimes header, InInt64 t) ∧
        (∀ a ∈ s'.core.sim.queue, ∀ data, a.kind = .handleUpdate data → a ∈ s.core.sim.queue ∨
          ((s.core.advance sim).computedTimes header).getLast? = some a.time) ∧
        (s'.core.stopped = true ↔ header.1 < 0)) ∧
    s.core.timeStart = firstTime (headers D s.core.processed) ∧
    (0 ≤ s.core.timeStart →
      ∀ s', Reach (step D) always s s' → s'.core.timeStart = s.core.timeStart) ∧
    (∀ m ∈ s.pushed, ∀ a ∈ header? D m, ∀ m' ∈ s.pushed, ∀ b ∈ header? D m',
      (timeOf a < timeOf b ↔ toLex a < toLex b)) := by
  have hhistory := h.handoff.history
  refine ⟨fun e sim s' message header hnext hk hstep hhead hh => ?_, ?_,
    fun hset s' hr => h.timeStart_eq hset hr,
    fun m hm a ha m' hm' b hb => timeOf_lt_iff (hn m hm a ha) (hn m' hm' b hb)⟩
  · obtain ⟨messages, hq⟩ := List.head?_eq_some_iff.mp hhead
    have hpushed : message ∈ s.pushed := by
      rw [← hhistory, hq]
      simp
    obtain ⟨hm, hrunning⟩ := loop_of_event hstep
    have htimes := h.computedTimes_inInt64 le_rfl (by decide)
      (fun m hm => (hn m hm).nanosecondsRange) hm (step_eq_some hstep).1 hnext hk hpushed hh
    obtain ⟨hstopped, hscheduled⟩ :=
      Core.forwardUp_header (D := D) (c := s.core.advance sim) hq hrunning hh
    rw [eq_execute_of_event hstep hnext, hk, State.execute]
    have hsign := timeOf_neg_iff (hn message hpushed header hh)
    refine ⟨htimes, fun a ha data hka => ?_, hstopped.trans hsign⟩
    exact (hscheduled a ha data hka).imp (fun ha => (Simulator.mem_of_next? hnext).mpr (Or.inr ha)) id
  · rw [h.clock.1]
    exact startOf_updates (h.handoff.processed_subset hn)

/-- A run up to the second of three messages, the last of which is the signal to terminate. -/
def normalizedRun : List Label :=
  [.server (.send ['0', ' ', '0', '\r', '\n', '6', ' ', '7', '\r', '\n', '-', '1', ' ', '0', '\r',
    '\n'])] ++ Label.receive 16 ++ Label.received ++ Label.received ++
    [.resume, .drain, .drain, .drain, .drain, .event, .drain, .event, .drain]

theorem timestamps_exact_normalizedRun :
    ∃ s, State.after defaultDelimiters always 0 1 normalizedRun = some s ∧
      headers defaultDelimiters s.pushed = [(0, 0), (6, 7), (-1, 0)] ∧
      s.core.timeStart = firstTime (headers defaultDelimiters s.core.processed) ∧
      (∀ s', Reach (step defaultDelimiters) always s s' → s'.core.timeStart = s.core.timeStart) := by
  have hrun : (State.after defaultDelimiters always 0 1 normalizedRun).any (fun s =>
      headers defaultDelimiters s.pushed = [(0, 0), (6, 7), (-1, 0)] ∧ 0 ≤ s.core.timeStart ∧
        ∀ message ∈ s.pushed, Normalized defaultDelimiters message) := by
    decide +kernel
  obtain ⟨s, hs, hp⟩ := (Option.any_eq_true _ _).mp hrun
  obtain ⟨hheaders, hset, hn⟩ := of_decide_eq_true hp
  obtain ⟨-, hstart, hkept, -⟩ := timestamps_exact (.of_after hs) hn
  exact ⟨s, hs, hheaders, hstart, hkept hset⟩

end Ns3Cosim.Gateway
