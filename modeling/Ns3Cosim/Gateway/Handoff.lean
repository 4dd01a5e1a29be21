import Ns3Cosim.Gateway.Handles

/-!
# The hand-off from the reader thread to the simulator

A message and the `ForwardUp` event that will take it travel on two ways: the
locked queue, and the list of events handed over to the simulator. The
invariant counts both, with the message that the reader has pushed and not yet
scheduled, and keeps the reader's `Stop` behind all its `ForwardUp` events.
-/

namespace Ns3Cosim.Gateway

open Execution

variable {D : Delimiters}

/-- The number of `ForwardUp` events in the event list. -/
def forwardUps (sim : Simulator Kind) : ℕ := sim.queue.countP fun e => e.kind = .forwardUp

section ForwardUps

variable {sim sim' : Simulator Kind} {e : Event Kind}

theorem forwardUps_schedule (sim : Simulator Kind) (delay : ℕ) (kind : Kind) :
    forwardUps (sim.schedule delay kind) =
      forwardUps sim + if kind = .forwardUp then 1 else 0 := by
  unfold forwardUps
  rw [(sim.schedule_perm delay kind).countP_eq, List.countP_cons]
  simp

theorem forwardUps_next (hn : sim.next? = some (e, sim')) :
    forwardUps sim = forwardUps sim' + if e.kind = .forwardUp then 1 else 0 := by
  unfold forwardUps
  rw [(Simulator.next?_eq_some hn).1, List.countP_cons]
  simp

theorem forwardUps_cancel {eventWait : EventId} (h : Handles sim eventWait) :
    forwardUps (sim.cancel eventWait) = forwardUps sim := by
  unfold forwardUps Simulator.cancel
  rw [List.countP_filter]
  refine List.countP_congr fun e he => ?_
  simp only [Bool.and_eq_true, decide_eq_true_eq, ne_eq, and_iff_left_iff_imp]
  intro hk hw
  rw [h.waitKind e he hw] at hk
  cases hk

theorem forwardUps_eq_zero_iff :
    forwardUps sim = 0 ↔ ∀ e ∈ sim.queue, e.kind ≠ .forwardUp := by
  simp [forwardUps, List.countP_eq_zero]

end ForwardUps

/-- What the functions of the gateway other than `ForwardUp` and `Stop` leave alone: the message
queue with its history, and every `ForwardUp` and `Stop` event. -/
structure Frame (c c' : Core) : Prop where
  messageQueue : c'.messageQueue = c.messageQueue
  processed : c'.processed = c.processed
  state : c'.state = c.state
  count : forwardUps c'.sim = forwardUps c.sim
  events : ∀ e : Event Kind, e.kind = .forwardUp ∨ e.kind = .stop →
    (e ∈ c'.sim.queue ↔ e ∈ c.sim.queue)
  fatal : c.fatal ≠ some .noQueuedMessage → c'.fatal ≠ some .noQueuedMessage

namespace Frame

variable {c c' c'' : Core}

/-- A change of other members. -/
theorem of_eq (hq : c'.messageQueue = c.messageQueue) (hp : c'.processed = c.processed)
    (hs : c'.state = c.state) (hsim : c'.sim = c.sim) (hf : c'.fatal = c.fatal) : Frame c c' :=
  ⟨hq, hp, hs, by rw [hsim], fun _ _ => by rw [hsim], fun h => hf ▸ h⟩

theorem refl (c : Core) : Frame c c := of_eq rfl rfl rfl rfl rfl

theorem trans (h : Frame c c') (h' : Frame c' c'') : Frame c c'' :=
  ⟨h'.messageQueue.trans h.messageQueue, h'.processed.trans h.processed, h'.state.trans h.state,
    h'.count.trans h.count, fun e he => (h'.events e he).trans (h.events e he),
    fun hf => h'.fatal (h.fatal hf)⟩

theorem fail (c : Core) {e : FatalError} (he : e ≠ .noQueuedMessage) : Frame c (c.fail e) :=
  ⟨rfl, rfl, rfl, rfl, fun _ _ => Iff.rfl, fun _ => by simpa [Core.fail] using he⟩

theorem schedule (c : Core) (delay : ℕ) {kind : Kind} (hf : kind ≠ .forwardUp)
    (hs : kind ≠ .stop) : Frame c { c with sim := c.sim.schedule delay kind } where
  messageQueue := rfl
  processed := rfl
  state := rfl
  count := by simp [forwardUps_schedule, hf]
  events e he := by
    simp only [Simulator.mem_schedule, or_iff_right_iff_imp]
    rintro rfl
    simp [hf, hs] at he
  fatal := id

theorem cancelWait (h : c.Handled) : Frame c c.cancelWait := by
  rw [c.cancelWait_eq]
  refine ⟨rfl, rfl, rfl, forwardUps_cancel h, fun e he => ?_, id⟩
  simp only [Simulator.mem_cancel, and_iff_left_iff_imp]
  intro hmem hw
  simp [h.waitKind e hmem hw] at he

theorem scheduleWait (c : Core) : Frame c c.scheduleWait := by
  have hwait : Frame c { c with sim := c.sim.scheduleNow .waitForNextUpdate } :=
    schedule c 0 (by simp) (by simp)
  exact hwait.trans (of_eq rfl rfl rfl rfl rfl)

theorem waitForNextUpdate (h : c.Handled) : Frame c c.waitForNextUpdate := by
  unfold Core.waitForNextUpdate
  split
  · exact (cancelWait h).trans (scheduleWait _)
  · exact refl c

theorem grant (h : c.Handled) (timestamp : ℤ) (values : List Str) :
    Frame c (c.grant timestamp values) := by
  have hcancel : Frame c { c.cancelWait with timePause := timestamp - c.cancelWait.timeStart } :=
    (cancelWait h).trans (of_eq rfl rfl rfl rfl rfl)
  simp only [Core.grant]
  split
  · refine hcancel.trans (fail _ ?_)
    simp
  · refine hcancel.trans (schedule _ _ ?_ ?_)
    · simp
    · simp

theorem process (h : c.Handled) (timestamp : ℤ) (values : List Str) :
    Frame c (c.process timestamp values) := by
  unfold Core.process
  split
  · exact of_eq rfl rfl rfl rfl rfl
  · split
    · have hfirst : Frame c { c with sim := c.sim.scheduleNow (.doInitialize values) } :=
        schedule c 0 (by simp) (by simp)
      exact hfirst.trans (of_eq rfl rfl rfl rfl rfl)
    · exact grant h _ _

theorem handleUpdate (c : Core) (data : List Str) : Frame c (c.handleUpdate data) := by
  simp only [Core.handleUpdate]
  split
  · exact (scheduleWait c).trans (of_eq rfl rfl rfl rfl rfl)
  · exact of_eq rfl rfl rfl rfl rfl

theorem doInitialize (c : Core) (data : List Str) : Frame c (c.doInitialize data) :=
  of_eq rfl rfl rfl rfl rfl

theorem connect (h : c.state ≠ .created) (outcome : ConnectOutcome) :
    Frame c (c.connect outcome) := by
  rw [Core.connect_of_ne h]
  apply fail c
  simp

theorem user (h : c.state ≠ .created) (action : UserAction) : Frame c (c.user D action) := by
  refine Core.user_cases c action ?_ ?_ ?_ ?_ ?_
  · intro delay
    apply schedule c delay
    · simp
    · simp
  · exact of_eq rfl rfl rfl rfl rfl
  · exact fun _ => of_eq rfl rfl rfl rfl rfl
  · exact fun e he => fail c fun hempty => he (Or.inl hempty)
  · exact connect h

theorem cancelEvents (h : c.Handled) : Frame c c.cancelEvents :=
  (cancelWait h).trans (of_eq rfl rfl rfl rfl rfl)

end Frame

/-- The `ForwardUp` events that were scheduled and have not been executed. -/
def State.scheduled (s : State) : ℕ :=
  forwardUps s.core.sim + s.handoff.countP (· = .forwardUp)

/-- One while the reader is between its push and its schedule. -/
def Reader.betweenPushAndSchedule (r : Reader) : ℕ := if r.pc = .schedule then 1 else 0

/-- `Simulator::Destroy` has not been called. -/
def State.InRun (s : State) : Prop := s.main ≠ .joining true ∧ s.main ≠ .destroyed

/-- The invariant of the hand-off. -/
structure Handoff (s : State) : Prop where
  handled : s.core.Handled
  constructed : s.core.state ≠ .created
  history : s.core.processed ++ s.core.messageQueue = s.pushed
  count : s.core.messageQueue.length = s.scheduled + s.reader.betweenPushAndSchedule
  kinds : ∀ kind ∈ s.handoff, kind = .forwardUp ∨ kind = .stop
  stopLast : s.handoff.Pairwise fun kind _ => kind ≠ .stop
  stopExited : (.stop ∈ s.handoff ∨ ∃ e ∈ s.core.sim.queue, e.kind = .stop) →
    s.reader.pc = .exited
  stopBehind : ∀ e ∈ s.core.sim.queue, e.kind = .stop → .forwardUp ∉ s.handoff ∧
    ∀ a ∈ s.core.sim.queue, a.kind = .forwardUp → a.Before e
  halted : s.core.state = .stopping → s.InRun → s.reader.pc = .exited ∧ s.scheduled = 0
  neverEmpty : s.core.fatal ≠ some .noQueuedMessage

namespace Handoff

variable {s : State} {e : Event Kind} {sim : Simulator Kind}

theorem frame (h : Handoff s) {c : Core} (hc : c.Handled) (hf : Frame s.core c) {main : MainPc}
    (hm : State.InRun { s with core := c, main := main } → s.InRun) :
    Handoff { s with core := c, main := main } where
  handled := hc
  constructed := hf.state ▸ h.constructed
  history := by
    simp only [hf.messageQueue, hf.processed]
    exact h.history
  count := by
    simp only [State.scheduled, hf.messageQueue, hf.count]
    exact h.count
  kinds := h.kinds
  stopLast := h.stopLast
  stopExited := by
    rintro (hin | ⟨e, he, hk⟩)
    · exact h.stopExited (Or.inl hin)
    · exact h.stopExited (Or.inr ⟨e, (hf.events e (Or.inr hk)).mp he, hk⟩)
  stopBehind := by
    intro e he hk
    obtain ⟨hnot, hbefore⟩ := h.stopBehind e ((hf.events e (Or.inr hk)).mp he) hk
    exact ⟨hnot, fun a ha hka => hbefore a ((hf.events a (Or.inl hka)).mp ha) hka⟩
  halted := by
    intro hstop hrun
    obtain ⟨hpc, hzero⟩ := h.halted (hf.state ▸ hstop) (hm hrun)
    refine ⟨hpc, ?_⟩
    simp only [State.scheduled, hf.count]
    exact hzero
  neverEmpty := hf.fatal h.neverEmpty

/-- Another event than a `ForwardUp` leaves the event list. -/
theorem leave (h : Handoff s) (hn : s.core.sim.next? = some (e, sim)) (hk : e.kind ≠ .forwardUp) :
    Handoff { s with core := s.core.advance sim } := by
  have hsub : ∀ a ∈ sim.queue, a ∈ s.core.sim.queue :=
    fun a ha => (Simulator.mem_of_next? hn).mpr (Or.inr ha)
  have hcount : forwardUps s.core.sim = forwardUps sim := by
    simpa [hk] using forwardUps_next hn
  refine ⟨h.handled.advance hn, h.constructed, h.history, ?_, h.kinds, h.stopLast, ?_, ?_, ?_,
    h.neverEmpty⟩
  · have := h.count
    simp only [State.scheduled, hcount] at this
    exact this
  · rintro (hin | ⟨a, ha, hka⟩)
    · exact h.stopExited (Or.inl hin)
    · exact h.stopExited (Or.inr ⟨a, hsub a ha, hka⟩)
  · intro a ha hka
    obtain ⟨hnot, hbefore⟩ := h.stopBehind a (hsub a ha) hka
    exact ⟨hnot, fun b hb => hbefore b (hsub b hb)⟩
  · intro hstop hrun
    have := h.halted hstop hrun
    simp only [State.scheduled, hcount] at this
    exact this

/-- A `ForwardUp` event finds a message in the queue, takes it, and leaves the event list. -/
theorem take (h : Handoff s) (hn : s.core.sim.next? = some (e, sim)) (hk : e.kind = .forwardUp) :
    ∃ message messages, s.core.messageQueue = message :: messages ∧
      Handoff { s with core := (s.core.advance sim).pop message messages } := by
  have hsub : ∀ a ∈ sim.queue, a ∈ s.core.sim.queue :=
    fun a ha => (Simulator.mem_of_next? hn).mpr (Or.inr ha)
  have hcount : forwardUps s.core.sim = forwardUps sim + 1 := by
    simpa [hk] using forwardUps_next hn
  have hlen := h.count
  simp only [State.scheduled, hcount] at hlen
  obtain ⟨message, messages, hq⟩ : ∃ message messages, s.core.messageQueue = message :: messages :=
    List.exists_cons_of_length_pos (by omega)
  refine ⟨message, messages, hq, h.handled.advance hn, h.constructed, ?_, ?_, h.kinds, h.stopLast,
    ?_, ?_, ?_, h.neverEmpty⟩
  · rw [← h.history, hq]
    simp [Core.pop, Core.advance]
  · rw [hq] at hlen
    simp only [List.length_cons] at hlen
    simp only [State.scheduled, Core.pop, Core.advance]
    omega
  · rintro (hin | ⟨a, ha, hka⟩)
    · exact h.stopExited (Or.inl hin)
    · exact h.stopExited (Or.inr ⟨a, hsub a ha, hka⟩)
  · intro a ha hka
    obtain ⟨hnot, hbefore⟩ := h.stopBehind a (hsub a ha) hka
    exact ⟨hnot, fun b hb => hbefore b (hsub b hb)⟩
  · intro hstop hrun
    have hzero := (h.halted hstop hrun).2
    simp only [State.scheduled, hcount] at hzero
    omega

/-- `Stop` has begun. -/
theorem halt (h : Handoff s) {main : MainPc}
    (hhalt : State.InRun { s with main := main } → s.reader.pc = .exited ∧ s.scheduled = 0) :
    Handoff { s with core.state := .stopping, main := main } :=
  ⟨h.handled, by simp, h.history, h.count, h.kinds, h.stopLast, h.stopExited, h.stopBehind,
    fun _ => hhalt, h.neverEmpty⟩

/-- `Stop` finds the reader at its end, unless `Simulator::Destroy` calls it. -/
theorem stop (h : Handoff s) (destroying : Bool)
    (hhalt : destroying = false → s.reader.pc = .exited ∧ s.scheduled = 0) :
    Handoff (s.stop destroying) := by
  have hjoin : State.InRun { s with main := .joining destroying } →
      s.reader.pc = .exited ∧ s.scheduled = 0 := by
    intro hrun
    exact hhalt (by simpa [State.InRun] using hrun)
  have hafter : State.InRun { s with main := .afterStop destroying } →
      s.reader.pc = .exited ∧ s.scheduled = 0 := by
    intro hrun
    cases destroying with
    | false => exact hhalt rfl
    | true => exact absurd rfl hrun.2
  have hended := h.halt hafter
  have hhandled : Core.Handled { s.core with state := .stopping } := h.handled
  have hclose : Frame { s.core with state := .stopping }
      (Core.close { s.core with state := .stopping }) := Frame.of_eq rfl rfl rfl rfl rfl
  refine State.stop_cases s destroying ?_ ?_ ?_
  · intro _ _
    exact h.halt hjoin
  · exact hended.frame hhandled.close.cancelEvents
      (hclose.trans (Frame.cancelEvents hhandled.close)) id
  · exact hended.frame hhandled.cancelEvents (Frame.cancelEvents hhandled) id

/-- The simulator inserts the event that was handed over first, behind all others. -/
theorem insert (h : Handoff s) {kind : Kind} {kinds : List Kind} (hh : s.handoff = kind :: kinds) :
    Handoff { s with core.sim := s.core.sim.scheduleNow kind, handoff := kinds } := by
  have hcount : State.scheduled
      { s with core.sim := s.core.sim.scheduleNow kind, handoff := kinds } = s.scheduled := by
    simp only [State.scheduled, Simulator.scheduleNow, forwardUps_schedule, hh, List.countP_cons,
      decide_eq_true_eq]
    omega
  have hin : ∀ k ∈ kinds, k ∈ s.handoff := fun k hk => hh ▸ List.mem_cons_of_mem _ hk
  have hfirst : kind ∈ s.handoff := hh ▸ List.mem_cons_self
  have hlast := List.pairwise_cons.mp (hh ▸ h.stopLast)
  refine ⟨Handles.scheduleNow h.handled kind, h.constructed, h.history, ?_,
    fun k hk => h.kinds k (hin k hk), hlast.2, ?_, ?_, ?_, h.neverEmpty⟩
  · rw [hcount]
    exact h.count
  · rintro (hk | ⟨e, he, hk⟩)
    · exact h.stopExited (Or.inl (hin _ hk))
    · obtain rfl | he := Simulator.mem_scheduleNow.mp he
      · exact h.stopExited (Or.inl (hk ▸ hfirst))
      · exact h.stopExited (Or.inr ⟨e, he, hk⟩)
  · intro e he hk
    obtain rfl | he := Simulator.mem_scheduleNow.mp he
    · have hk : kind = .stop := hk
      refine ⟨fun hf => hlast.1 _ hf hk, fun a ha hka => ?_⟩
      obtain rfl | ha := Simulator.mem_scheduleNow.mp ha
      · cases hk.symm.trans hka
      · refine Or.inr ⟨h.handled.immediate a ha (by simp [hka, Kind.Immediate]), ?_⟩
        exact s.core.sim.fresh a ha
    · obtain ⟨hnot, hbefore⟩ := h.stopBehind e he hk
      refine ⟨fun hf => hnot (hin _ hf), fun a ha hka => ?_⟩
      obtain rfl | ha := Simulator.mem_scheduleNow.mp ha
      · have hka : kind = .forwardUp := hka
        exact absurd (hka ▸ hfirst) hnot
      · exact hbefore a ha hka
  · intro hstop hrun
    rw [hcount]
    exact h.halted hstop hrun

/-- While the reader runs, no `Stop` event has been handed over or inserted. -/
theorem no_stop (h : Handoff s) (hpc : s.reader.pc ≠ .exited) :
    .stop ∉ s.handoff ∧ ∀ e ∈ s.core.sim.queue, e.kind ≠ .stop :=
  ⟨fun hin => hpc (h.stopExited (Or.inl hin)),
    fun e he hk => hpc (h.stopExited (Or.inr ⟨e, he, hk⟩))⟩

/-- A step of the reader that schedules nothing and stays on its side of the push. -/
theorem reader (h : Handoff s) {r : Reader} {conn : Connection} (hpc : s.reader.pc ≠ .exited)
    (hb : r.betweenPushAndSchedule = s.reader.betweenPushAndSchedule) :
    Handoff { s with reader := r, conn := conn } := by
  obtain ⟨hin, hqueue⟩ := h.no_stop hpc
  refine ⟨h.handled, h.constructed, h.history, ?_, h.kinds, h.stopLast, ?_, h.stopBehind, ?_,
    h.neverEmpty⟩
  · simp only [State.scheduled, hb]
    exact h.count
  · rintro (hk | ⟨e, he, hk⟩)
    · exact absurd hk hin
    · exact absurd hk (hqueue e he)
  · intro hstop hrun
    exact absurd (h.halted hstop hrun).1 hpc

theorem push (h : Handoff s) {message : Str} (hpc : s.reader.pc = .push message) :
    Handoff { s with reader.pc := .schedule,
                     core.messageQueue := s.core.messageQueue ++ [message],
                     pushed := s.pushed ++ [message] } := by
  have hne : s.reader.pc ≠ .exited := by simp [hpc]
  obtain ⟨hin, hqueue⟩ := h.no_stop hne
  refine ⟨h.handled, h.constructed, ?_, ?_, h.kinds, h.stopLast, ?_, h.stopBehind, ?_,
    h.neverEmpty⟩
  · simp only [← List.append_assoc, h.history]
  · have hlen := h.count
    simp only [Reader.betweenPushAndSchedule, hpc, State.scheduled] at hlen ⊢
    simpa using hlen
  · rintro (hk | ⟨e, he, hk⟩)
    · exact absurd hk hin
    · exact absurd hk (hqueue e he)
  · intro hstop hrun
    exact absurd (h.halted hstop hrun).1 hne

theorem scheduleForwardUp (h : Handoff s) (hpc : s.reader.pc = .schedule) :
    Handoff { s with reader.pc := .test, handoff := s.handoff ++ [.forwardUp] } := by
  have hne : s.reader.pc ≠ .exited := by simp [hpc]
  obtain ⟨hin, hqueue⟩ := h.no_stop hne
  refine ⟨h.handled, h.constructed, h.history, ?_, ?_, ?_, ?_, ?_, ?_, h.neverEmpty⟩
  · have hlen := h.count
    simp only [Reader.betweenPushAndSchedule, hpc, State.scheduled] at hlen ⊢
    simpa [List.countP_append, Nat.add_assoc] using hlen
  · intro k hk
    obtain hk | hk := List.mem_append.mp hk
    · exact h.kinds k hk
    · exact Or.inl (List.mem_singleton.mp hk)
  · refine List.pairwise_append.mpr ⟨h.stopLast, by simp, fun k hk _ _ hs => ?_⟩
    exact hin (hs ▸ hk)
  · rintro (hk | ⟨e, he, hk⟩)
    · exact absurd (by simpa using hk) hin
    · exact absurd hk (hqueue e he)
  · intro e he hk
    exact absurd hk (hqueue e he)
  · intro hstop hrun
    exact absurd (h.halted hstop hrun).1 hne

theorem scheduleStop (h : Handoff s) (hpc : s.reader.pc = .failed) :
    Handoff { s with reader.pc := .exited, handoff := s.handoff ++ [.stop] } := by
  have hne : s.reader.pc ≠ .exited := by simp [hpc]
  obtain ⟨hin, hqueue⟩ := h.no_stop hne
  refine ⟨h.handled, h.constructed, h.history, ?_, ?_, ?_, fun _ => rfl, ?_, ?_, h.neverEmpty⟩
  · have hlen := h.count
    simp only [Reader.betweenPushAndSchedule, hpc, State.scheduled] at hlen ⊢
    simpa [List.countP_append] using hlen
  · intro k hk
    obtain hk | hk := List.mem_append.mp hk
    · exact h.kinds k hk
    · exact Or.inr (List.mem_singleton.mp hk)
  · refine List.pairwise_append.mpr ⟨h.stopLast, by simp, fun k hk _ _ hs => ?_⟩
    exact hin (hs ▸ hk)
  · intro e he hk
    exact absurd hk (hqueue e he)
  · intro hstop hrun
    exact absurd (h.halted hstop hrun).1 hne

/-- The event list has no `ForwardUp` left when a `Stop` is next. -/
theorem scheduled_eq_zero_of_stop (h : Handoff s) (hn : s.core.sim.next? = some (e, sim))
    (hk : e.kind = .stop) : s.reader.pc = .exited ∧ s.scheduled = 0 := by
  have he : e ∈ s.core.sim.queue := (Simulator.mem_of_next? hn).mpr (Or.inl rfl)
  obtain ⟨hnot, hbefore⟩ := h.stopBehind e he hk
  refine ⟨h.stopExited (Or.inr ⟨e, he, hk⟩), ?_⟩
  have hqueue : forwardUps s.core.sim = 0 := by
    refine forwardUps_eq_zero_iff.mpr fun a ha hka => ?_
    obtain rfl | ha' := (Simulator.mem_of_next? hn).mp ha
    · cases hk.symm.trans hka
    · exact (Simulator.before_of_next? hn ha').asymm (hbefore a ha hka)
  have hhandoff : s.handoff.countP (· = .forwardUp) = 0 := by
    refine List.countP_eq_zero.mpr fun k hk' hf => ?_
    exact hnot (of_decide_eq_true hf ▸ hk')
  simp only [State.scheduled, hqueue, hhandoff]

end Handoff

/-- A silent reader step neither follows the exit nor touches the place between push and
schedule. -/
theorem Reader.step_silent {state : GatewayState} {result : Option Recv} {r r' : Reader}
    (h : r.step D state result = some (r', .silent)) :
    r.pc ≠ .exited ∧ r'.betweenPushAndSchedule = r.betweenPushAndSchedule := by
  unfold Reader.step at h
  split at h
  case h_1 hpc =>
      split at h <;> simp only [Option.some.injEq, Prod.mk.injEq, and_true] at h <;>
        simp [← h, betweenPushAndSchedule, hpc]
  case h_2 hpc =>
      split at h <;> simp only [Option.some.injEq, Prod.mk.injEq, and_true] at h <;>
        simp [← h, betweenPushAndSchedule, hpc]
  case h_3 hpc =>
      split at h <;> simp only [Option.some.injEq, Prod.mk.injEq, and_true, reduceCtorEq] at h <;>
        simp [← h, betweenPushAndSchedule, hpc]
  all_goals simp at h

variable {s s' : State} {l : Label}

theorem Handoff.step (h : Handoff s) (hstep : step D s l = some s') : Handoff s' := by
  cases Step.of_step hstep with
  | server => exact ⟨h.handled, h.constructed, h.history, h.count, h.kinds, h.stopLast,
      h.stopExited, h.stopBehind, h.halted, h.neverEmpty⟩
  | silent _ hr =>
      obtain ⟨hpc, hb⟩ := Reader.step_silent hr
      exact h.reader hpc hb
  | push hpc => exact h.push hpc
  | scheduleForwardUp hpc => exact h.scheduleForwardUp hpc
  | scheduleStop hpc => exact h.scheduleStop hpc
  | user hm => exact h.frame (h.handled.user _) (Frame.user h.constructed _) id
  | resume hm => exact h.frame h.handled (Frame.refl _) fun _ => by simp [State.InRun, hm]
  | insert _ hh => exact h.insert hh
  | drained hm => exact h.frame h.handled (Frame.refl _) fun _ => by simp [State.InRun, hm]
  | wait hm _ hn hk =>
      have hleave := h.leave hn (by simp [hk])
      exact hleave.frame hleave.handled.waitForNextUpdate (Frame.waitForNextUpdate hleave.handled)
        fun _ => by simp [State.InRun, hm]
  | forwardUp hm _ hn hk =>
      obtain ⟨message, messages, hq, htake⟩ := h.take hn hk
      have hrun : ∀ c, State.InRun { s with core := c, main := s.main } :=
        fun c => by simp [State.InRun, hm]
      have hdrain : ∀ c : Core, c.Handled →
          Frame ((s.core.advance _).pop message messages) c →
          Handoff { s with core := c, main := .drain } :=
        fun c hc hf => htake.frame hc hf fun _ => hrun _
      simp only [Core.forwardUp, Core.advance, hq]
      split
      · rename_i e he
        refine hdrain _ htake.handled (Frame.fail _ ?_)
        simp [readMessage_error he]
      · exact hdrain _ (htake.handled.process _ _) (Frame.process htake.handled _ _)
  | stop hm _ hn hk =>
      refine Handoff.stop (h.leave hn (by simp [hk])) false fun _ => ?_
      have hz := h.scheduled_eq_zero_of_stop hn hk
      have hcount := forwardUps_next hn
      simp only [State.scheduled, hcount] at hz ⊢
      refine ⟨hz.1, ?_⟩
      simp only [Core.advance]
      omega
  | doInitialize hm _ hn hk =>
      have hleave := h.leave hn (by simp [hk])
      exact hleave.frame (hleave.handled.doInitialize _) (Frame.doInitialize _ _)
        fun _ => by simp [State.InRun, hm]
  | handleUpdate hm _ hn hk =>
      have hleave := h.leave hn (by simp [hk])
      exact hleave.frame (hleave.handled.handleUpdate _) (Frame.handleUpdate _ _)
        fun _ => by simp [State.InRun, hm]
  | unrelated hm _ hn hk =>
      have hleave := h.leave hn (by simp [hk])
      exact hleave.frame hleave.handled (Frame.refl _) fun _ => by simp [State.InRun, hm]
  | join hm hx =>
      rename_i destroying
      have hjoined : Frame s.core s.core.join.close := Frame.of_eq rfl rfl rfl rfl rfl
      refine h.frame h.handled.join.close.cancelEvents
        (hjoined.trans (Frame.cancelEvents h.handled.join.close)) fun hrun => ?_
      cases destroying with
      | false => simp [State.InRun, hm]
      | true => exact absurd rfl hrun.2
  | destroy hm =>
      refine State.destroy_cases s ?_ ?_
      · intro _
        have htaken : Frame s.core { s.core with eventDestroy := false } :=
          Frame.of_eq rfl rfl rfl rfl rfl
        exact Handoff.stop (h.frame h.handled.destroyTaken htaken id) true (by simp)
      · intro _
        exact h.frame h.handled (Frame.refl _) fun hrun => absurd rfl hrun.2

variable {ok : State → Label → Prop} {t₀ : ℤ}

theorem Occurs.handoff (h : Occurs D ok t₀ s) : Handoff s := by
  refine h.induct (fun sim outbound hsim ht => ?_) fun _ _ _ _ hinv _ hstep => hinv.step hstep
  have hkind : ∀ e ∈ (State.connected sim outbound).core.sim.queue,
      e.kind = .unrelated ∨ e.kind = .waitForNextUpdate := by
    intro e he
    obtain rfl | he := Simulator.mem_scheduleNow.mp he
    · exact Or.inr rfl
    · exact Or.inl (hsim e he)
  have hno : ∀ e ∈ (State.connected sim outbound).core.sim.queue,
      e.kind ≠ .forwardUp ∧ e.kind ≠ .stop := by
    intro e he
    rcases hkind e he with hk | hk <;> simp [hk]
  refine ⟨handled_connected hsim outbound, by simp [State.connected, Core.connect, Core.construct,
    Core.scheduleWait], rfl, ?_, by simp [State.connected], by simp [State.connected], ?_, ?_, ?_,
    by simp [State.connected, Core.connect, Core.construct, Core.scheduleWait]⟩
  · have hzero : forwardUps (State.connected sim outbound).core.sim = 0 :=
      forwardUps_eq_zero_iff.mpr fun e he => (hno e he).1
    simp only [State.scheduled, hzero]
    rfl
  · rintro (hin | ⟨e, he, hk⟩)
    · cases hin
    · exact absurd hk (hno e he).2
  · intro e he hk
    exact absurd hk (hno e he).2
  · intro hstop
    cases hstop

/-- Executing a `ForwardUp` takes the first message that none took before. -/
theorem Handoff.executes_forwardUp (h : Handoff s) (hstep : Gateway.step D s l = some s')
    (hx : s.Executes l .forwardUp) :
    ∃ message, s.pushed[s.core.processed.length]? = some message ∧
      s'.core.processed = s.core.processed ++ [message] := by
  obtain ⟨rfl, e, sim, hn, hk⟩ := hx
  cases Step.of_step hstep with
  | forwardUp _ _ hn' =>
      rw [hn] at hn'
      cases hn'
      obtain ⟨message, messages, hq, htake⟩ := h.take hn hk
      refine ⟨message, ?_, ?_⟩
      · rw [← h.history, hq]
        simp
      · simp only [Core.forwardUp, Core.advance, hq]
        split
        · rfl
        · exact (Frame.process htake.handled _ _).processed
  | wait _ _ hn' hk' | stop _ _ hn' hk' | doInitialize _ _ hn' hk' | handleUpdate _ _ hn' hk'
  | unrelated _ _ hn' hk' =>
      rw [hn] at hn'
      cases hn'
      cases hk.symm.trans hk'

/-- Nothing else takes a message. -/
theorem Handoff.processed_eq (h : Handoff s) (hstep : Gateway.step D s l = some s')
    (hx : ¬ s.Executes l .forwardUp) : s'.core.processed = s.core.processed := by
  cases Step.of_step hstep with
  | server | silent | push | scheduleForwardUp | scheduleStop | resume | insert | drained
  | doInitialize | unrelated => rfl
  | user => exact (Frame.user h.constructed _).processed
  | wait _ _ hn hk =>
      exact (Frame.waitForNextUpdate (h.handled.advance hn)).processed
  | forwardUp _ _ hn hk => exact absurd ((State.executes_iff hn).mpr hk) hx
  | stop => exact (State.stop_frame _ _).processed
  | handleUpdate => exact (Frame.handleUpdate _ _).processed
  | join =>
      rw [State.joined, Core.cancelEvents_eq]
      rfl
  | destroy => exact s.destroy_frame.processed

/-- When a `Stop` event runs, every message that was pushed has been taken. -/
theorem Handoff.executes_stop (h : Handoff s) (hx : s.Executes l .stop) :
    s.scheduled = 0 ∧ s.core.processed = s.pushed := by
  obtain ⟨-, e, sim, hn, hk⟩ := hx
  obtain ⟨hpc, hzero⟩ := h.scheduled_eq_zero_of_stop hn hk
  have hlen := h.count
  simp only [hzero, Reader.betweenPushAndSchedule, hpc, reduceCtorEq, if_false] at hlen
  have hempty := List.length_eq_zero_iff.mp hlen
  refine ⟨hzero, ?_⟩
  rw [← h.history, hempty, List.append_nil]

/-- The reader and the simulator hand every message over exactly once and in order: the queue
holds one message for each `ForwardUp` that is scheduled and not executed, and one more while the
reader is between its push and its schedule; no `ForwardUp` finds the queue empty; what was taken
and what waits are together what was pushed; each `ForwardUp` takes the next message pushed; and a
`Stop` runs when no `ForwardUp` and no message is left. -/
theorem handoff_exact (h : Occurs D always t₀ s) :
    s.core.messageQueue.length = s.scheduled + s.reader.betweenPushAndSchedule ∧
    s.core.fatal ≠ some .noQueuedMessage ∧
    s.core.processed ++ s.core.messageQueue = s.pushed ∧
    ∀ l s', Gateway.step D s l = some s' →
      (s.Executes l .forwardUp → ∃ message, s.pushed[s.core.processed.length]? = some message ∧
        s'.core.processed = s.core.processed ++ [message]) ∧
      (¬ s.Executes l .forwardUp → s'.core.processed = s.core.processed) ∧
      (s.Executes l .stop → s.scheduled = 0 ∧ s.core.processed = s.pushed) := by
  have hinv := h.handoff
  refine ⟨hinv.count, hinv.neverEmpty, hinv.history, fun l s' hstep => ⟨?_, ?_, ?_⟩⟩
  · exact hinv.executes_forwardUp hstep
  · exact hinv.processed_eq hstep
  · exact hinv.executes_stop

/-- A run in which the first message has been processed and the second was just pushed. -/
def betweenRun : List Label :=
  [.server (.send ['0', ' ', '0', '\r', '\n', '6', ' ', '0', '\r', '\n'])] ++ Label.receive 10 ++
    [.resume, .drain, .drain, .event, .drain, .event, .reader 0, .reader 0, .reader 0]

theorem handoff_exact_betweenRun :
    ∃ s, State.after defaultDelimiters always 0 1 betweenRun = some s ∧
      s.core.processed.length = 1 ∧ s.pushed.length = 2 ∧
      s.core.messageQueue.length = s.scheduled + s.reader.betweenPushAndSchedule ∧
      s.core.fatal ≠ some .noQueuedMessage ∧
      s.core.processed ++ s.core.messageQueue = s.pushed ∧
      ∀ l s', Gateway.step defaultDelimiters s l = some s' →
        (s.Executes l .forwardUp → ∃ message, s.pushed[s.core.processed.length]? = some message ∧
          s'.core.processed = s.core.processed ++ [message]) ∧
        (¬ s.Executes l .forwardUp → s'.core.processed = s.core.processed) ∧
        (s.Executes l .stop → s.scheduled = 0 ∧ s.core.processed = s.pushed) := by
  have hrun : (State.after defaultDelimiters always 0 1 betweenRun).any (fun s =>
      s.core.processed.length = 1 ∧ s.pushed.length = 2) := by
    decide +kernel
  obtain ⟨s, hs, hp⟩ := (Option.any_eq_true _ _).mp hrun
  obtain ⟨hprocessed, hpushed⟩ := of_decide_eq_true hp
  exact ⟨s, hs, hprocessed, hpushed, handoff_exact (.of_after hs)⟩

end Ns3Cosim.Gateway
