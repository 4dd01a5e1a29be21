import Ns3Cosim.Gateway.Handles

/-!
# The simulator never passes the time granted by the server

The pause is not a flag but an event that schedules itself again. While the
gateway is connected, simulation time is blocked in one of two ways: the event
of `m_eventWait` is pending at the current time, or a `HandleUpdate` is pending
exactly at `m_timePause`, and will schedule the wait when time gets there.
-/

namespace Ns3Cosim.Gateway

open Execution

variable {D : Delimiters}

/-- What keeps simulation time from passing the larger of `t₀` and `m_timePause`. -/
inductive Blocked (t₀ : ℤ) (sim : Simulator Kind) (eventWait : EventId) (timePause : ℤ) : Prop
  | waiting {e : Event Kind} (he : e ∈ sim.queue) (hw : eventWait = some e.uid)
      (hnow : sim.now ≤ max t₀ timePause)
  | granted {e : Event Kind} {data : List Str} (he : e ∈ sim.queue)
      (hk : e.kind = .handleUpdate data) (ht : e.time = timePause)

namespace Blocked

variable {t₀ timePause : ℤ} {sim sim' : Simulator Kind} {eventWait : EventId} {e : Event Kind}

theorem now_le (h : Blocked t₀ sim eventWait timePause) : sim.now ≤ max t₀ timePause := by
  cases h with
  | waiting _ _ hnow => exact hnow
  | granted he _ ht => exact (ht ▸ sim.notPast _ he).trans (le_max_right _ _)

/-- The next event is not later than the granted time. -/
theorem next_le (h : Blocked t₀ sim eventWait timePause) (hh : Handles sim eventWait)
    (hn : sim.next? = some (e, sim')) : e.time ≤ max t₀ timePause := by
  cases h with
  | waiting he hw hnow =>
      have hk := hh.waitKind _ he hw
      have ht := hh.immediate _ he (by simp [hk, Kind.Immediate])
      rw [Simulator.time_eq_of_pending hn he ht]
      exact hnow
  | granted he _ ht =>
      exact (ht ▸ Simulator.time_le_of_pending hn he).trans (le_max_right _ _)

/-- Running an event that blocks nothing leaves time blocked. -/
theorem advance (h : Blocked t₀ sim eventWait timePause) (hh : Handles sim eventWait)
    (hn : sim.next? = some (e, sim')) (hwait : e.kind ≠ .waitForNextUpdate)
    (hupdate : ∀ data, e.kind = .handleUpdate data → e.time ≠ timePause) :
    Blocked t₀ sim' eventWait timePause := by
  have hle := h.next_le hh hn
  cases h with
  | waiting he hw _ =>
      obtain rfl | he' := (Simulator.mem_of_next? hn).mp he
      · exact absurd (hh.waitKind _ he hw) hwait
      · exact waiting he' hw ((Simulator.next?_eq_some hn).2.1 ▸ hle)
  | granted he hk ht =>
      obtain rfl | he' := (Simulator.mem_of_next? hn).mp he
      · exact absurd ht (hupdate _ hk)
      · exact granted he' hk ht

theorem schedule (h : Blocked t₀ sim eventWait timePause) (delay : ℕ) (kind : Kind) :
    Blocked t₀ (sim.schedule delay kind) eventWait timePause := by
  cases h with
  | waiting he hw hnow => exact waiting (Simulator.mem_schedule.mpr (Or.inr he)) hw hnow
  | granted he hk ht => exact granted (Simulator.mem_schedule.mpr (Or.inr he)) hk ht

/-- A new wait event blocks time wherever it has legally got to. -/
theorem of_scheduleWait (hnow : sim.now ≤ max t₀ timePause) :
    Blocked t₀ (sim.scheduleNow .waitForNextUpdate) (some sim.nextUid) timePause :=
  waiting (Simulator.mem_scheduleNow.mpr (Or.inl rfl)) rfl hnow

end Blocked

/-- The invariant of lock-step execution from the time `t₀` on. -/
structure Paced (t₀ : ℤ) (sim : Simulator Kind) (eventWait : EventId) (state : GatewayState)
    (timePause : ℤ) (fatal : Option FatalError) : Prop where
  handles : Handles sim eventWait
  start_le : t₀ ≤ sim.now
  constructed : state ≠ .created
  blocked : state = .connected → fatal = none → Blocked t₀ sim eventWait timePause

/-- `Paced` of the main thread's side. -/
def Core.Paced (t₀ : ℤ) (c : Core) : Prop :=
  Gateway.Paced t₀ c.sim c.eventWait c.state c.timePause c.fatal

namespace Core.Paced

variable {t₀ : ℤ} {c : Core} {e : Event Kind} {sim : Simulator Kind}

/-- The rest of the invariant when one more event has been taken. -/
theorem start_le_next (h : c.Paced t₀) (hn : c.sim.next? = some (e, sim)) : t₀ ≤ sim.now := by
  rw [(Simulator.next?_eq_some hn).2.1]
  exact h.start_le.trans (Simulator.now_le_of_next? hn)

theorem advance (h : c.Paced t₀) (hn : c.sim.next? = some (e, sim))
    (hwait : e.kind ≠ .waitForNextUpdate)
    (hupdate : ∀ data, e.kind = .handleUpdate data → e.time ≠ c.timePause) :
    (c.advance sim).Paced t₀ where
  handles := h.handles.advance hn
  start_le := h.start_le_next hn
  constructed := h.constructed
  blocked hc hf := (h.blocked hc hf).advance h.handles hn hwait hupdate

theorem fail (h : c.Paced t₀) (error : FatalError) : (c.fail error).Paced t₀ where
  handles := h.handles
  start_le := h.start_le
  constructed := h.constructed
  blocked _ hf := by cases hf

/-- Whatever event is due, the granted time is not passed. -/
theorem next_le (h : c.Paced t₀) (hn : c.sim.next? = some (e, sim)) (hc : c.state = .connected)
    (hf : c.fatal = none) : sim.now ≤ max t₀ c.timePause := by
  rw [(Simulator.next?_eq_some hn).2.1]
  exact (h.blocked hc hf).next_le h.handles hn

/-- While the gateway is connected and no fatal error was raised, neither the current time nor that
of the next event is later than the time of `Connect` and the granted time. -/
theorem now_le (h : c.Paced t₀) (hc : c.state = .connected) (hf : c.fatal = none) :
    c.sim.now ≤ max t₀ c.timePause ∧
      ∀ e sim, c.sim.next? = some (e, sim) → e.time ≤ max t₀ c.timePause := by
  have hblocked := h.blocked hc hf
  constructor
  · exact hblocked.now_le
  · intro e sim hn
    exact hblocked.next_le h.handles hn

theorem waitForNextUpdate (h : c.Paced t₀) (hn : c.sim.next? = some (e, sim)) :
    (c.advance sim).waitForNextUpdate.Paced t₀ := by
  have hhandles := Handled.waitForNextUpdate (c := c.advance sim) (h.handles.advance hn)
  have hstart := h.start_le_next hn
  have hnow := h.next_le hn
  by_cases hs : (c.advance sim).state = .stopping
  · rw [Core.waitForNextUpdate_of_stopping hs] at hhandles ⊢
    refine ⟨hhandles, hstart, h.constructed, fun hc => ?_⟩
    cases hc.symm.trans hs
  · rw [Core.waitForNextUpdate_of_ne hs] at hhandles ⊢
    exact ⟨hhandles, hstart, h.constructed, fun hc hf => Blocked.of_scheduleWait (hnow hc hf)⟩

theorem grant (h : c.Paced t₀) (timestamp : ℤ) (values : List Str) :
    (c.grant timestamp values).Paced t₀ := by
  have hhandles := Handled.grant (c := c) h.handles timestamp values
  by_cases hle : c.sim.now ≤ timestamp - c.timeStart
  · rw [Core.grant_of_le values hle] at hhandles ⊢
    refine ⟨hhandles, h.start_le, h.constructed, fun _ _ => ?_⟩
    apply Blocked.granted (Simulator.mem_schedule.mpr (Or.inl rfl)) rfl
    simp only [Simulator.cancel_now]
    omega
  · rw [Core.grant_of_lt values (by omega)] at hhandles ⊢
    exact ⟨hhandles, h.start_le, h.constructed, fun _ hf => by cases hf⟩

theorem process (h : c.Paced t₀) (timestamp : ℤ) (values : List Str) :
    (c.process timestamp values).Paced t₀ := by
  unfold Core.process
  split
  · exact h
  · split
    · exact ⟨h.handles.scheduleNow _, h.start_le, h.constructed,
        fun hc hf => (h.blocked hc hf).schedule _ _⟩
    · exact h.grant _ _

theorem pop (h : c.Paced t₀) (message : Str) (messages : List Str) :
    (c.pop message messages).Paced t₀ := h

theorem forwardUp (h : c.Paced t₀) : (c.forwardUp D).Paced t₀ := by
  unfold Core.forwardUp
  split
  · exact h.fail _
  · split
    · exact fail (h.pop _ _) _
    · exact process (h.pop _ _) _ _

/-- A wait that is scheduled when the next event has been taken blocks time there. -/
theorem scheduleWait (h : c.Paced t₀) (hn : c.sim.next? = some (e, sim)) :
    (c.advance sim).scheduleWait.Paced t₀ := by
  have hstart := h.start_le_next hn
  have hle := h.next_le hn
  exact ⟨(h.handles.advance hn).overwrite, hstart, h.constructed,
    fun hc hf => Blocked.of_scheduleWait (hle hc hf)⟩

/-- `HandleUpdate` blocks time again when the granted time has been reached. -/
theorem handleUpdate (h : c.Paced t₀) (hn : c.sim.next? = some (e, sim)) {data : List Str}
    (hk : e.kind = .handleUpdate data) : ((c.advance sim).handleUpdate data).Paced t₀ := by
  have hnow := (Simulator.next?_eq_some hn).2.1
  simp only [Core.handleUpdate]
  split
  · exact h.scheduleWait hn
  · rename_i ht
    exact h.advance hn (by simp [hk]) fun _ _ hp => ht (hnow.trans hp)

theorem connect (h : c.Paced t₀) (outcome : ConnectOutcome) : (c.connect outcome).Paced t₀ := by
  rw [Core.connect_of_ne h.constructed]
  exact h.fail _

theorem user (h : c.Paced t₀) (action : UserAction) : (c.user D action).Paced t₀ := by
  refine Core.user_cases c action ?_ ?_ ?_ ?_ ?_
  · intro delay
    exact ⟨h.handles.schedule False.elim, h.start_le, h.constructed,
      fun hc hf => (h.blocked hc hf).schedule _ _⟩
  · exact h
  · exact fun _ => h
  · exact fun e _ => h.fail e
  · exact h.connect

end Core.Paced

theorem paced_preserved (t₀ : ℤ) : Preserved D (Core.Paced t₀) where
  push _ _ h := h
  insert _ _ h := ⟨h.handles.scheduleNow _, h.start_le, h.constructed,
    fun hc hf => (h.blocked hc hf).schedule _ _⟩
  user _ _ h _ := h.user _
  wait _ _ _ h hn _ := h.waitForNextUpdate hn
  forwardUp _ _ _ h _ hn hk :=
    (h.advance hn (by simp [hk]) fun _ hd => by simp [hk] at hd).forwardUp
  doInitialize _ _ _ _ h hn hk := h.advance hn (by simp [hk]) fun _ hd => by simp [hk] at hd
  handleUpdate _ _ _ _ h hn hk := h.handleUpdate hn hk
  leave _ _ _ h hn hk := by
    rcases hk with hk | hk <;>
      exact h.advance hn (by simp [hk]) fun _ hd => by simp [hk] at hd
  halt _ h := ⟨h.handles, h.start_le, by simp, fun hc => by cases hc⟩
  join _ h := h
  close _ h := h
  destroyTaken _ h := h
  cancelEvents c hs h := by
    rw [c.cancelEvents_eq]
    refine ⟨h.handles.cancel _, h.start_le, h.constructed, fun hc => ?_⟩
    cases hc.symm.trans hs

variable {ok : State → Label → Prop} {t₀ : ℤ} {s : State}

theorem paced_connected {sim : Simulator Kind} (hsim : ∀ e ∈ sim.queue, e.kind = .unrelated)
    (ht : sim.now = t₀) (outbound : Outbound) : (State.connected sim outbound).core.Paced t₀ :=
  ⟨handled_connected hsim outbound, ht.ge, by simp [State.connected, Core.connect, Core.construct,
    Core.scheduleWait], fun _ _ => Blocked.of_scheduleWait (ht.le.trans (le_max_left _ _))⟩

theorem Occurs.paced (h : Occurs D ok t₀ s) : s.core.Paced t₀ :=
  h.preserved (paced_preserved t₀) fun _ outbound hsim ht => paced_connected hsim ht outbound

end Ns3Cosim.Gateway
