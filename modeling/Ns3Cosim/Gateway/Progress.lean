import Ns3Cosim.Execution.Work
import Ns3Cosim.Gateway.JoinDeadlock

/-!
# What brings a gateway forward

The reader thread uses up the bytes that it has been given, and each event that
is not a wait is worth more than what it schedules. A wait schedules itself
again, behind everything else that is due. Measures for all three are what an
argument that a run can come to its end rests on.
-/

namespace Ns3Cosim.Gateway

open Words Execution

variable {D : Delimiters} {ok : State → Label → Prop} {t₀ : ℤ} {s s' : State} {l : Label}

section Reader

/-- How far the reader is from waiting for the server, or from its end. -/
def Reader.reading (r : Reader) (available : Str) : ℕ :=
  8 * available.length + match r.pc with
    | .push _ => 6 * r.messageBuffer.length + 6
    | .schedule => 6 * r.messageBuffer.length + 5
    | .test => 6 * r.messageBuffer.length + 4
    | .search receivedData => 6 * receivedData.length + 3
    | .recv receivedData => 6 * receivedData.length + 2
    | .failed => 1
    | .exited => 0

/-- The same for the reader of a state, with the bytes that it has been sent. -/
abbrev State.reading (s : State) : ℕ := s.reader.reading s.conn.available

/-- Outside of `recv` the reader comes nearer with every step. -/
theorem Reader.exists_step_reading {r : Reader} (hrecv : ∀ receivedData, r.pc ≠ .recv receivedData)
    (hpc : r.pc ≠ .exited) (state : GatewayState) (available : Str) :
    ∃ r' effect, r.step D state none = some (r', effect) ∧
      r'.reading available < r.reading available := by
  obtain ⟨pc, messageBuffer⟩ := r
  cases pc with
  | exited => exact absurd rfl hpc
  | recv receivedData => exact absurd rfl (hrecv receivedData)
  | test =>
      by_cases hc : state = .connected
      · exact ⟨⟨.search messageBuffer, messageBuffer⟩, .silent, by simp [step, hc],
          by simp [reading]⟩
      · exact ⟨⟨.exited, messageBuffer⟩, .silent, by simp [step, hc], by simp [reading]⟩
  | search receivedData =>
      cases hfind : find D.delimiterMessage receivedData with
      | none =>
          exact ⟨⟨.recv receivedData, messageBuffer⟩, .silent, by simp [step, hfind],
            by simp [reading]⟩
      | some messageSize =>
          have hle := find_length_le hfind
          have hpos := List.length_pos_iff.mpr D.message_ne
          refine ⟨⟨.push (receivedData.take messageSize),
            receivedData.drop (messageSize + D.delimiterMessage.length)⟩, .silent,
            by simp [step, hfind], ?_⟩
          simp only [reading, List.length_drop]
          omega
  | failed => exact ⟨⟨.exited, messageBuffer⟩, .schedule .stop, rfl, by simp [reading]⟩
  | push message => exact ⟨⟨.schedule, messageBuffer⟩, .push message, rfl, by simp [reading]⟩
  | schedule => exact ⟨⟨.test, messageBuffer⟩, .schedule .forwardUp, rfl, by simp [reading]⟩

/-- The reader can go on: it has not returned, and in `recv` there is something to return. -/
def State.Reads (s : State) : Prop :=
  s.reader.pc ≠ .exited ∧ ∀ receivedData, s.reader.pc = .recv receivedData →
    s.conn.available ≠ [] ∨ s.conn.closed = true

/-- Something to return brings the reader nearer as well. -/
theorem State.Reads.exists_input (h : s.Reads) (hfailed : s.conn.failed = false) :
    ∃ n i r effect, s.input n = some i ∧ s.reader.step D s.core.state i.1 = some (r, effect) ∧
      r.reading i.2.available < s.reading := by
  by_cases hrecv : ∃ receivedData, s.reader.pc = .recv receivedData
  · obtain ⟨receivedData, hpc⟩ := hrecv
    cases havailable : s.conn.available with
    | nil =>
        have hclosed := (h.2 receivedData hpc).resolve_left (not_not.mpr havailable)
        have hresult : s.conn.recv 0 = some (.closed, s.conn) := by
          simp [Connection.recv, hfailed, hclosed, havailable]
        refine ⟨0, (some .closed, s.conn), { s.reader with pc := .failed }, .silent,
          by simp [State.input, hpc, hresult], by simp [Reader.step, hpc], ?_⟩
        simp only [Reader.reading, hpc]
        omega
    | cons c rest =>
        have hresult : s.conn.recv 1 = some (.bytes [c], { s.conn with available := rest }) := by
          simp [Connection.recv, havailable, bufferSize]
        refine ⟨1, (some (.bytes [c]), { s.conn with available := rest }),
          { s.reader with pc := .search (receivedData ++ [c]) }, .silent,
          by simp [State.input, hpc, hresult], by simp [Reader.step, hpc], ?_⟩
        simp only [Reader.reading, hpc, havailable, List.length_append, List.length_cons,
          List.length_nil]
        omega
  · have hrecv : ∀ receivedData, s.reader.pc ≠ .recv receivedData :=
      fun receivedData hpc => hrecv ⟨receivedData, hpc⟩
    obtain ⟨r, effect, hstep, hlt⟩ :=
      Reader.exists_step_reading (D := D) hrecv h.1 s.core.state s.conn.available
    refine ⟨0, (none, s.conn), r, effect, ?_, hstep, hlt⟩
    unfold State.input
    split
    · rename_i hpc
      exact absurd hpc (hrecv _)
    · rfl

/-- A reader that can go on has a step that brings it nearer. -/
theorem State.Reads.exists_step (h : s.Reads) (hf : s.core.fatal = none)
    (hfailed : s.conn.failed = false) :
    ∃ n s', step D s (.reader n) = some s' ∧ s'.reading < s.reading := by
  obtain ⟨n, i, r, effect, hinput, hstep, hlt⟩ := h.exists_input (D := D) hfailed
  obtain ⟨-, hr, hc, -⟩ := State.apply_eq { s with reader := r, conn := i.2 } effect
  refine ⟨n, { s with reader := r, conn := i.2 }.apply effect, ?_, ?_⟩
  · simp only [step, hf, if_true, State.act, State.readerStep, hinput, hstep, Option.bind_some,
      Option.map_some]
  · rw [State.reading, hr, hc]
    exact hlt

end Reader

section Stop

/-- A reader that has returned while the gateway is connected has scheduled `Stop`. -/
def State.StopPending (s : State) : Prop :=
  s.reader.pc = .exited → s.core.state = .connected →
    .stop ∈ s.handoff ∨ ∃ e ∈ s.core.sim.queue, e.kind = .stop

/-- While the gateway is connected the reader does not return in silence. -/
theorem Reader.running_of_silent {r r' : Reader} {result : Option Recv}
    (h : r.step D .connected result = some (r', .silent)) : r'.pc ≠ .exited := by
  intro hexited
  unfold Reader.step at h
  split at h
  · cases h
    cases hexited
  · split at h
    · cases h
      cases hexited
    · cases h
      cases hexited
  · split at h
    · cases h
    all_goals
      cases h
      cases hexited
  all_goals cases h

/-- The reader, the hand-over, the state and the `Stop` events stay as they are. -/
theorem State.StopPending.of_frame (h : s.StopPending) (hr : s'.reader = s.reader)
    (hh : s'.handoff = s.handoff) (hstate : s'.core.state = s.core.state)
    (hevents : ∀ e ∈ s.core.sim.queue, e.kind = .stop → e ∈ s'.core.sim.queue) :
    s'.StopPending := by
  intro hpc hc
  rw [hr] at hpc
  rw [hstate] at hc
  rw [hh]
  obtain hin | ⟨e, he, hk⟩ := h hpc hc
  · exact Or.inl hin
  · exact Or.inr ⟨e, hevents e he hk, hk⟩

theorem State.StopPending.of_stopping (h : s.core.state ≠ .connected) : s.StopPending :=
  fun _ hc => absurd hc h

theorem State.stop_ne_connected (s : State) (destroying : Bool) :
    (s.stop destroying).core.state ≠ .connected := by
  refine State.stop_cases (P := fun s' => s'.core.state ≠ .connected) s destroying ?_ ?_ ?_
  · simp
  · simp [Core.cancelEvents_eq, Core.close]
  · simp [Core.cancelEvents_eq]

theorem State.StopPending.step (h : s.StopPending) (hinv : Handoff s)
    (hj : ∀ b, s.main = .joining b → s.core.state = .stopping)
    (hstep : Gateway.step D s l = some s') : s'.StopPending := by
  have hstay : ∀ e sim, s.core.sim.next? = some (e, sim) → e.kind ≠ .stop →
      ∀ a ∈ s.core.sim.queue, a.kind = .stop → a ∈ sim.queue := by
    intro e sim hn hk a ha hka
    obtain rfl | ha := (Simulator.mem_of_next? hn).mp ha
    · exact absurd hka hk
    · exact ha
  cases Step.of_step hstep with
  | server | resume | drained => exact h
  | silent _ hr =>
      intro hpc hc
      have hconnected : s.core.state = .connected := hc
      rw [hconnected] at hr
      exact absurd hpc (Reader.running_of_silent hr)
  | push | scheduleForwardUp =>
      intro hpc
      cases hpc
  | scheduleStop => exact fun _ _ => Or.inl (List.mem_append_right _ (List.mem_singleton.mpr rfl))
  | @user action =>
      have hframe := Frame.user (D := D) hinv.constructed action
      exact h.of_frame rfl rfl hframe.state fun e he hk => (hframe.events e (Or.inr hk)).mpr he
  | insert _ hin =>
      intro hpc hc
      obtain hstop | ⟨e, he, hk⟩ := h hpc hc
      · rw [hin] at hstop
        obtain rfl | hstop := List.mem_cons.mp hstop
        · exact Or.inr ⟨_, Simulator.mem_scheduleNow.mpr (Or.inl rfl), rfl⟩
        · exact Or.inl hstop
      · exact Or.inr ⟨e, Simulator.mem_scheduleNow.mpr (Or.inr he), hk⟩
  | @wait e sim _ _ hn hk =>
      have hframe := Frame.waitForNextUpdate (c := s.core.advance sim) (hinv.handled.advance hn)
      refine h.of_frame rfl rfl hframe.state fun a ha hka => ?_
      exact (hframe.events a (Or.inr hka)).mpr (hstay e sim hn (by simp [hk]) a ha hka)
  | @forwardUp e sim _ _ hn hk =>
      have hlifecycle := Core.forwardUp_lifecycle (D := D) (c := s.core.advance sim)
      simp only [Core.lifecycle, Prod.mk.injEq] at hlifecycle
      refine h.of_frame rfl rfl hlifecycle.1 fun a ha hka => ?_
      have ha := hstay e sim hn (by simp [hk]) a ha hka
      have hhandled := hinv.handled.advance hn
      have hkeep : a ∈ ((s.core.advance sim).sim.cancel s.core.eventWait).queue :=
        Simulator.mem_cancel.mpr ⟨ha, fun hid => by simp [hhandled.waitKind a ha hid] at hka⟩
      refine Core.forwardUp_cases (P := fun c => a ∈ c.sim.queue) fun c hc => ?_
      cases hc with
      | empty | invalid | terminate => exact ha
      | first => exact Simulator.mem_scheduleNow.mpr (Or.inr ha)
      | update => exact Simulator.mem_schedule.mpr (Or.inr hkeep)
      | past => exact hkeep
  | stop => exact .of_stopping (State.stop_ne_connected _ _)
  | @doInitialize e sim data _ _ hn hk =>
      exact h.of_frame rfl rfl rfl (hstay e sim hn (by simp [hk]))
  | @handleUpdate e sim data _ _ hn hk =>
      have hframe := Frame.handleUpdate (s.core.advance sim) data
      refine h.of_frame rfl rfl hframe.state fun a ha hka => ?_
      exact (hframe.events a (Or.inr hka)).mpr (hstay e sim hn (by simp [hk]) a ha hka)
  | @unrelated e sim _ _ hn hk => exact h.of_frame rfl rfl rfl (hstay e sim hn (by simp [hk]))
  | join hm =>
      apply of_stopping
      rw [State.joined, Core.cancelEvents_eq]
      simp [Core.close, Core.join, hj _ hm]
  | destroy =>
      refine State.destroy_cases s ?_ ?_
      · exact fun _ => .of_stopping (State.stop_ne_connected _ _)
      · exact fun _ => h.of_frame rfl rfl rfl fun _ he _ => he

theorem Occurs.stopPending (h : Occurs D ok t₀ s) : s.StopPending := by
  refine h.induct (fun sim outbound _ _ hpc => ?_) fun s l s' hs ih _ hstep => ?_
  · cases hpc
  · exact ih.step hs.handoff hs.joinsStopping hstep

/-- `Simulator::Destroy` owes a connected gateway its `Stop`, and pays. -/
structure Owed (s : State) : Prop where
  before : s.core.state = .connected → s.core.eventDestroy = true
  after : s.main = .destroyed → s.core.state ≠ .connected

theorem Owed.of_lifecycle (h : Owed s) (hc : s'.core.lifecycle = s.core.lifecycle)
    (hm : s'.main = .destroyed → s.main = .destroyed) : Owed s' := by
  simp only [Core.lifecycle, Prod.mk.injEq] at hc
  obtain ⟨hstate, hdestroy, -⟩ := hc
  constructor
  · rw [hstate, hdestroy]
    exact h.before
  · rw [hstate]
    exact fun hd => h.after (hm hd)

theorem Owed.of_stopping (h : s.core.state ≠ .connected) : Owed s :=
  ⟨fun hc => absurd hc h, fun _ => h⟩

theorem Owed.step (h : Owed s) (hinv : Handoff s)
    (hj : ∀ b, s.main = .joining b → s.core.state = .stopping)
    (hstep : Gateway.step D s l = some s') : Owed s' := by
  cases Step.of_step hstep with
  | server | silent | push | scheduleForwardUp | scheduleStop => exact h.of_lifecycle rfl id
  | user => exact h.of_lifecycle (Core.user_lifecycle hinv.constructed _) id
  | resume | insert | drained | doInitialize | unrelated =>
      exact h.of_lifecycle rfl fun hm => by simp_all
  | wait => exact h.of_lifecycle Core.waitForNextUpdate_lifecycle fun hm => by cases hm
  | forwardUp => exact h.of_lifecycle Core.forwardUp_lifecycle fun hm => by cases hm
  | handleUpdate => exact h.of_lifecycle (Core.handleUpdate_lifecycle _) fun hm => by cases hm
  | stop => exact .of_stopping (State.stop_ne_connected _ _)
  | join hm =>
      apply of_stopping
      rw [State.joined, Core.cancelEvents_eq]
      simp [Core.close, Core.join, hj _ hm]
  | destroy =>
      refine State.destroy_cases s ?_ ?_
      · exact fun _ => .of_stopping (State.stop_ne_connected _ _)
      · intro hnone
        have hne : s.core.state ≠ .connected := by
          intro hc
          rw [h.before hc] at hnone
          cases hnone
        exact .of_stopping (s := { s with main := .destroyed }) hne

/-- When the main thread is through, the gateway has been stopped. -/
theorem Occurs.stopping_of_destroyed (h : Occurs D ok t₀ s) (hm : s.main = .destroyed) :
    s.core.state = .stopping := by
  have howed : Owed s := by
    refine h.induct (P := Owed) (fun sim outbound _ _ => ⟨fun _ => rfl, fun hd => by cases hd⟩)
      fun s l s' hs ih _ hstep => ih.step hs.handoff hs.joinsStopping hstep
  cases hc : s.core.state with
  | created => exact absurd hc h.handoff.constructed
  | connected => exact absurd hc (howed.after hm)
  | stopping => rfl

end Stop

section Measure

variable {c : Core} {e : Event Kind} {sim : Simulator Kind}

section Weight

variable (weight : Kind → ℕ)

theorem Core.work_cancelEvents_le (c : Core) :
    c.cancelEvents.sim.work weight ≤ c.sim.work weight := by
  rw [c.cancelEvents_eq]
  exact Simulator.work_cancel_le _ _ _

/-- Waits that weigh nothing. -/
theorem Core.work_waitForNextUpdate_le (hwait : weight .waitForNextUpdate = 0) (c : Core) :
    c.waitForNextUpdate.sim.work weight ≤ c.sim.work weight := by
  by_cases hs : c.state = .stopping
  · rw [Core.waitForNextUpdate_of_stopping hs]
  · rw [Core.waitForNextUpdate_of_ne hs]
    simp only [Simulator.work_scheduleNow, hwait, Nat.zero_add]
    exact Simulator.work_cancel_le _ _ _

/-- User code schedules one event of its own at most. -/
theorem Core.work_user_le (hwait : weight .waitForNextUpdate = 0) (c : Core)
    (action : UserAction) :
    (c.user D action).sim.work weight ≤ c.sim.work weight + weight .unrelated := by
  refine Core.user_cases (P := fun c' => c'.sim.work weight ≤ _) c action ?_ ?_ ?_ ?_ ?_
  · intro delay
    rw [Simulator.work_schedule, Nat.add_comm]
  · exact Nat.le_add_right _ _
  · exact fun _ => Nat.le_add_right _ _
  · exact fun _ _ => Nat.le_add_right _ _
  · intro outcome
    unfold Core.connect
    split
    · exact Nat.le_add_right _ _
    · cases outcome with
      | connected =>
          simp only [Core.scheduleWait, Simulator.work_scheduleNow, hwait, Nat.zero_add]
          exact Nat.le_add_right _ _
      | socketNotCreated | addressNotResolved | connectionRefused => exact Nat.le_add_right _ _

theorem Core.work_handleUpdate_le (hwait : weight .waitForNextUpdate = 0) (c : Core)
    (data : List Str) : (c.handleUpdate data).sim.work weight ≤ c.sim.work weight := by
  simp only [Core.handleUpdate]
  split
  · simp only [Core.scheduleWait, Simulator.work_scheduleNow, hwait, Nat.zero_add, le_refl]
  · exact le_rfl

/-- `ForwardUp` schedules one callback at most. -/
theorem Core.work_forwardUp_le {w : ℕ} (hfirst : ∀ data, weight (.doInitialize data) ≤ w)
    (hupdate : ∀ data, weight (.handleUpdate data) ≤ w) (c : Core) :
    (c.forwardUp D).sim.work weight ≤ c.sim.work weight + w := by
  refine Core.forwardUp_cases (P := fun c' => c'.sim.work weight ≤ _) fun c' hc' => ?_
  cases hc' with
  | empty | invalid | terminate => exact Nat.le_add_right _ _
  | @first _ _ _ values =>
      have hle := hfirst values
      rw [Simulator.work_scheduleNow]
      omega
  | @update _ _ _ values =>
      have hle := hupdate values
      have hcancel := Simulator.work_cancel_le weight c.sim c.eventWait
      rw [Simulator.work_schedule]
      omega
  | past => exact (Simulator.work_cancel_le _ _ _).trans (Nat.le_add_right _ _)

/-- What `Gateway::Stop` leaves of the pending work, and where it leaves the main thread. -/
theorem State.stop_progress (s : State) (destroying : Bool) :
    (s.stop destroying).core.sim.work weight ≤ s.core.sim.work weight ∧
      (s.stop destroying).handoff = s.handoff ∧
      ((s.stop destroying).main = .joining destroying ∨
        (s.stop destroying).main = .afterStop destroying) := by
  refine State.stop_cases (P := fun s' => s'.core.sim.work weight ≤ s.core.sim.work weight ∧
    s'.handoff = s.handoff ∧ (s'.main = .joining destroying ∨ s'.main = .afterStop destroying))
    s destroying ?_ ?_ ?_
  · exact fun _ _ => ⟨le_rfl, rfl, Or.inl rfl⟩
  · exact ⟨Core.work_cancelEvents_le weight _, rfl, Or.inr rfl⟩
  · exact ⟨Core.work_cancelEvents_le weight _, rfl, Or.inr rfl⟩

end Weight

/-- An event that holds simulation time. -/
abbrev Kind.IsWait (kind : Kind) : Prop := kind = .waitForNextUpdate

/-- The waits at the front of the event list. -/
abbrev Core.waits (c : Core) : ℕ := c.sim.front Kind.IsWait

/-- A wait that runs brings no more of its kind to the front. -/
theorem Core.waits_waitForNextUpdate (hh : c.Handled) (hn : c.sim.next? = some (e, sim))
    (hk : e.kind = .waitForNextUpdate) : (c.advance sim).waitForNextUpdate.waits ≤ c.waits := by
  have hfront := Simulator.front_next (P := Kind.IsWait) hn hk
  have hhandled : Handles sim c.eventWait := hh.advance hn
  have hcancel := Simulator.front_cancel_le (P := Kind.IsWait) hhandled.waitKind
  by_cases hs : (c.advance sim).state = .stopping
  · rw [Core.waitForNextUpdate_of_stopping hs]
    exact (Nat.le_succ _).trans hfront.ge
  · rw [Core.waitForNextUpdate_of_ne hs]
    have hinsert := Simulator.front_schedule_le (P := Kind.IsWait)
      (sim.cancel c.eventWait) 0 .waitForNextUpdate
    exact (hinsert.trans (Nat.succ_le_succ hcancel)).trans hfront.ge

/-- It goes behind every other event that is due, and in a gateway that stops it does not come
back. -/
theorem Core.waits_waitForNextUpdate_lt (hh : c.Handled) (hn : c.sim.next? = some (e, sim))
    (hk : e.kind = .waitForNextUpdate)
    (hdue : c.state = .stopping ∨
      ∃ a ∈ c.sim.queue, a.kind ≠ .waitForNextUpdate ∧ a.time = c.sim.now) :
    (c.advance sim).waitForNextUpdate.waits < c.waits := by
  have hfront := Simulator.front_next (P := Kind.IsWait) hn hk
  have hhandled : Handles sim c.eventWait := hh.advance hn
  have hcancel := Simulator.front_cancel_le (P := Kind.IsWait) hhandled.waitKind
  by_cases hs : (c.advance sim).state = .stopping
  · rw [Core.waitForNextUpdate_of_stopping hs]
    exact (Nat.lt_succ_self _).trans_le hfront.ge
  · obtain ⟨a, ha, hka, hnow⟩ := hdue.resolve_left hs
    have hmem : a ∈ sim.queue := by
      obtain rfl | ha := (Simulator.mem_of_next? hn).mp ha
      · exact absurd hk hka
      · exact ha
    have htime : a.time = sim.now := by
      rw [(Simulator.next?_eq_some hn).2.1, Simulator.time_eq_of_pending hn ha hnow, hnow]
    have hkeep : a ∈ (sim.cancel c.eventWait).queue :=
      Simulator.mem_cancel.mpr ⟨hmem, fun hid => hka (hhandled.waitKind a hmem hid)⟩
    rw [Core.waitForNextUpdate_of_ne hs]
    have hdelay : a.time ≤ (sim.cancel c.eventWait).now + (0 : ℕ) := by simp [htime]
    have hinsert :=
      Simulator.front_schedule_of_mem (P := Kind.IsWait) hkeep hka hdelay .waitForNextUpdate
    exact (Nat.lt_succ_of_le (hinsert.trans hcancel)).trans_le hfront.ge

end Measure

end Ns3Cosim.Gateway
