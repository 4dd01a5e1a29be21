import Ns3Cosim.Gateway.Handoff

/-!
# Wait events whose handle was overwritten

`HandleUpdate` overwrites `m_eventWait` without cancelling the event it refers
to. A pending wait that `m_eventWait` no longer refers to is harmless while it
is absorbed by the next `WaitForNextUpdate`; it freezes time when a `ForwardUp`
ahead of it grants an advance, since that `ForwardUp` cancels the new wait only.
-/

namespace Ns3Cosim.Gateway

open Execution

variable {D : Delimiters}

/-- Whether `ForwardUp` grants time beyond `now` when it takes this message as an update. -/
def grantsBeyond (D : Delimiters) (timeStart now : ℤ) (message : Str) : Bool :=
  match readMessage D message with
  | .ok (timestamp, _) => now < timestamp - timeStart
  | .error _ => false

/-- The number of `ForwardUp` events that run before the given event. -/
def forwardUpsAhead (sim : Simulator Kind) (w : Event Kind) : ℕ :=
  sim.queue.countP fun a => a.kind = .forwardUp ∧ a.Before w

section ForwardUpsAhead

variable {sim sim' : Simulator Kind} {w e : Event Kind}

theorem forwardUpsAhead_le (sim : Simulator Kind) (w : Event Kind) :
    forwardUpsAhead sim w ≤ forwardUps sim := by
  refine List.countP_mono_left fun a _ ha => ?_
  exact decide_eq_true (of_decide_eq_true ha).1

/-- An event inserted now runs after everything that is pending now. -/
theorem forwardUpsAhead_scheduleNow (hw : w ∈ sim.queue) (hnow : w.time = sim.now) (kind : Kind) :
    forwardUpsAhead (sim.scheduleNow kind) w = forwardUpsAhead sim w := by
  have hlast : ¬ (⟨sim.now, sim.nextUid, kind⟩ : Event Kind).Before w := by
    have hfresh := sim.fresh w hw
    simp only [Event.Before]
    omega
  unfold forwardUpsAhead Simulator.scheduleNow
  rw [(sim.schedule_perm 0 kind).countP_eq, List.countP_cons]
  simp [hlast]

theorem forwardUpsAhead_schedule (sim : Simulator Kind) (delay : ℕ) {kind : Kind}
    (hk : kind ≠ .forwardUp) (w : Event Kind) :
    forwardUpsAhead (sim.schedule delay kind) w = forwardUpsAhead sim w := by
  unfold forwardUpsAhead
  rw [(sim.schedule_perm delay kind).countP_eq, List.countP_cons]
  simp [hk]

theorem forwardUpsAhead_cancel {eventWait : EventId} (h : Handles sim eventWait)
    (w : Event Kind) : forwardUpsAhead (sim.cancel eventWait) w = forwardUpsAhead sim w := by
  unfold forwardUpsAhead Simulator.cancel
  rw [List.countP_filter]
  refine List.countP_congr fun e he => ?_
  simp only [Bool.and_eq_true, decide_eq_true_eq, ne_eq, and_iff_left_iff_imp, and_imp]
  intro hk _ hw
  rw [h.waitKind e he hw] at hk
  cases hk

/-- The event that runs next is ahead of all others. -/
theorem forwardUpsAhead_next (hn : sim.next? = some (e, sim')) (hw : w ∈ sim'.queue) :
    forwardUpsAhead sim w = forwardUpsAhead sim' w + if e.kind = .forwardUp then 1 else 0 := by
  unfold forwardUpsAhead
  rw [(Simulator.next?_eq_some hn).1, List.countP_cons]
  simp [Simulator.before_of_next? hn hw]

end ForwardUpsAhead

/-- A wait event is pending that `m_eventWait` does not refer to. -/
def Orphan (sim : Simulator Kind) (eventWait : EventId) (w : Event Kind) : Prop :=
  w ∈ sim.queue ∧ w.kind = .waitForNextUpdate ∧ eventWait ≠ some w.uid

/-- The invariant of runs without an overtaken wait: no `ForwardUp` ahead of an orphan grants an
advance, and while an advance is granted no wait is pending. -/
structure Absorbed (D : Delimiters) (sim : Simulator Kind) (eventWait : EventId)
    (timeStart timePause : ℤ) (messageQueue : List Str) : Prop where
  updateStarted : ∀ e ∈ sim.queue, e.kind.isHandleUpdate = true → 0 ≤ timeStart
  orphanStarted : ∀ w, Orphan sim eventWait w → 0 ≤ timeStart
  orphanBehind : ∀ w, Orphan sim eventWait w →
    ∀ message ∈ messageQueue.take (forwardUpsAhead sim w),
      grantsBeyond D timeStart sim.now message = false
  free : sim.now < timePause → (∃ e ∈ sim.queue, e.kind.isHandleUpdate = true) →
    ∀ w ∈ sim.queue, w.kind ≠ .waitForNextUpdate

/-- `Absorbed` of the main thread's side. -/
def Core.Absorbed (D : Delimiters) (c : Core) : Prop :=
  Gateway.Absorbed D c.sim c.eventWait c.timeStart c.timePause c.messageQueue

namespace Absorbed

variable {sim sim' : Simulator Kind} {eventWait : EventId} {timeStart timePause : ℤ}
  {messageQueue : List Str} {e w : Event Kind}

theorem push (h : Absorbed D sim eventWait timeStart timePause messageQueue)
    (hlen : forwardUps sim ≤ messageQueue.length) (message : Str) :
    Absorbed D sim eventWait timeStart timePause (messageQueue ++ [message]) := by
  refine ⟨h.updateStarted, h.orphanStarted, fun w hw => ?_, h.free⟩
  rw [List.take_append_of_le_length ((forwardUpsAhead_le sim w).trans hlen)]
  exact h.orphanBehind w hw

/-- An event that is neither a wait nor an update, at the current time or none of `ForwardUp`. -/
theorem schedule (h : Absorbed D sim eventWait timeStart timePause messageQueue)
    (hh : Handles sim eventWait) {delay : ℕ} {kind : Kind} (hwait : kind ≠ .waitForNextUpdate)
    (hupdate : kind.isHandleUpdate = false) (hdelay : delay = 0 ∨ kind ≠ .forwardUp) :
    Absorbed D (sim.schedule delay kind) eventWait timeStart timePause messageQueue := by
  have horphan : ∀ w, Orphan (sim.schedule delay kind) eventWait w → Orphan sim eventWait w := by
    rintro w ⟨hw, hk, hid⟩
    obtain rfl | hw := Simulator.mem_schedule.mp hw
    · exact absurd hk hwait
    · exact ⟨hw, hk, hid⟩
  have hupdates : ∀ e ∈ (sim.schedule delay kind).queue, e.kind.isHandleUpdate = true →
      e ∈ sim.queue := by
    intro e he hk
    obtain rfl | he := Simulator.mem_schedule.mp he
    · simp [hupdate] at hk
    · exact he
  refine ⟨fun e he hk => h.updateStarted e (hupdates e he hk) hk,
    fun w hw => h.orphanStarted w (horphan w hw), fun w hw => ?_, ?_⟩
  · have hahead : forwardUpsAhead (sim.schedule delay kind) w = forwardUpsAhead sim w := by
      obtain rfl | hk := hdelay
      · have hold := horphan w hw
        refine forwardUpsAhead_scheduleNow hold.1 (hh.immediate w hold.1 ?_) kind
        simp [hold.2.1, Kind.Immediate]
      · exact forwardUpsAhead_schedule sim delay hk w
    rw [hahead]
    exact h.orphanBehind w (horphan w hw)
  · rintro hnow ⟨e, he, hk⟩ w hw hkw
    obtain rfl | hw := Simulator.mem_schedule.mp hw
    · exact hwait hkw
    · exact h.free hnow ⟨e, hupdates e he hk, hk⟩ w hw hkw

theorem cancel (h : Absorbed D sim eventWait timeStart timePause messageQueue)
    (hh : Handles sim eventWait) :
    Absorbed D (sim.cancel eventWait) eventWait timeStart timePause messageQueue := by
  have hsub : ∀ e ∈ (sim.cancel eventWait).queue, e ∈ sim.queue :=
    fun e he => (Simulator.mem_cancel.mp he).1
  have horphan : ∀ w, Orphan (sim.cancel eventWait) eventWait w → Orphan sim eventWait w :=
    fun w hw => ⟨hsub w hw.1, hw.2⟩
  refine ⟨fun e he => h.updateStarted e (hsub e he),
    fun w hw => h.orphanStarted w (horphan w hw), fun w hw => ?_, ?_⟩
  · rw [forwardUpsAhead_cancel hh]
    exact h.orphanBehind w (horphan w hw)
  · rintro hnow ⟨e, he, hk⟩ w hw
    exact h.free hnow ⟨e, hsub e he, hk⟩ w (hsub w hw)

/-- An orphan holds the time, so nothing changes when another event is taken. -/
theorem now_eq_of_orphan (hh : Handles sim eventWait) (hn : sim.next? = some (e, sim'))
    (hw : Orphan sim' eventWait w) : sim'.now = sim.now := by
  have hmem := (Simulator.mem_of_next? hn).mpr (Or.inr hw.1)
  rw [(Simulator.next?_eq_some hn).2.1]
  refine Simulator.time_eq_of_pending hn hmem (hh.immediate w hmem ?_)
  simp [hw.2.1, Kind.Immediate]

theorem advance (h : Absorbed D sim eventWait timeStart timePause messageQueue)
    (hh : Handles sim eventWait) (hn : sim.next? = some (e, sim')) (hk : e.kind ≠ .forwardUp) :
    Absorbed D sim' eventWait timeStart timePause messageQueue := by
  have hsub : ∀ a ∈ sim'.queue, a ∈ sim.queue :=
    fun a ha => (Simulator.mem_of_next? hn).mpr (Or.inr ha)
  have horphan : ∀ w, Orphan sim' eventWait w → Orphan sim eventWait w :=
    fun w hw => ⟨hsub w hw.1, hw.2⟩
  have hle : sim.now ≤ sim'.now := by
    rw [(Simulator.next?_eq_some hn).2.1]
    exact Simulator.now_le_of_next? hn
  refine ⟨fun e he => h.updateStarted e (hsub e he),
    fun w hw => h.orphanStarted w (horphan w hw), fun w hw => ?_, ?_⟩
  · have hahead : forwardUpsAhead sim w = forwardUpsAhead sim' w := by
      simpa [hk] using forwardUpsAhead_next hn hw.1
    rw [now_eq_of_orphan hh hn hw, ← hahead]
    exact h.orphanBehind w (horphan w hw)
  · rintro hnow ⟨e, he, hk⟩ w hw
    exact h.free (hle.trans_lt hnow) ⟨e, hsub e he, hk⟩ w (hsub w hw)

/-- `ForwardUp` has been taken and pops its message: what is ahead of an orphan shrinks by both. -/
theorem take (h : Absorbed D sim eventWait timeStart timePause (message :: messageQueue))
    (hh : Handles sim eventWait) (hn : sim.next? = some (e, sim')) (hk : e.kind = .forwardUp) :
    Absorbed D sim' eventWait timeStart timePause messageQueue ∧
      ∀ w, Orphan sim' eventWait w → grantsBeyond D timeStart sim'.now message = false := by
  have hsub : ∀ a ∈ sim'.queue, a ∈ sim.queue :=
    fun a ha => (Simulator.mem_of_next? hn).mpr (Or.inr ha)
  have horphan : ∀ w, Orphan sim' eventWait w → Orphan sim eventWait w :=
    fun w hw => ⟨hsub w hw.1, hw.2⟩
  have hahead : ∀ w ∈ sim'.queue, forwardUpsAhead sim w = forwardUpsAhead sim' w + 1 :=
    fun w hw => by simpa [hk] using forwardUpsAhead_next hn hw
  have hle : sim.now ≤ sim'.now := by
    rw [(Simulator.next?_eq_some hn).2.1]
    exact Simulator.now_le_of_next? hn
  have hbehind : ∀ w, Orphan sim' eventWait w →
      ∀ a ∈ message :: messageQueue.take (forwardUpsAhead sim' w),
        grantsBeyond D timeStart sim'.now a = false := by
    intro w hw
    have hold := h.orphanBehind w (horphan w hw)
    rw [hahead w hw.1, List.take_succ_cons] at hold
    rw [now_eq_of_orphan hh hn hw]
    exact hold
  refine ⟨⟨fun e he => h.updateStarted e (hsub e he),
    fun w hw => h.orphanStarted w (horphan w hw), fun w hw => ?_, ?_⟩, fun w hw => ?_⟩
  · exact fun a ha => hbehind w hw a (List.mem_cons_of_mem _ ha)
  · rintro hnow ⟨e, he, hk⟩ w hw
    exact h.free (hle.trans_lt hnow) ⟨e, hsub e he, hk⟩ w (hsub w hw)
  · exact hbehind w hw message List.mem_cons_self

/-- A new wait event at a time that is not granted away. Where the old one is still pending, it
becomes an orphan. -/
theorem scheduleWait (h : Absorbed D sim eventWait timeStart timePause messageQueue)
    (hh : Handles sim eventWait)
    (hold : ∀ w ∈ sim.queue, eventWait = some w.uid → 0 ≤ timeStart ∧
      ∀ message ∈ messageQueue.take (forwardUpsAhead sim w),
        grantsBeyond D timeStart sim.now message = false)
    (hpause : ¬ (sim.now < timePause ∧ ∃ e ∈ sim.queue, e.kind.isHandleUpdate = true)) :
    Absorbed D (sim.scheduleNow .waitForNextUpdate) (some sim.nextUid) timeStart timePause
      messageQueue := by
  have horphan : ∀ w, Orphan (sim.scheduleNow .waitForNextUpdate) (some sim.nextUid) w →
      w ∈ sim.queue ∧ w.kind = .waitForNextUpdate := by
    rintro w ⟨hw, hk, hid⟩
    obtain rfl | hw := Simulator.mem_scheduleNow.mp hw
    · exact absurd rfl hid
    · exact ⟨hw, hk⟩
  have hupdates : ∀ e ∈ (sim.scheduleNow .waitForNextUpdate).queue,
      e.kind.isHandleUpdate = true → e ∈ sim.queue := by
    intro e he hk
    obtain rfl | he := Simulator.mem_scheduleNow.mp he
    · cases hk
    · exact he
  refine ⟨fun e he hk => h.updateStarted e (hupdates e he hk) hk, fun w hw => ?_, fun w hw => ?_,
    ?_⟩
  · obtain ⟨hmem, hk⟩ := horphan w hw
    by_cases hid : eventWait = some w.uid
    · exact (hold w hmem hid).1
    · exact h.orphanStarted w ⟨hmem, hk, hid⟩
  · obtain ⟨hmem, hk⟩ := horphan w hw
    have himmediate := hh.immediate w hmem (by simp [hk, Kind.Immediate])
    rw [forwardUpsAhead_scheduleNow hmem himmediate]
    by_cases hid : eventWait = some w.uid
    · exact (hold w hmem hid).2
    · exact h.orphanBehind w ⟨hmem, hk, hid⟩
  · rintro hnow ⟨e, he, hk⟩
    exact absurd ⟨hnow, e, hupdates e he hk, hk⟩ hpause

/-- The first message sets `m_timeStart`; nothing that depends on it is pending yet. -/
theorem first (h : Absorbed D sim eventWait timeStart timePause messageQueue)
    (hstart : timeStart < 0) (timestamp : ℤ) :
    Absorbed D sim eventWait timestamp timePause messageQueue := by
  have hnone : ∀ w, ¬ Orphan sim eventWait w :=
    fun w hw => absurd (h.orphanStarted w hw) (not_le.mpr hstart)
  refine ⟨fun e he hk => absurd (h.updateStarted e he hk) (not_le.mpr hstart),
    fun w hw => absurd hw (hnone w), fun w hw => absurd hw (hnone w), h.free⟩

/-- `ForwardUp` grants an advance. By `take` no orphan is left when the advance is a real one, and
the other wait is cancelled. -/
theorem grant (h : Absorbed D sim eventWait timeStart timePause messageQueue)
    (hh : Handles sim eventWait) (hstart : 0 ≤ timeStart) {time : ℤ} {data : List Str}
    (hfree : sim.now < time → ∀ w, ¬ Orphan sim eventWait w) :
    Absorbed D ((sim.cancel eventWait).schedule (time - sim.now).toNat (.handleUpdate data))
      eventWait timeStart time messageQueue := by
  have hcancel := h.cancel hh
  have hmem : ∀ w ∈ ((sim.cancel eventWait).schedule (time - sim.now).toNat
      (.handleUpdate data)).queue,
        w.kind = .waitForNextUpdate → w ∈ (sim.cancel eventWait).queue := by
    intro w hw hk
    obtain rfl | hw := Simulator.mem_schedule.mp hw
    · cases hk
    · exact hw
  refine ⟨fun _ _ _ => hstart, fun _ _ => hstart, fun w hw => ?_, fun hnow _ w hw hk => ?_⟩
  · rw [forwardUpsAhead_schedule _ _ (by simp)]
    exact hcancel.orphanBehind w ⟨hmem w hw.1 hw.2.1, hw.2⟩
  · obtain ⟨hw, hid⟩ := Simulator.mem_cancel.mp (hmem w hw hk)
    exact hfree hnow w ⟨hw, hk, hid⟩

end Absorbed

/-- `HandleUpdate` does not overwrite the handle of a wait event that stands behind the `ForwardUp`
of a message which grants an advance. -/
def KeepsWait (D : Delimiters) (s : State) : Label → Prop
  | .event => ∀ p ∈ s.core.sim.next?, p.1.kind.isHandleUpdate = true →
      p.1.time = s.core.timePause → ∀ w ∈ p.2.queue, s.core.eventWait = some w.uid →
        ∀ message ∈ s.core.messageQueue.take (forwardUpsAhead p.2 w),
          grantsBeyond D s.core.timeStart p.1.time message = false
  | _ => True

instance (s : State) (l : Label) : Decidable (KeepsWait D s l) :=
  match l with
  | .event => by unfold KeepsWait; infer_instance
  | .server _ | .reader _ | .user _ | .resume | .drain | .join | .destroy => .isTrue trivial

namespace Core.Absorbed

variable {c : Core} {e : Event Kind} {sim : Simulator Kind}

theorem cancelEvents (h : c.Absorbed D) (hh : c.Handled) : c.cancelEvents.Absorbed D := by
  rw [c.cancelEvents_eq]
  exact Gateway.Absorbed.cancel h hh

theorem user (h : c.Absorbed D) (hh : c.Handled) (hc : c.state ≠ .created) (action : UserAction) :
    (c.user D action).Absorbed D := by
  refine Core.user_cases c action ?_ ?_ ?_ ?_ ?_
  · exact fun _ => Gateway.Absorbed.schedule h hh (by simp) rfl (Or.inr (by simp))
  · exact h
  · exact fun _ => h
  · exact fun _ _ => h
  · intro outcome
    rw [Core.connect_of_ne hc]
    exact h

/-- `WaitForNextUpdate` runs only while no advance is granted. -/
theorem waitForNextUpdate (h : c.Absorbed D) (hh : c.Handled) (hn : c.sim.next? = some (e, sim))
    (hk : e.kind = .waitForNextUpdate) : (c.advance sim).waitForNextUpdate.Absorbed D := by
  have hadvance : (c.advance sim).Absorbed D :=
    Gateway.Absorbed.advance h hh hn (by simp [hk])
  have hhandles : Handles sim c.eventWait := Handles.advance hh hn
  by_cases hs : (c.advance sim).state = .stopping
  · rw [Core.waitForNextUpdate_of_stopping hs]
    exact hadvance
  · rw [Core.waitForNextUpdate_of_ne hs]
    refine Gateway.Absorbed.scheduleWait (Gateway.Absorbed.cancel hadvance hhandles)
      (hhandles.cancel _) (fun w hw hid => ?_) ?_
    · exact absurd hid (Simulator.mem_cancel.mp hw).2
    · rintro ⟨hnow, a, ha, hka⟩
      have hmem : a ∈ c.sim.queue :=
        (Simulator.mem_of_next? hn).mpr (Or.inr (Simulator.mem_cancel.mp ha).1)
      have hle : c.sim.now ≤ sim.now := by
        rw [(Simulator.next?_eq_some hn).2.1]
        exact Simulator.now_le_of_next? hn
      exact h.free (hle.trans_lt hnow) ⟨a, hmem, hka⟩ e
        ((Simulator.mem_of_next? hn).mpr (Or.inl rfl)) hk

theorem forwardUp (h : c.Absorbed D) (hh : c.Handled) (hn : c.sim.next? = some (e, sim))
    (hk : e.kind = .forwardUp) (hne : c.messageQueue ≠ []) :
    ((c.advance sim).forwardUp D).Absorbed D := by
  have htake : ∀ {message messages}, (c.advance sim).messageQueue = message :: messages →
      Gateway.Absorbed D sim c.eventWait c.timeStart c.timePause messages ∧
        ∀ w, Orphan sim c.eventWait w → grantsBeyond D c.timeStart sim.now message = false := by
    intro message messages hq
    have h' : Gateway.Absorbed D c.sim c.eventWait c.timeStart c.timePause (message :: messages) :=
      hq ▸ h
    exact h'.take hh hn hk
  have hhandles : Handles sim c.eventWait := Handles.advance hh hn
  refine Core.forwardUp_cases fun c' hc' => ?_
  cases hc' with
  | empty hq => exact absurd hq hne
  | invalid hq => exact (htake hq).1
  | terminate hq => exact (htake hq).1
  | first hq _ _ hstart =>
      exact ((htake hq).1.schedule hhandles (by simp) rfl (Or.inl rfl)).first hstart _
  | update hq hr _ hstart hle =>
      obtain ⟨htaken, hgrants⟩ := htake hq
      refine htaken.grant hhandles hstart fun hnow w hw => ?_
      have hno := hgrants w hw
      simp only [grantsBeyond, hr, decide_eq_false_iff_not] at hno
      exact hno hnow
  | past hq _ _ _ hlt =>
      have hcancel := (htake hq).1.cancel hhandles
      exact ⟨hcancel.updateStarted, hcancel.orphanStarted, hcancel.orphanBehind,
        fun hnow => absurd hnow (lt_asymm hlt)⟩

/-- `HandleUpdate` may leave an orphan, but none that a grant would overtake. -/
theorem handleUpdate (h : c.Absorbed D) (hh : c.Handled) (hn : c.sim.next? = some (e, sim))
    {data : List Str} (hk : e.kind = .handleUpdate data)
    (hkeeps : e.time = c.timePause → ∀ w ∈ sim.queue, c.eventWait = some w.uid →
      ∀ message ∈ c.messageQueue.take (forwardUpsAhead sim w),
        grantsBeyond D c.timeStart e.time message = false) :
    ((c.advance sim).handleUpdate data).Absorbed D := by
  have hadvance : (c.advance sim).Absorbed D :=
    Gateway.Absorbed.advance h hh hn (by simp [hk])
  have hnow := (Simulator.next?_eq_some hn).2.1
  have hstart : 0 ≤ c.timeStart :=
    h.updateStarted e ((Simulator.mem_of_next? hn).mpr (Or.inl rfl))
      (by simp [hk, Kind.isHandleUpdate])
  simp only [Core.handleUpdate]
  split
  · rename_i heq
    have heq : sim.now = c.timePause := heq
    refine Gateway.Absorbed.scheduleWait hadvance (Handles.advance hh hn) (fun w hw hid => ?_) ?_
    · refine ⟨hstart, fun message hm => ?_⟩
      have hno := hkeeps (hnow ▸ heq) w hw hid message hm
      exact hnow ▸ hno
    · rintro ⟨hlt, -⟩
      exact absurd heq hlt.ne
  · exact hadvance

end Core.Absorbed

variable {s s' : State} {l : Label}

theorem State.stop_absorbed {destroying : Bool} (h : s.core.Absorbed D) (hh : s.core.Handled) :
    (s.stop destroying).core.Absorbed D := by
  have hhalt : Core.Absorbed D { s.core with state := .stopping } := h
  have hhandled : Core.Handled { s.core with state := .stopping } := hh
  refine State.stop_cases s destroying ?_ ?_ ?_
  · intro _ _
    exact hhalt
  · exact Core.Absorbed.cancelEvents (c := Core.close _) hhalt hhandled.close
  · exact hhalt.cancelEvents hhandled

theorem Core.Absorbed.step (h : s.core.Absorbed D) (hinv : Handoff s) (hok : KeepsWait D s l)
    (hstep : step D s l = some s') : s'.core.Absorbed D := by
  have hh := hinv.handled
  cases Step.of_step hstep with
  | server | silent | scheduleForwardUp | scheduleStop | resume | drained => exact h
  | push =>
      refine Gateway.Absorbed.push h ?_ _
      have hcount := hinv.count
      simp only [State.scheduled] at hcount
      omega
  | user => exact h.user hh hinv.constructed _
  | insert _ hin =>
      obtain rfl | rfl := hinv.kinds _ (hin ▸ List.mem_cons_self)
      · exact Gateway.Absorbed.schedule h hh (by simp) rfl (Or.inl rfl)
      · exact Gateway.Absorbed.schedule h hh (by simp) rfl (Or.inl rfl)
  | wait _ _ hn hk => exact h.waitForNextUpdate hh hn hk
  | forwardUp _ _ hn hk =>
      obtain ⟨message, messages, hq, -⟩ := hinv.take hn hk
      exact h.forwardUp hh hn hk (by simp [hq])
  | stop _ _ hn hk =>
      exact State.stop_absorbed (s := { s with core := s.core.advance _ })
        (Gateway.Absorbed.advance h hh hn (by simp [hk])) (hh.advance hn)
  | doInitialize _ _ hn hk => exact Gateway.Absorbed.advance h hh hn (by simp [hk])
  | handleUpdate _ _ hn hk =>
      refine h.handleUpdate hh hn hk fun heq w hw hid message hm => ?_
      exact hok _ (Option.mem_def.mpr hn) (by simp [hk, Kind.isHandleUpdate]) heq w hw hid message hm
  | unrelated _ _ hn hk => exact Gateway.Absorbed.advance h hh hn (by simp [hk])
  | join => exact Core.Absorbed.cancelEvents (c := s.core.join.close) h hh
  | destroy =>
      refine State.destroy_cases s ?_ ?_
      · intro _
        exact State.stop_absorbed (s := { s with core.eventDestroy := false }) h hh
      · intro _
        exact h

variable {t₀ : ℤ}

theorem Occurs.absorbed (h : Occurs D (KeepsWait D) t₀ s) : s.core.Absorbed D := by
  refine h.induct (P := fun s => s.core.Absorbed D) (fun sim outbound hsim _ => ?_)
    fun _ _ _ hs hinv hok hstep => hinv.step hs.handoff hok hstep
  have hwait : ∀ e ∈ (State.connected sim outbound).core.sim.queue,
      e.kind.isHandleUpdate = false ∧ ¬ Orphan (State.connected sim outbound).core.sim
        (State.connected sim outbound).core.eventWait e := by
    intro e he
    obtain rfl | he := Simulator.mem_scheduleNow.mp he
    · exact ⟨rfl, fun ho => ho.2.2 rfl⟩
    · refine ⟨by simp [hsim e he, Kind.isHandleUpdate], fun ho => ?_⟩
      cases (hsim e he).symm.trans ho.2.1
  refine ⟨fun e he hk => ?_, fun w hw => ?_, fun w hw => ?_, fun _ hex => ?_⟩
  · simp [(hwait e he).1] at hk
  · exact absurd hw (hwait w hw.1).2
  · exact absurd hw (hwait w hw.1).2
  · obtain ⟨e, he, hk⟩ := hex
    simp [(hwait e he).1] at hk

/-- In a run in which no `HandleUpdate` overwrites the handle of a wait that stands behind the
`ForwardUp` of a granted advance, no wait is pending while an update is pending later than now. -/
theorem no_wait_of_granted (h : Occurs D (KeepsWait D) t₀ s)
    (hnow : s.core.sim.now < s.core.timePause)
    (hupdate : ∃ e ∈ s.core.sim.queue, e.kind.isHandleUpdate = true ∧ e.time = s.core.timePause) :
    ∀ w ∈ s.core.sim.queue, w.kind ≠ .waitForNextUpdate := by
  obtain ⟨e, he, hk, -⟩ := hupdate
  exact h.absorbed.free hnow ⟨e, he, hk⟩

theorem no_wait_of_granted_grantedRun :
    ∃ s, State.after defaultDelimiters (KeepsWait defaultDelimiters) 0 1 Label.grantedRun = some s ∧
      s.core.sim.now < s.core.timePause ∧
      ∀ w ∈ s.core.sim.queue, w.kind ≠ .waitForNextUpdate := by
  have hrun : (State.after defaultDelimiters (KeepsWait defaultDelimiters) 0 1
      Label.grantedRun).any (fun s => s.core.sim.now < s.core.timePause ∧
        ∃ e ∈ s.core.sim.queue, e.kind.isHandleUpdate = true ∧ e.time = s.core.timePause) := by
    decide +kernel
  obtain ⟨s, hs, hp⟩ := (Option.any_eq_true _ _).mp hrun
  obtain ⟨hnow, hupdate⟩ := of_decide_eq_true hp
  exact ⟨s, hs, hnow, no_wait_of_granted (.of_after hs) hnow hupdate⟩

/-- Three messages with the same timestamp and a later one, whose `ForwardUp` is handed over before
the updates of the second and the third have run. The second of these overwrites the handle of a
wait that stands behind the last `ForwardUp`. -/
def overtakenRun : List Label :=
  [.server (.send ['0', ' ', '0', '\r', '\n', '0', ' ', '0', '\r', '\n', '0', ' ', '0', '\r', '\n',
    '1', ' ', '0', '\r', '\n'])] ++
    Label.receive 20 ++ Label.received ++ Label.received ++
    [.resume, .drain, .drain, .drain, .drain, .event, .drain, .event, .drain, .event, .drain,
      .event] ++ Label.received ++
    [.drain, .drain, .event, .resume, .drain, .event, .resume, .drain, .event, .resume, .drain,
      .event, .drain]

/-- The server has granted the second 1 and waits for the answer, and simulation time is held at 0
by a wait event that nothing refers to any more. -/
theorem wait_pending_overtakenRun :
    ∃ s, State.after defaultDelimiters always 0 1 overtakenRun = some s ∧
      updates defaultDelimiters s.pushed =
        [(0, []), (0, []), (0, []), (nanosecondsPerSecond, [])] ∧ s.pushed.length = 4 ∧
      s.core.state = .connected ∧ s.core.fatal = none ∧ s.main = .loop ∧
      s.core.sim.now = 0 ∧ s.core.timePause = nanosecondsPerSecond ∧
      (∃ e ∈ s.core.sim.queue, e.kind.isHandleUpdate = true ∧ e.time = s.core.timePause) ∧
      ∃ w ∈ s.core.sim.queue, w.kind = .waitForNextUpdate := by
  have hrun : (State.after defaultDelimiters always 0 1 overtakenRun).any (fun s =>
      updates defaultDelimiters s.pushed =
        [(0, []), (0, []), (0, []), (nanosecondsPerSecond, [])] ∧ s.pushed.length = 4 ∧
      s.core.state = .connected ∧ s.core.fatal = none ∧ s.main = .loop ∧
      s.core.sim.now = 0 ∧ s.core.timePause = nanosecondsPerSecond ∧
      (∃ e ∈ s.core.sim.queue, e.kind.isHandleUpdate = true ∧ e.time = s.core.timePause) ∧
      ∃ w ∈ s.core.sim.queue, w.kind = .waitForNextUpdate) := by
    decide +kernel
  obtain ⟨s, hs, hp⟩ := (Option.any_eq_true _ _).mp hrun
  exact ⟨s, hs, of_decide_eq_true hp⟩

end Ns3Cosim.Gateway
