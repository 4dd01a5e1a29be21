import Ns3Cosim.Gateway.Runs

/-!
# The event handle of the wait

`Handles` is the first invariant of the main thread's side: the events that the
gateway schedules for now are at the current time, and `m_eventWait` never
refers to an event of another kind. With it come the forms that the functions
of the gateway take once the handle is understood.
-/

namespace Ns3Cosim.Gateway

open Execution

variable {D : Delimiters}

/-- The gateway schedules these events for the current time only. -/
def Kind.Immediate : Kind → Prop
  | .handleUpdate _ => False
  | .unrelated => False
  | _ => True

/-- The pending events that were scheduled for now are at the current time, and `m_eventWait`
refers to a `WaitForNextUpdate` event or to no pending one. -/
structure Handles (sim : Simulator Kind) (eventWait : EventId) : Prop where
  immediate : ∀ e ∈ sim.queue, e.kind.Immediate → e.time = sim.now
  waitKind : ∀ e ∈ sim.queue, eventWait = some e.uid → e.kind = .waitForNextUpdate
  waitFresh : ∀ u, eventWait = some u → u < sim.nextUid

namespace Handles

variable {sim sim' : Simulator Kind} {eventWait : EventId} {e : Event Kind}

theorem advance (h : Handles sim eventWait) (hn : sim.next? = some (e, sim')) :
    Handles sim' eventWait := by
  obtain ⟨-, hnow, huid⟩ := Simulator.next?_eq_some hn
  refine ⟨fun a ha hk => ?_, fun a ha => ?_, fun u hu => ?_⟩
  · have hmem := (Simulator.mem_of_next? hn).mpr (Or.inr ha)
    have ht := h.immediate a hmem hk
    rw [ht, hnow, Simulator.time_eq_of_pending hn hmem ht]
  · exact h.waitKind a ((Simulator.mem_of_next? hn).mpr (Or.inr ha))
  · exact huid ▸ h.waitFresh u hu

theorem schedule (h : Handles sim eventWait) {delay : ℕ} {kind : Kind}
    (hk : kind.Immediate → delay = 0) : Handles (sim.schedule delay kind) eventWait := by
  refine ⟨fun a ha hi => ?_, fun a ha hw => ?_, fun u hu => ?_⟩
  · obtain rfl | ha := Simulator.mem_schedule.mp ha
    · simp [hk hi]
    · exact h.immediate a ha hi
  · obtain rfl | ha := Simulator.mem_schedule.mp ha
    · exact absurd (h.waitFresh _ hw) (lt_irrefl _)
    · exact h.waitKind a ha hw
  · exact Nat.lt_succ_of_lt (h.waitFresh u hu)

theorem scheduleNow (h : Handles sim eventWait) (kind : Kind) :
    Handles (sim.scheduleNow kind) eventWait := h.schedule fun _ => rfl

/-- Overwriting the handle with a new wait event. -/
theorem overwrite (h : Handles sim eventWait) :
    Handles (sim.scheduleNow .waitForNextUpdate) (some sim.nextUid) := by
  refine ⟨(h.scheduleNow _).immediate, fun a ha hw => ?_, fun u hu => ?_⟩
  · obtain rfl | ha := Simulator.mem_scheduleNow.mp ha
    · rfl
    · have hlt := sim.fresh a ha
      have heq := Option.some.inj hw
      omega
  · have heq := Option.some.inj hu
    simp only [Simulator.scheduleNow_nextUid]
    omega

theorem cancel (h : Handles sim eventWait) (id : EventId) :
    Handles (sim.cancel id) eventWait :=
  ⟨fun a ha => h.immediate a (Simulator.mem_cancel.mp ha).1,
    fun a ha => h.waitKind a (Simulator.mem_cancel.mp ha).1, h.waitFresh⟩

end Handles

/-- `WaitForNextUpdate` replaces the event of `m_eventWait` by a new one. -/
theorem Core.waitForNextUpdate_of_ne {c : Core} (h : c.state ≠ .stopping) :
    c.waitForNextUpdate =
      { c with sim := (c.sim.cancel c.eventWait).scheduleNow .waitForNextUpdate,
               eventWait := some c.sim.nextUid } := by
  unfold Core.waitForNextUpdate
  rw [if_pos h, c.cancelWait_eq]
  rfl

theorem Core.waitForNextUpdate_of_stopping {c : Core} (h : c.state = .stopping) :
    c.waitForNextUpdate = c := by
  simp [Core.waitForNextUpdate, h]

/-- What `ForwardUp` does with an update that is not in the past. -/
theorem Core.grant_of_le {c : Core} {timestamp : ℤ} (values : List Str)
    (h : c.sim.now ≤ timestamp - c.timeStart) :
    c.grant timestamp values =
      { c with timePause := timestamp - c.timeStart,
               sim := (c.sim.cancel c.eventWait).schedule
                 (timestamp - c.timeStart - c.sim.now).toNat (.handleUpdate values) } := by
  have hdelta : ¬ timestamp - c.timeStart - c.sim.now < 0 := by omega
  simp only [Core.grant, c.cancelWait_eq, Simulator.cancel_now, hdelta, if_false]

/-- What `ForwardUp` does with an update that is in the past. -/
theorem Core.grant_of_lt {c : Core} {timestamp : ℤ} (values : List Str)
    (h : timestamp - c.timeStart < c.sim.now) :
    c.grant timestamp values =
      { c with timePause := timestamp - c.timeStart,
               sim := c.sim.cancel c.eventWait,
               fatal := some .timestampsNotIncreasing } := by
  have hdelta : timestamp - c.timeStart - c.sim.now < 0 := by omega
  simp only [Core.grant, c.cancelWait_eq, Simulator.cancel_now, hdelta, if_true, Core.fail]

/-- The second half of `ForwardUp`: terminate, first message, update, or an update in the past. -/
@[elab_as_elim]
theorem Core.process_cases {P : Core → Prop} (c : Core) (timestamp : ℤ) (values : List Str)
    (terminate : timestamp < 0 → P { c with stopped := true })
    (first : 0 ≤ timestamp → c.timeStart < 0 →
      P { c with timeStart := timestamp, sim := c.sim.scheduleNow (.doInitialize values) })
    (update : 0 ≤ timestamp → 0 ≤ c.timeStart → c.sim.now ≤ timestamp - c.timeStart →
      P { c with timePause := timestamp - c.timeStart,
                 sim := (c.sim.cancel c.eventWait).schedule
                   (timestamp - c.timeStart - c.sim.now).toNat (.handleUpdate values) })
    (past : 0 ≤ timestamp → 0 ≤ c.timeStart → timestamp - c.timeStart < c.sim.now →
      P { c with timePause := timestamp - c.timeStart, sim := c.sim.cancel c.eventWait,
                 fatal := some .timestampsNotIncreasing }) :
    P (c.process timestamp values) := by
  unfold Core.process
  split
  · exact terminate ‹_›
  · rename_i hneg
    split
    · rename_i hstart
      exact first (not_lt.mp hneg) hstart
    · rename_i hstart
      obtain hle | hlt := le_or_gt c.sim.now (timestamp - c.timeStart)
      · rw [Core.grant_of_le values hle]
        exact update (not_lt.mp hneg) (not_lt.mp hstart) hle
      · rw [Core.grant_of_lt values hlt]
        exact past (not_lt.mp hneg) (not_lt.mp hstart) hlt

theorem Core.forwardUp_of_ok {c : Core} {message : Str} {messages : List Str} {timestamp : ℤ}
    {values : List Str} (hq : c.messageQueue = message :: messages)
    (hr : readMessage D message = .ok (timestamp, values)) :
    c.forwardUp D = (c.pop message messages).process timestamp values := by
  simp only [Core.forwardUp, hq, hr]

theorem Core.forwardUp_of_error {c : Core} {message : Str} {messages : List Str} {e : FatalError}
    (hq : c.messageQueue = message :: messages) (hr : readMessage D message = .error e) :
    c.forwardUp D = (c.pop message messages).fail .invalidHeader := by
  simp only [Core.forwardUp, hq, hr, readMessage_error hr]

/-- Everything that `ForwardUp` can do. -/
inductive Core.Forwarded (D : Delimiters) (c : Core) : Core → Prop
  | empty (hq : c.messageQueue = []) : Forwarded D c (c.fail .noQueuedMessage)
  | invalid {message : Str} {messages : List Str} {e : FatalError}
      (hq : c.messageQueue = message :: messages) (hr : readMessage D message = .error e) :
      Forwarded D c ((c.pop message messages).fail e)
  | terminate {message : Str} {messages : List Str} {timestamp : ℤ} {values : List Str}
      (hq : c.messageQueue = message :: messages)
      (hr : readMessage D message = .ok (timestamp, values)) (hneg : timestamp < 0) :
      Forwarded D c { c.pop message messages with stopped := true }
  | first {message : Str} {messages : List Str} {timestamp : ℤ} {values : List Str}
      (hq : c.messageQueue = message :: messages)
      (hr : readMessage D message = .ok (timestamp, values)) (hpos : 0 ≤ timestamp)
      (hstart : c.timeStart < 0) :
      Forwarded D c { c.pop message messages with
        timeStart := timestamp, sim := c.sim.scheduleNow (.doInitialize values) }
  | update {message : Str} {messages : List Str} {timestamp : ℤ} {values : List Str}
      (hq : c.messageQueue = message :: messages)
      (hr : readMessage D message = .ok (timestamp, values)) (hpos : 0 ≤ timestamp)
      (hstart : 0 ≤ c.timeStart) (hle : c.sim.now ≤ timestamp - c.timeStart) :
      Forwarded D c { c.pop message messages with
        timePause := timestamp - c.timeStart,
        sim := (c.sim.cancel c.eventWait).schedule
          (timestamp - c.timeStart - c.sim.now).toNat (.handleUpdate values) }
  | past {message : Str} {messages : List Str} {timestamp : ℤ} {values : List Str}
      (hq : c.messageQueue = message :: messages)
      (hr : readMessage D message = .ok (timestamp, values)) (hpos : 0 ≤ timestamp)
      (hstart : 0 ≤ c.timeStart) (hlt : timestamp - c.timeStart < c.sim.now) :
      Forwarded D c { c.pop message messages with
        timePause := timestamp - c.timeStart, sim := c.sim.cancel c.eventWait,
        fatal := some .timestampsNotIncreasing }

theorem Core.forwarded (D : Delimiters) (c : Core) : c.Forwarded D (c.forwardUp D) := by
  cases hq : c.messageQueue with
  | nil =>
      simp only [Core.forwardUp, hq]
      exact Forwarded.empty hq
  | cons message messages =>
      cases hr : readMessage D message with
      | error e =>
          simp only [Core.forwardUp, hq, hr]
          exact Forwarded.invalid hq hr
      | ok r =>
          rw [Core.forwardUp_of_ok hq hr]
          refine Core.process_cases _ r.1 r.2 ?_ ?_ ?_ ?_
          · exact Forwarded.terminate hq hr
          · exact Forwarded.first hq hr
          · exact Forwarded.update hq hr
          · exact Forwarded.past hq hr

/-- A property of the core after `ForwardUp` is proved case by case. -/
theorem Core.forwardUp_cases {P : Core → Prop} {c : Core} (h : ∀ c', c.Forwarded D c' → P c') :
    P (c.forwardUp D) := h _ (c.forwarded D)

/-- A gateway that has been connected cannot be connected again. -/
theorem Core.connect_of_ne {c : Core} (h : c.state ≠ .created) (outcome : ConnectOutcome) :
    c.connect outcome = c.fail .connectCalledTwice := by
  unfold Core.connect
  rw [if_pos h]

/-- The fatal errors that `ForwardUp` raises. -/
def FatalError.OfForwardUp (e : FatalError) : Prop :=
  e = .noQueuedMessage ∨ e = .invalidHeader ∨ e = .timestampsNotIncreasing

/-- What user code can do: schedule an event, stop the simulator, change what is to be sent or has
been sent, end the program with an error of its own, or call `Connect`. -/
@[elab_as_elim]
theorem Core.user_cases {P : Core → Prop} (c : Core) (action : UserAction)
    (schedules : ∀ delay, P { c with sim := c.sim.schedule delay .unrelated })
    (stops : P { c with stopped := true })
    (writes : ∀ outbound, P { c with outbound := outbound })
    (fails : ∀ e : FatalError, ¬ e.OfForwardUp → P (c.fail e))
    (connects : ∀ outcome, P (c.connect outcome)) : P (c.user D action) := by
  cases action with
  | schedule delay => exact schedules delay
  | simulatorStop => exact stops
  | setValue index value =>
      simp only [Core.user]
      split
      · rename_i e he
        apply fails
        rcases setValue_eq_error he with rfl | rfl | rfl <;> simp [FatalError.OfForwardUp]
      · exact writes _
  | sendResponse sent =>
      simp only [Core.user]
      split
      · apply fails
        simp [FatalError.OfForwardUp]
      · exact writes _
  | connect outcome => exact connects outcome

/-- `Handles` of the main thread's side. -/
def Core.Handled (c : Core) : Prop := Handles c.sim c.eventWait

namespace Core.Handled

variable {c : Core}

theorem advance {e : Event Kind} {sim : Simulator Kind} (h : c.Handled)
    (hn : c.sim.next? = some (e, sim)) : (c.advance sim).Handled := Handles.advance h hn

theorem scheduleWait (h : c.Handled) : c.scheduleWait.Handled := Handles.overwrite h

theorem cancelWait (h : c.Handled) : c.cancelWait.Handled := by
  rw [c.cancelWait_eq]
  exact Handles.cancel h _

theorem doInitialize (h : c.Handled) (data : List Str) : (c.doInitialize data).Handled := h

theorem destroyTaken (h : c.Handled) : Core.Handled { c with eventDestroy := false } := h

theorem join (h : c.Handled) : c.join.Handled := h

theorem close (h : c.Handled) : c.close.Handled := h

theorem cancelEvents (h : c.Handled) : c.cancelEvents.Handled := h.cancelWait

theorem waitForNextUpdate (h : c.Handled) : c.waitForNextUpdate.Handled := by
  unfold Core.waitForNextUpdate
  split
  · exact h.cancelWait.scheduleWait
  · exact h

theorem grant (h : c.Handled) (timestamp : ℤ) (values : List Str) :
    (c.grant timestamp values).Handled := by
  simp only [Core.grant]
  split
  · exact h.cancelWait
  · exact Handles.schedule h.cancelWait False.elim

theorem process (h : c.Handled) (timestamp : ℤ) (values : List Str) :
    (c.process timestamp values).Handled := by
  unfold Core.process
  split
  · exact h
  · split
    · exact Handles.scheduleNow h _
    · exact h.grant _ _

theorem handleUpdate (h : c.Handled) (data : List Str) : (c.handleUpdate data).Handled := by
  simp only [Core.handleUpdate]
  split
  · exact h.scheduleWait
  · exact h

theorem connect (h : c.Handled) (outcome : ConnectOutcome) : (c.connect outcome).Handled := by
  unfold Core.connect
  split
  · exact h
  · split
    · exact h
    · exact h
    · exact h
    · exact Handles.overwrite h

theorem user (h : c.Handled) (action : UserAction) : (c.user D action).Handled := by
  refine Core.user_cases c action ?_ ?_ ?_ ?_ ?_
  · exact fun _ => Handles.schedule h False.elim
  · exact h
  · exact fun _ => h
  · exact fun _ _ => h
  · exact h.connect

end Core.Handled

/-- Right after `Connect` in a simulator that holds unrelated events only. -/
theorem handled_connected {sim : Simulator Kind} (hsim : ∀ e ∈ sim.queue, e.kind = .unrelated)
    (outbound : Outbound) : (State.connected sim outbound).core.Handled := by
  have hsim : Handles sim none := by
    refine ⟨fun e he hk => ?_, fun e he hw => ?_, fun u hu => ?_⟩
    · simp [hsim e he, Kind.Immediate] at hk
    · cases hw
    · cases hu
  exact Handles.overwrite hsim

end Ns3Cosim.Gateway
