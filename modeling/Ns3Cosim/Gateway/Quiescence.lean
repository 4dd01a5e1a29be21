import Ns3Cosim.Execution.Work
import Ns3Cosim.Gateway.Lifecycle

/-!
# A stopped gateway comes to rest

After the shutdown every event of the gateway that is executed is worth more
than the events that it schedules. So the work that is left is used up, and the
gateway cannot hold the simulation time.
-/

namespace Ns3Cosim.Gateway

open Execution

variable {D : Delimiters}

/-- The events with which a callback is run. -/
def Kind.isCallback : Kind → Bool
  | .doInitialize _ | .handleUpdate _ => true
  | _ => false

/-- The kinds of the pending events: those in the event list, and those handed over to it. -/
def State.pendingKinds (s : State) : List Kind := s.core.sim.queue.map Event.kind ++ s.handoff

/-- The measure of the work that pending events stand for. -/
def remainingWork (kinds : List Kind) : ℕ :=
  3 * kinds.countP (· = .forwardUp) + 2 * kinds.countP Kind.isCallback +
    kinds.countP (· = .waitForNextUpdate)

/-- The share of an event in this measure. -/
def Kind.weight : Kind → ℕ
  | .forwardUp => 3
  | .doInitialize _ | .handleUpdate _ => 2
  | .waitForNextUpdate => 1
  | .stop | .unrelated => 0

theorem remainingWork_eq (kinds : List Kind) :
    remainingWork kinds = (kinds.map Kind.weight).sum := by
  induction kinds with
  | nil => rfl
  | cons kind kinds ih =>
      simp only [remainingWork] at ih
      simp only [remainingWork, List.countP_cons, List.map_cons, List.sum_cons, ← ih]
      cases kind <;> simp only [Kind.weight, Kind.isCallback, decide_eq_true_eq, if_true] <;>
        simp <;> omega

/-- The work of a state: that of the event list, and that of the events handed over. -/
theorem State.remainingWork_eq (s : State) :
    remainingWork s.pendingKinds =
      s.core.sim.work Kind.weight + (s.handoff.map Kind.weight).sum := by
  rw [Gateway.remainingWork_eq, State.pendingKinds, List.map_append, List.sum_append_nat,
    List.map_map]
  rfl

section Work

variable {c : Core}

theorem Core.work_user (hc : c.state ≠ .created) (action : UserAction) :
    (c.user D action).sim.work Kind.weight = c.sim.work Kind.weight := by
  refine Core.user_cases (P := fun c' => c'.sim.work Kind.weight = _) c action ?_ ?_ ?_ ?_ ?_
  · exact fun delay => (Simulator.work_schedule _ _ _ _).trans (Nat.zero_add _)
  · rfl
  · exact fun _ => rfl
  · exact fun _ _ => rfl
  · intro outcome
    rw [Core.connect_of_ne hc]
    rfl

/-- `ForwardUp` schedules at most one callback. -/
theorem Core.work_forwardUp : (c.forwardUp D).sim.work Kind.weight ≤ c.sim.work Kind.weight + 2 := by
  refine Core.forwardUp_cases (P := fun c' => c'.sim.work Kind.weight ≤ _) fun c' hc' => ?_
  cases hc' with
  | empty | invalid | terminate => exact Nat.le_add_right _ _
  | first =>
      rw [Simulator.work_scheduleNow]
      simp only [Kind.weight]
      omega
  | update =>
      rw [Simulator.work_schedule]
      have hcancel := Simulator.work_cancel_le Kind.weight c.sim c.eventWait
      simp only [Kind.weight]
      omega
  | past => exact (Simulator.work_cancel_le _ _ _).trans (Nat.le_add_right _ _)

/-- `HandleUpdate` schedules at most a wait. -/
theorem Core.work_handleUpdate (data : List Str) :
    (c.handleUpdate data).sim.work Kind.weight ≤ c.sim.work Kind.weight + 1 := by
  simp only [Core.handleUpdate]
  split
  · have hwait := Simulator.work_scheduleNow Kind.weight c.sim .waitForNextUpdate
    simp only [Core.scheduleWait, hwait, Kind.weight]
    omega
  · exact Nat.le_succ _

theorem Core.work_cancelEvents :
    c.cancelEvents.sim.work Kind.weight ≤ c.sim.work Kind.weight := by
  rw [c.cancelEvents_eq]
  exact Simulator.work_cancel_le _ _ _

end Work

variable {s s' : State}

/-- The shutdown is over: the first `Stop` has been executed to its end. -/
def State.Stopped (s : State) : Prop :=
  s.core.state = .stopping ∧ ∀ b, s.main ≠ .joining b

/-- The step executes one of the four events that a gateway schedules for its messages. -/
def State.runsGatewayEvent (s : State) : Option Label → Bool
  | some .event => s.core.sim.next?.any fun p => decide (0 < p.1.kind.weight)
  | _ => false

/-- A later `Stop` schedules nothing. -/
theorem State.Stopped.stop (h : s.Stopped) (destroying : Bool) :
    (s.stop destroying).Stopped ∧
      remainingWork (s.stop destroying).pendingKinds ≤ remainingWork s.pendingKinds := by
  have hc : s.core.state ≠ .connected := by simp [h.1]
  rw [State.remainingWork_eq, State.remainingWork_eq, State.stop_of_ne hc]
  constructor
  · rw [Core.cancelEvents_eq]
    exact ⟨rfl, MainPc.afterStop_ne_joining _⟩
  · have hwork := Core.work_cancelEvents (c := { s.core with state := .stopping })
    simp only at hwork ⊢
    omega

/-- The event that is executed is worth more than the events that it schedules. -/
theorem State.Stopped.event (h : s.Stopped) {e : Event Kind} {sim : Simulator Kind} {c : Core}
    {main : MainPc} (hn : s.core.sim.next? = some (e, sim)) (hstate : c.state = s.core.state)
    (hm : ∀ b, main ≠ .joining b)
    (hwork : c.sim.work Kind.weight + (decide (0 < e.kind.weight)).toNat ≤
      sim.work Kind.weight + e.kind.weight) :
    { s with core := c, main := main }.Stopped ∧
      remainingWork { s with core := c, main := main }.pendingKinds +
        (s.runsGatewayEvent (some .event)).toNat ≤ remainingWork s.pendingKinds := by
  constructor
  · exact ⟨hstate.trans h.1, hm⟩
  · have hpopped := Simulator.work_next Kind.weight hn
    rw [State.remainingWork_eq, State.remainingWork_eq]
    simp only [State.runsGatewayEvent, hn, Option.any_some]
    omega

/-- What one step does once the shutdown is over. -/
theorem State.Stopped.step (hs : s.Stopped) (h : Shutdown s) {l : Label}
    (hstep : Gateway.step D s l = some s') :
    s'.Stopped ∧ remainingWork s'.pendingKinds + (s.runsGatewayEvent (some l)).toNat ≤
      remainingWork s.pendingKinds := by
  have hreader : s.reader.pc = .exited := (h.after hs.1 hs.2).1
  cases Step.of_step hstep with
  | server => exact ⟨hs, le_rfl⟩
  | silent _ hr => simp [Reader.step, hreader] at hr
  | push hpc | scheduleForwardUp hpc | scheduleStop hpc => cases hreader.symm.trans hpc
  | user hm =>
      have hlife := Core.user_lifecycle (D := D) h.constructed
      constructor
      · refine ⟨?_, hs.2⟩
        exact (congrArg Prod.fst (hlife _)).trans hs.1
      · rw [State.remainingWork_eq, State.remainingWork_eq]
        simp only [Core.work_user h.constructed]
        exact le_rfl
  | resume hm | drained hm => exact ⟨⟨hs.1, by simp⟩, le_rfl⟩
  | @insert kind kinds hm hh =>
      constructor
      · exact ⟨hs.1, by simp [hm]⟩
      · rw [State.remainingWork_eq, State.remainingWork_eq, hh]
        simp only [Simulator.work_scheduleNow, List.map_cons, List.sum_cons,
          State.runsGatewayEvent, Bool.toNat_false]
        omega
  | @wait e sim hm _ hn hk =>
      have hstopping : (s.core.advance sim).state = .stopping := hs.1
      rw [Core.waitForNextUpdate_of_stopping hstopping]
      refine hs.event hn rfl (by simp) ?_
      simp [Core.advance, hk, Kind.weight]
  | @forwardUp e sim hm _ hn hk =>
      refine hs.event hn (congrArg Prod.fst Core.forwardUp_lifecycle) (by simp) ?_
      have hwork := Core.work_forwardUp (D := D) (c := s.core.advance sim)
      simp only [Core.advance, hk, Kind.weight] at hwork ⊢
      simp
      omega
  | @stop e sim hm _ hn hk =>
      have hpopped := hs.event (c := s.core.advance sim) hn rfl hs.2
        (by simp [Core.advance, hk, Kind.weight])
      obtain ⟨hstop, hwork⟩ := hpopped.1.stop false
      exact ⟨hstop, (Nat.add_le_add_right hwork _).trans hpopped.2⟩
  | @doInitialize e sim data hm _ hn hk =>
      refine hs.event hn rfl (by simp) ?_
      simp [Core.advance, Core.doInitialize, hk, Kind.weight]
  | @handleUpdate e sim data hm _ hn hk =>
      refine hs.event hn (congrArg Prod.fst (Core.handleUpdate_lifecycle data)) (by simp) ?_
      have hwork := Core.work_handleUpdate (c := s.core.advance sim) data
      simp only [Core.advance, hk, Kind.weight] at hwork ⊢
      simp
      omega
  | @unrelated e sim hm _ hn hk =>
      refine hs.event hn rfl (by simp) ?_
      simp [Core.advance, hk, Kind.weight]
  | join hm => exact absurd hm (hs.2 _)
  | destroy hm =>
      refine State.destroy_cases s ?_ ?_
      · intro _
        have htaken : State.Stopped { s with core.eventDestroy := false } := hs
        exact htaken.stop true
      · intro _
        exact ⟨⟨hs.1, by simp⟩, le_rfl⟩

/-- The same with further executions of `Gateway::Stop`. -/
theorem State.Stopped.stepOrStop (hs : s.Stopped) (h : Shutdown s) {l : Option Label}
    (hstep : Gateway.stepOrStop D s l = some s') :
    s'.Stopped ∧ remainingWork s'.pendingKinds + (s.runsGatewayEvent l).toNat ≤
      remainingWork s.pendingKinds := by
  obtain ⟨l', rfl, hstep⟩ | ⟨rfl, -, destroying, rfl⟩ := stepOrStop_cases hstep
  · exact hs.step h hstep
  · exact hs.stop destroying

/-- A stopping gateway stays stopping. -/
theorem stopping_preserved : Preserved D fun c => c.state = .stopping where
  push _ _ h := h
  insert _ _ h := h
  user _ action h _ := (congrArg Prod.fst (Core.user_lifecycle (by simp [h]) action)).trans h
  wait _ _ _ h _ _ := (congrArg Prod.fst Core.waitForNextUpdate_lifecycle).trans h
  forwardUp _ _ _ h _ _ _ := (congrArg Prod.fst Core.forwardUp_lifecycle).trans h
  doInitialize _ _ _ _ h _ _ := h
  handleUpdate _ _ _ data h _ _ := (congrArg Prod.fst (Core.handleUpdate_lifecycle data)).trans h
  leave _ _ _ h _ _ := h
  halt _ _ := rfl
  join _ h := h
  close _ h := h
  destroyTaken _ h := h
  cancelEvents c _ h := by
    rw [c.cancelEvents_eq]
    exact h

theorem stopping_stepOrStop (h : s.core.state = .stopping) {l : Option Label}
    (hstep : stepOrStop D s l = some s') : s'.core.state = .stopping := by
  obtain ⟨l', -, hstep⟩ | ⟨-, -, destroying, rfl⟩ := stepOrStop_cases hstep
  · exact stopping_preserved.step (fun _ _ => h) h hstep
  · exact stopping_preserved.stop (D := D) h destroying

/-- How many events of the gateway a run executes. -/
def gatewayEvents (D : Delimiters) : State → List (Option Label) → ℕ
  | _, [] => 0
  | s, l :: labels =>
      match stepOrStop D s l with
      | some s' => (s.runsGatewayEvent l).toNat + gatewayEvents D s' labels
      | none => 0

/-- The work that is left bounds the events of the gateway that a run can still execute. -/
theorem State.Stopped.run (hs : s.Stopped) (h : Shutdown s) {labels : List (Option Label)}
    (hrun : Execution.run (Gateway.stepOrStop D) s labels = some s') :
    s'.Stopped ∧
      gatewayEvents D s labels + remainingWork s'.pendingKinds ≤ remainingWork s.pendingKinds := by
  induction labels generalizing s with
  | nil =>
      cases hrun
      simp [gatewayEvents, hs]
  | cons l labels ih =>
      obtain ⟨t, hstep, hrest⟩ := Option.bind_eq_some_iff.mp hrun
      obtain ⟨ht, hwork⟩ := hs.stepOrStop h hstep
      obtain ⟨hs', hevents⟩ := ih ht (h.stepOrStop hstep) hrest
      constructor
      · exact hs'
      · simp only [gatewayEvents, hstep]
        omega

/-- The thread is joined and the socket closed once, by the first `Stop`. From then on the gateway is
stopping, whatever further calls of `Stop` a run makes. Once the first call is over, a wait schedules
nothing, and every event of the gateway uses up some of the work that is left. -/
theorem comes_to_rest (h : OccursStopping D s) :
    (s.core.state ≠ .stopping → s.core.joins = 0 ∧ s.core.closes = 0) ∧
    (∀ destroying, s.main = .joining destroying →
      s.core.state = .stopping ∧ s.core.joins = 0 ∧ s.core.closes = 0) ∧
    (s.core.state = .stopping →
      ∀ labels s', run (stepOrStop D) s labels = some s' → s'.core.state = .stopping) ∧
    (s.Stopped →
      (∀ labels s', run (stepOrStop D) s labels = some s' →
        s'.core.joins = 1 ∧ s'.core.closes = 1 ∧ s'.core.eventDestroy = false ∧
        gatewayEvents D s labels + remainingWork s'.pendingKinds ≤
          remainingWork s.pendingKinds) ∧
      (∀ e sim s', step D s .event = some s' → s.core.sim.next? = some (e, sim) →
        e.kind = .waitForNextUpdate →
        s' = { s with core := s.core.advance sim, main := .drain }) ∧
      ∀ l s', stepOrStop D s l = some s' → s'.Stopped ∧
        remainingWork s'.pendingKinds ≤ remainingWork s.pendingKinds ∧
        (s.runsGatewayEvent l = true →
          remainingWork s'.pendingKinds < remainingWork s.pendingKinds)) := by
  have hshutdown := h.shutdown
  refine ⟨fun hne => ?_, hshutdown.during, fun hs labels s' hrun => ?_, fun hs => ⟨?_, ?_, ?_⟩⟩
  · cases hstate : s.core.state with
    | created => exact absurd hstate hshutdown.constructed
    | connected =>
        obtain ⟨-, hjoins, hcloses, -⟩ := hshutdown.before hstate
        exact ⟨hjoins, hcloses⟩
    | stopping => exact absurd hstate hne
  · exact run_preserves (P := fun t => t.core.state = .stopping)
      (fun _ _ _ ht hstep => stopping_stepOrStop ht hstep) hrun hs
  · intro labels s' hrun
    obtain ⟨hs', hevents⟩ := hs.run hshutdown hrun
    have hshutdown' : Shutdown s' :=
      run_preserves (fun _ _ _ ht hstep => ht.stepOrStop hstep) hrun hshutdown
    obtain ⟨-, hjoins, hcloses, hdestroy, -⟩ := hshutdown'.after hs'.1 hs'.2
    exact ⟨hjoins, hcloses, hdestroy, hevents⟩
  · intro e sim s' hstep hn hk
    rw [eq_execute_of_event hstep hn, hk, State.execute,
      Core.waitForNextUpdate_of_stopping (c := s.core.advance sim) hs.1]
  · intro l s' hstep
    obtain ⟨hs', hwork⟩ := hs.stepOrStop hshutdown hstep
    refine ⟨hs', by omega, fun hevent => ?_⟩
    rw [hevent, Bool.toNat_true] at hwork
    omega

/-- The server sends `0 0` and `1 0` and closes its connection. `Stop` runs while the data of the
second message waits for its time, and the wait that `Connect` scheduled has been replaced. -/
def pendingUpdateRun : List Label :=
  [.server (.send ['0', ' ', '0', '\r', '\n', '1', ' ', '0', '\r', '\n'])] ++ Label.receive 10 ++
    Label.received ++
    [.resume, .drain, .drain, .drain, .event, .drain, .event, .drain, .event, .drain, .event,
      .server .close, .reader 0, .reader 0, .reader 0, .reader 0, .resume, .drain, .drain, .event,
      .join]

theorem comes_to_rest_pendingUpdateRun :
    ∃ s, OccursStopping defaultDelimiters s ∧ s.Stopped ∧ 0 < remainingWork s.pendingKinds ∧
      ∀ labels s', run (stepOrStop defaultDelimiters) s labels = some s' →
        s'.core.joins = 1 ∧ s'.core.closes = 1 ∧ s'.core.eventDestroy = false ∧
        gatewayEvents defaultDelimiters s labels + remainingWork s'.pendingKinds ≤
          remainingWork s.pendingKinds := by
  have hrun : (State.after defaultDelimiters always 0 1 pendingUpdateRun).any (fun s =>
      s.core.state = .stopping ∧ s.main = .drain ∧ 0 < remainingWork s.pendingKinds) := by
    decide +kernel
  obtain ⟨s, hs, hp⟩ := (Option.any_eq_true _ _).mp hrun
  obtain ⟨hstate, hm, hwork⟩ := of_decide_eq_true hp
  have hstopped : s.Stopped := ⟨hstate, by simp [hm]⟩
  have hoccurs := (Occurs.of_after hs).occursStopping
  exact ⟨s, hoccurs, hstopped, hwork, ((comes_to_rest hoccurs).2.2.2 hstopped).1⟩

end Ns3Cosim.Gateway
