import Ns3Cosim.Gateway.Callbacks
import Ns3Cosim.Gateway.Timestamps

/-!
# Callbacks after the server has closed its connection

`Stop` cancels the wait event and the destroy event, and leaves the callbacks in
the event list. A response from one of them then finds no connection. Nothing
of the kind happens when no callback is pending at the time `Stop` runs.
-/

namespace Ns3Cosim.Gateway

open Execution

variable {D : Delimiters} {s s' : State} {l : Label}

/-- User code sends its responses from the two callbacks. -/
def RespondsInCallbacks (s : State) : Label → Prop
  | .user (.sendResponse _) => s.main = .user true
  | _ => True

instance (s : State) (l : Label) : Decidable (RespondsInCallbacks s l) := by
  unfold RespondsInCallbacks
  split <;> infer_instance

/-- No callback is pending when a `Stop` event runs. -/
def StopsIdle (s : State) : Label → Prop
  | .event => ∀ p ∈ s.core.sim.next?, p.1.kind = .stop → ∀ e ∈ p.2.queue, callback? e = none
  | _ => True

instance (s : State) (l : Label) : Decidable (StopsIdle s l) :=
  match l with
  | .event => by unfold StopsIdle; infer_instance
  | .server _ | .reader _ | .user _ | .resume | .drain | .join | .destroy => .isTrue trivial

/-- A stopped gateway in a running simulation has no callback left, and no response has failed. -/
structure Idle (s : State) : Prop where
  noCallback : s.core.state = .stopping → s.InRun →
    (∀ e ∈ s.core.sim.queue, callback? e = none) ∧ s.main ≠ .user true
  answered : s.core.fatal ≠ some .responseWithoutConnection

namespace Idle

/-- Steps that run and add no callback and leave the state of the gateway alone. -/
theorem of_sameBooks (h : Idle s) (hbooks : s.core.SameBooks s'.core)
    (hstate : s'.core.state = s.core.state) (hrun : s'.InRun → s.InRun)
    (hmain : s'.main = s.main ∨ s'.main ≠ .user true)
    (hfatal : s'.core.fatal = s.core.fatal) : Idle s' := by
  refine ⟨fun hs hr => ?_, hfatal ▸ h.answered⟩
  obtain ⟨hnone, hm⟩ := h.noCallback (hstate ▸ hs) (hrun hr)
  constructor
  · apply pendingCallbacks_eq_nil_iff.mp
    rw [hbooks.pending]
    exact pendingCallbacks_eq_nil_iff.mpr hnone
  · obtain heq | hne := hmain
    · rw [heq]
      exact hm
    · exact hne

/-- A callback that runs shows that the gateway is not stopping. -/
theorem not_stopping (h : Idle s) (hm : s.main = .loop) {e : Event Kind} {sim : Simulator Kind}
    (hn : s.core.sim.next? = some (e, sim)) (hk : callback? e ≠ none) :
    s.core.state ≠ .stopping := by
  intro hs
  obtain ⟨hnone, -⟩ := h.noCallback hs (by simp [State.InRun, hm])
  exact hk (hnone e ((Simulator.mem_of_next? hn).mpr (Or.inl rfl)))

/-- The gateway keeps running. -/
theorem of_not_stopping (hs : s.core.state ≠ .stopping)
    (hf : s.core.fatal ≠ some .responseWithoutConnection) : Idle s :=
  ⟨fun h => absurd h hs, hf⟩

end Idle

theorem MainPc.afterStop_ne_user (destroying callback : Bool) :
    afterStop destroying ≠ .user callback := by
  cases destroying <;> simp [afterStop]

theorem State.stop_main (s : State) (destroying : Bool) :
    (s.stop destroying).main ≠ .user true := by
  refine State.stop_cases s destroying ?_ ?_ ?_
  · intro _ _
    simp
  · exact MainPc.afterStop_ne_user _ _
  · exact MainPc.afterStop_ne_user _ _

theorem State.stop_not_inRun (s : State) : ¬ (s.stop true).InRun := by
  refine State.stop_cases s true ?_ ?_ ?_
  · intro _ _ hrun
    exact hrun.1 rfl
  · intro hrun
    exact hrun.2 rfl
  · intro hrun
    exact hrun.2 rfl

/-- User code that responds from callbacks finds a connection. -/
theorem Idle.user (h : Idle s) (hc : s.core.state ≠ .created) {action : UserAction}
    {callback : Bool} (hm : s.main = .user callback)
    (hok : RespondsInCallbacks s (.user action)) :
    Idle { s with core := s.core.user D action } := by
  have hbooks := Core.SameBooks.user (D := D) hc action
  cases action with
  | schedule | simulatorStop => exact h.of_sameBooks hbooks rfl id (Or.inl rfl) rfl
  | setValue index value =>
      cases hset : setValue D s.core.outbound index value with
      | error e =>
          simp only [Core.user, hset]
          refine ⟨h.noCallback, ?_⟩
          rcases setValue_eq_error hset with rfl | rfl | rfl <;> simp [Core.fail]
      | ok outbound =>
          simp only [Core.user, hset] at hbooks ⊢
          exact h.of_sameBooks hbooks rfl id (Or.inl rfl) rfl
  | sendResponse sent =>
      have hconnected : s.core.state = .connected := by
        cases hs : s.core.state with
        | created => exact absurd hs hc
        | connected => rfl
        | stopping =>
            have hcallback : s.main = .user true := hok
            exact absurd hcallback (h.noCallback hs (by simp [State.InRun, hm])).2
      simp only [Core.user] at hbooks ⊢
      rw [if_neg (not_not.mpr hconnected)] at hbooks ⊢
      exact h.of_sameBooks hbooks rfl id (Or.inl rfl) rfl
  | connect outcome =>
      rw [Core.user, Core.connect_of_ne hc]
      exact ⟨h.noCallback, by simp [Core.fail]⟩

theorem Core.forwardUp_fatal {c : Core} (hf : c.fatal = none) :
    (c.forwardUp D).fatal ≠ some .responseWithoutConnection := by
  refine Core.forwardUp_cases (P := fun c' => c'.fatal ≠ some .responseWithoutConnection)
    fun c' hc' => ?_
  cases hc' with
  | empty => simp [Core.fail]
  | invalid hq hr => simp [Core.fail, readMessage_error hr]
  | terminate | first | update => simp [Core.pop, hf]
  | past => simp

theorem Idle.step (h : Idle s) (hinv : Handoff s) (hresponds : RespondsInCallbacks s l)
    (hidle : StopsIdle s l) (hstep : Gateway.step D s l = some s') : Idle s' := by
  have hf := (step_eq_some hstep).1
  cases Step.of_step hstep with
  | server | silent | scheduleForwardUp | scheduleStop =>
      exact h.of_sameBooks (Core.SameBooks.refl _) rfl id (Or.inl rfl) rfl
  | push => exact h.of_sameBooks ⟨rfl, rfl, rfl, Or.inl rfl, rfl, rfl⟩ rfl id (Or.inl rfl) rfl
  | user hm => exact h.user hinv.constructed hm hresponds
  | resume hm | drained hm =>
      exact h.of_sameBooks (Core.SameBooks.refl _) rfl (fun _ => by simp [State.InRun, hm])
        (Or.inr (by simp)) rfl
  | insert _ hin =>
      refine h.of_sameBooks (Core.SameBooks.schedule _ 0 _ fun _ _ => ?_) rfl id (Or.inl rfl) rfl
      obtain rfl | rfl := hinv.kinds _ (hin ▸ List.mem_cons_self)
      · rfl
      · rfl
  | @wait e sim hm _ hn hk =>
      by_cases hs : (s.core.advance sim).state = .stopping
      · rw [Core.waitForNextUpdate_of_stopping hs]
        exact h.of_sameBooks (Core.SameBooks.advance hn (by simp [callback?, hk])) rfl
          (fun _ => by simp [State.InRun, hm]) (Or.inr (by simp)) rfl
      · rw [Core.waitForNextUpdate_of_ne hs]
        exact Idle.of_not_stopping hs h.answered
  | @forwardUp e sim hm _ hn hk =>
      have hstate : ((s.core.advance sim).forwardUp D).state = .connected := by
        rw [← hinv.connected_of_forwardUp hm hn hk]
        refine Core.forwardUp_cases (P := fun c' => c'.state = s.core.state) fun c' hc' => ?_
        cases hc' <;> rfl
      exact Idle.of_not_stopping (by simp [hstate])
        (Core.forwardUp_fatal (c := s.core.advance sim) hf)
  | @stop e sim hm _ hn hk =>
      refine ⟨fun _ _ => ⟨fun a ha => ?_, State.stop_main _ _⟩, ?_⟩
      · have hbooks := State.stop_sameBooks { s with core := s.core.advance sim }
          (hinv.handled.advance hn) false
        have hnone : pendingCallbacks sim = [] :=
          pendingCallbacks_eq_nil_iff.mpr (hidle (e, sim) (Option.mem_def.mpr hn) hk)
        exact pendingCallbacks_eq_nil_iff.mp (hbooks.pending.trans hnone) a ha
      · rw [(State.stop_frame _ _).fatal]
        exact h.answered
  | doInitialize hm _ hn hk =>
      exact Idle.of_not_stopping (h.not_stopping hm hn (by simp [callback?, hk])) h.answered
  | @handleUpdate e sim data hm _ hn hk =>
      have hs := h.not_stopping hm hn (by simp [callback?, hk])
      simp only [Core.handleUpdate]
      split
      · exact Idle.of_not_stopping hs h.answered
      · exact Idle.of_not_stopping hs h.answered
  | unrelated hm _ hn hk =>
      exact h.of_sameBooks (Core.SameBooks.advance hn (by simp [callback?, hk])) rfl
        (fun _ => by simp [State.InRun, hm]) (Or.inr (by simp)) rfl
  | @join destroying hm hx =>
      have hjoin : s.core.SameBooks s.core.join.close := ⟨rfl, rfl, rfl, Or.inl rfl, rfl, rfl⟩
      refine h.of_sameBooks (hjoin.trans (Core.SameBooks.cancelEvents hinv.handled)) ?_
        (fun hrun => ?_) (Or.inr ?_) ?_
      · rw [State.joined, Core.cancelEvents_eq]
        rfl
      · cases destroying with
        | false => simp [State.InRun, hm]
        | true => exact absurd rfl hrun.2
      · cases destroying <;> simp [State.joined, MainPc.afterStop]
      · rw [State.joined, Core.cancelEvents_eq]
        rfl
  | destroy =>
      refine State.destroy_cases s ?_ ?_
      · intro _
        refine ⟨fun _ hrun => absurd hrun (State.stop_not_inRun _), ?_⟩
        rw [(State.stop_frame _ _).fatal]
        exact h.answered
      · intro _
        exact ⟨fun _ hrun => absurd rfl hrun.2, h.answered⟩

variable {t₀ : ℤ}

theorem Occurs.idle (h : Occurs D (fun s l => RespondsInCallbacks s l ∧ StopsIdle s l) t₀ s) :
    Idle s := by
  refine h.induct (fun sim outbound _ _ => ?_) fun _ _ _ hs hinv hok hstep =>
    hinv.step hs.handoff hok.1 hok.2 hstep
  refine ⟨fun hs => ?_, by simp [State.connected, Core.connect, Core.construct,
    Core.scheduleWait]⟩
  cases hs

/-- In a run whose `Stop` events find no pending callback, responses sent from callbacks find a
connection, and no callback runs once the gateway is stopping. -/
theorem no_response_without_connection
    (h : Occurs D (fun s l => RespondsInCallbacks s l ∧ StopsIdle s l) t₀ s) :
    s.core.fatal ≠ some .responseWithoutConnection ∧
      (s.core.state = .stopping → ∀ s' e sim, step D s .event = some s' →
        s.core.sim.next? = some (e, sim) → callback? e = none) := by
  have hidle := h.idle
  refine ⟨hidle.answered, fun hs s' e sim hstep hn => ?_⟩
  by_contra hcallback
  exact hidle.not_stopping (loop_of_event hstep).1 hn hcallback hs

/-- A run in which the server closes its connection after the only update has run. -/
def idleRun : List Label :=
  [.server (.send ['0', ' ', '0', '\r', '\n'])] ++ Label.receive 5 ++
    [.resume, .drain, .drain, .event, .drain, .event, .drain, .event, .drain, .event,
      .user (.sendResponse true), .resume, .server .close, .reader 0, .reader 0, .reader 0,
      .reader 0, .drain, .drain, .event, .drain, .event, .join]

theorem no_response_without_connection_idleRun :
    ∃ s, State.after defaultDelimiters (fun s l => RespondsInCallbacks s l ∧ StopsIdle s l) 0 1
        idleRun = some s ∧
      s.core.state = .stopping ∧ s.core.log.length = 1 ∧
      s.core.fatal ≠ some .responseWithoutConnection ∧
      (s.core.state = .stopping → ∀ s' e sim, step defaultDelimiters s .event = some s' →
        s.core.sim.next? = some (e, sim) → callback? e = none) := by
  have hrun : (State.after defaultDelimiters (fun s l => RespondsInCallbacks s l ∧ StopsIdle s l)
      0 1 idleRun).any (fun s => s.core.state = .stopping ∧ s.core.log.length = 1) := by
    decide +kernel
  obtain ⟨s, hs, hp⟩ := (Option.any_eq_true _ _).mp hrun
  obtain ⟨hstate, hlog⟩ := of_decide_eq_true hp
  exact ⟨s, hs, hstate, hlog, no_response_without_connection (.of_after hs)⟩

/-- The server sends `0 0` and `1 0`, reads the first answer and closes the connection while the
second update is pending. -/
def closedRun : List Label :=
  [.server (.send ['0', ' ', '0', '\r', '\n', '1', ' ', '0', '\r', '\n'])] ++ Label.receive 10 ++
    Label.received ++
    [.resume, .drain, .drain, .drain, .event, .drain, .event, .drain, .event, .drain, .event,
      .user (.sendResponse true), .server .close, .reader 0, .reader 0, .reader 0, .reader 0,
      .resume, .drain, .drain, .event, .join, .drain, .event, .user (.sendResponse true)]

/-- `DoUpdate` runs after `Stop`, and its response ends the program. -/
theorem response_without_connection_closedRun :
    ∃ s, State.after defaultDelimiters (fun s l => RespondsInCallbacks s l) 0 1 closedRun = some s ∧
      updates defaultDelimiters s.core.processed = [(0, []), (nanosecondsPerSecond, [])] ∧
      s.core.log = [⟨.doInitialize, [], 0⟩, ⟨.doUpdate, [], nanosecondsPerSecond⟩] ∧
      s.core.state = .stopping ∧ s.core.fatal = some .responseWithoutConnection := by
  have hrun : (State.after defaultDelimiters (fun s l => RespondsInCallbacks s l) 0 1
      closedRun).any (fun s =>
        updates defaultDelimiters s.core.processed = [(0, []), (nanosecondsPerSecond, [])] ∧
        s.core.log = [⟨.doInitialize, [], 0⟩, ⟨.doUpdate, [], nanosecondsPerSecond⟩] ∧
        s.core.state = .stopping ∧ s.core.fatal = some .responseWithoutConnection) := by
    decide +kernel
  obtain ⟨s, hs, hp⟩ := (Option.any_eq_true _ _).mp hrun
  exact ⟨s, hs, of_decide_eq_true hp⟩

end Ns3Cosim.Gateway
