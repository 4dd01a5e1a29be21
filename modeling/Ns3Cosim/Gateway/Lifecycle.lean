import Ns3Cosim.Gateway.Handles

/-!
# The one shutdown of a gateway

`Gateway::Stop` is executed by the event that the reader schedules, by
`Simulator::Destroy`, and possibly again. The first execution joins the thread
and closes the socket; every later one finds the gateway stopping and leaves
both alone.
-/

namespace Ns3Cosim.Gateway

open Execution

variable {D : Delimiters}

/-- The members that `Connect` and `Stop` alone write, with the history of `Stop`. -/
def Core.lifecycle (c : Core) : GatewayState × Bool × Bool × ℕ × ℕ :=
  (c.state, c.eventDestroy, c.threadJoinable, c.joins, c.closes)

section Lifecycle

variable {c : Core}

theorem Core.user_lifecycle (hc : c.state ≠ .created) (action : UserAction) :
    (c.user D action).lifecycle = c.lifecycle := by
  refine Core.user_cases (P := fun c' => c'.lifecycle = _) c action ?_ ?_ ?_ ?_ ?_
  · exact fun _ => rfl
  · rfl
  · exact fun _ => rfl
  · exact fun _ _ => rfl
  · intro outcome
    rw [Core.connect_of_ne hc]
    rfl

theorem Core.waitForNextUpdate_lifecycle : c.waitForNextUpdate.lifecycle = c.lifecycle := by
  by_cases hs : c.state = .stopping
  · rw [Core.waitForNextUpdate_of_stopping hs]
  · rw [Core.waitForNextUpdate_of_ne hs]
    rfl

theorem Core.forwardUp_lifecycle : (c.forwardUp D).lifecycle = c.lifecycle := by
  refine Core.forwardUp_cases (P := fun c' => c'.lifecycle = c.lifecycle) fun c' hc' => ?_
  cases hc' <;> rfl

theorem Core.handleUpdate_lifecycle (data : List Str) :
    (c.handleUpdate data).lifecycle = c.lifecycle := by
  simp only [Core.handleUpdate]
  split <;> rfl

end Lifecycle

/-- A step of the system, or one more execution of `Gateway::Stop` where the main thread can execute
one: between two events, and after `Simulator::Destroy`. -/
def stepOrStop (D : Delimiters) (s : State) : Option Label → Option State
  | some l => step D s l
  | none =>
      if s.core.fatal = none then
        match s.main with
        | .loop => some (s.stop false)
        | .destroyed => some (s.stop true)
        | _ => none
      else none

/-- The state occurs in a run in which `Gateway::Stop` is executed any number of times. -/
def OccursStopping (D : Delimiters) (s : State) : Prop :=
  ∃ (sim : Simulator Kind) (outbound : Outbound), (∀ e ∈ sim.queue, e.kind = .unrelated) ∧
    Reach (stepOrStop D) always (.connected sim outbound) s

/-- Every run is one without further executions of `Stop`. -/
theorem Occurs.occursStopping {ok : State → Label → Prop} {t₀ : ℤ} {s : State}
    (h : Occurs D ok t₀ s) : OccursStopping D s := by
  obtain ⟨sim, outbound, hsim, -, hr⟩ := h
  exact ⟨sim, outbound, hsim, hr.simulation id (fun _ => some) fun _ _ _ _ _ hstep =>
    ⟨trivial, hstep⟩⟩

/-- The thread is joined and the socket closed once, when the gateway stops being connected. After
that the reader has returned and no destroy event is left. -/
structure Shutdown (s : State) : Prop where
  constructed : s.core.state ≠ .created
  kinds : ∀ kind ∈ s.handoff, kind = .forwardUp ∨ kind = .stop
  before : s.core.state = .connected → s.core.threadJoinable = true ∧ s.core.joins = 0 ∧
    s.core.closes = 0 ∧ ∀ b, s.main ≠ .joining b
  during : ∀ b, s.main = .joining b → s.core.state = .stopping ∧ s.core.joins = 0 ∧
    s.core.closes = 0
  after : s.core.state = .stopping → (∀ b, s.main ≠ .joining b) → s.reader.pc = .exited ∧
    s.core.joins = 1 ∧ s.core.closes = 1 ∧ s.core.eventDestroy = false ∧
    s.core.threadJoinable = false

variable {s s' : State} {l : Label}

theorem State.stop_of_connected (hc : s.core.state = .connected)
    (ht : s.core.threadJoinable = true) (destroying : Bool) :
    s.stop destroying = { s with core.state := .stopping, main := .joining destroying } := by
  simp only [State.stop, hc, ht, if_true]

theorem State.stop_of_ne (hc : s.core.state ≠ .connected) (destroying : Bool) :
    s.stop destroying =
      { s with core := Core.cancelEvents { s.core with state := .stopping },
               main := .afterStop destroying } := by
  simp only [State.stop, hc, if_false]

/-- Both forms of a step: one of the system, or a call of `Stop` by a main thread that is not in
`join`. -/
theorem stepOrStop_cases {l : Option Label} (h : stepOrStop D s l = some s') :
    (∃ l', l = some l' ∧ step D s l' = some s') ∨
      (l = none ∧ (∀ b, s.main ≠ .joining b) ∧ ∃ destroying, s' = s.stop destroying) := by
  cases l with
  | some l => exact Or.inl ⟨l, rfl, h⟩
  | none =>
      simp only [stepOrStop] at h
      split at h
      · split at h
        · rename_i hm
          exact Or.inr ⟨rfl, by simp [hm], false, (Option.some.inj h).symm⟩
        · rename_i hm
          exact Or.inr ⟨rfl, by simp [hm], true, (Option.some.inj h).symm⟩
        · cases h
      · cases h

namespace Shutdown

/-- A step of the main thread that does not concern the shutdown. -/
theorem of_lifecycle (h : Shutdown s) (hm : ∀ b, s.main ≠ .joining b)
    (hm' : ∀ b, s'.main ≠ .joining b) (hc : s'.core.lifecycle = s.core.lifecycle)
    (hr : s'.reader = s.reader) (hh : s'.handoff ⊆ s.handoff) : Shutdown s' := by
  simp only [Core.lifecycle, Prod.mk.injEq] at hc
  obtain ⟨hstate, hdestroy, hthread, hjoins, hcloses⟩ := hc
  constructor
  · rw [hstate]
    exact h.constructed
  · exact fun kind hk => h.kinds kind (hh hk)
  · rw [hstate, hthread, hjoins, hcloses]
    intro hconnected
    obtain ⟨ht, hj, hcl, -⟩ := h.before hconnected
    exact ⟨ht, hj, hcl, hm'⟩
  · intro b hb
    exact absurd hb (hm' b)
  · rw [hstate, hdestroy, hthread, hjoins, hcloses, hr]
    intro hstopping _
    exact h.after hstopping hm

/-- A step of the reader thread: it has returned before the shutdown is over. -/
theorem of_reader (h : Shutdown s) (hr : s.reader.pc ≠ .exited) (hm : s'.main = s.main)
    (hc : s'.core.lifecycle = s.core.lifecycle)
    (hh : ∀ kind ∈ s'.handoff, kind ∈ s.handoff ∨ kind = .forwardUp ∨ kind = .stop) :
    Shutdown s' := by
  simp only [Core.lifecycle, Prod.mk.injEq] at hc
  obtain ⟨hstate, hdestroy, hthread, hjoins, hcloses⟩ := hc
  constructor
  · rw [hstate]
    exact h.constructed
  · exact fun kind hk => (hh kind hk).elim (h.kinds kind) id
  · rw [hstate, hthread, hjoins, hcloses, hm]
    exact h.before
  · rw [hstate, hjoins, hcloses, hm]
    exact h.during
  · rw [hstate, hm]
    intro hstopping hnot
    exact absurd (h.after hstopping hnot).1 hr

/-- The first `Stop` waits in `join`; a later one changes nothing of the shutdown. -/
theorem stop (h : Shutdown s) (hm : ∀ b, s.main ≠ .joining b) (destroying : Bool) :
    Shutdown (s.stop destroying) := by
  by_cases hc : s.core.state = .connected
  · obtain ⟨ht, hj, hcl, -⟩ := h.before hc
    rw [State.stop_of_connected hc ht]
    constructor
    · simp
    · exact h.kinds
    · intro hconnected
      cases hconnected
    · exact fun _ _ => ⟨rfl, hj, hcl⟩
    · intro _ hnot
      exact absurd rfl (hnot destroying)
  · have hstopping : s.core.state = .stopping := by
      cases hstate : s.core.state with
      | created => exact absurd hstate h.constructed
      | connected => exact absurd hstate hc
      | stopping => rfl
    obtain ⟨hr, hj, hcl, -, ht⟩ := h.after hstopping hm
    rw [State.stop_of_ne hc, Core.cancelEvents_eq]
    constructor
    · simp
    · exact h.kinds
    · intro hconnected
      cases hconnected
    · intro b hb
      exact absurd hb (MainPc.afterStop_ne_joining _ _)
    · exact fun _ _ => ⟨hr, hj, hcl, rfl, ht⟩

theorem step (h : Shutdown s) (hstep : Gateway.step D s l = some s') : Shutdown s' := by
  cases Step.of_step hstep with
  | server => exact ⟨h.constructed, h.kinds, h.before, h.during, h.after⟩
  | silent _ hr =>
      refine h.of_reader ?_ rfl rfl fun kind hk => Or.inl hk
      intro hpc
      simp [Reader.step, hpc] at hr
  | push hpc => exact h.of_reader (by simp [hpc]) rfl rfl fun kind hk => Or.inl hk
  | scheduleForwardUp hpc =>
      refine h.of_reader (by simp [hpc]) rfl rfl fun kind hk => ?_
      exact (List.mem_append.mp hk).imp id fun hk => Or.inl (List.mem_singleton.mp hk)
  | scheduleStop hpc =>
      refine h.of_reader (by simp [hpc]) rfl rfl fun kind hk => ?_
      exact (List.mem_append.mp hk).imp id fun hk => Or.inr (List.mem_singleton.mp hk)
  | user hm =>
      exact h.of_lifecycle (by simp [hm]) (by simp [hm]) (Core.user_lifecycle h.constructed _) rfl
        (List.Subset.refl _)
  | resume hm | drained hm =>
      exact h.of_lifecycle (by simp [hm]) (by simp) rfl rfl (List.Subset.refl _)
  | insert hm hh =>
      refine h.of_lifecycle (by simp [hm]) (by simp [hm]) rfl rfl ?_
      rw [hh]
      exact List.subset_cons_self _ _
  | wait hm =>
      exact h.of_lifecycle (by simp [hm]) (by simp) Core.waitForNextUpdate_lifecycle rfl
        (List.Subset.refl _)
  | forwardUp hm =>
      exact h.of_lifecycle (by simp [hm]) (by simp) Core.forwardUp_lifecycle rfl
        (List.Subset.refl _)
  | handleUpdate hm =>
      exact h.of_lifecycle (by simp [hm]) (by simp) (Core.handleUpdate_lifecycle _) rfl
        (List.Subset.refl _)
  | doInitialize hm | unrelated hm =>
      exact h.of_lifecycle (by simp [hm]) (by simp) rfl rfl (List.Subset.refl _)
  | @stop e sim hm =>
      have hpopped : Shutdown { s with core := s.core.advance sim } :=
        ⟨h.constructed, h.kinds, h.before, h.during, h.after⟩
      exact hpopped.stop (by simp [hm]) false
  | @join b hm hx =>
      obtain ⟨hstate, hj, hcl⟩ := h.during b hm
      simp only [State.joined, Core.cancelEvents_eq]
      constructor
      · simp [Core.close, Core.join, hstate]
      · exact h.kinds
      · intro hconnected
        cases hstate.symm.trans hconnected
      · intro b' hb'
        exact absurd hb' (MainPc.afterStop_ne_joining _ _)
      · intro _ _
        simp [Core.close, Core.join, hj, hcl, hx]
  | destroy hm =>
      refine State.destroy_cases s ?_ ?_
      · intro _
        have htaken : Shutdown { s with core.eventDestroy := false } := by
          refine ⟨h.constructed, h.kinds, h.before, h.during, fun hstopping hnot => ?_⟩
          obtain ⟨hr, hj, hcl, -, ht⟩ := h.after hstopping hnot
          exact ⟨hr, hj, hcl, rfl, ht⟩
        exact htaken.stop (by simp [hm]) true
      · intro _
        exact h.of_lifecycle (by simp [hm]) (by simp) rfl rfl (List.Subset.refl _)

theorem stepOrStop (h : Shutdown s) {l : Option Label}
    (hstep : Gateway.stepOrStop D s l = some s') : Shutdown s' := by
  obtain ⟨l', -, hstep⟩ | ⟨-, hm, destroying, rfl⟩ := stepOrStop_cases hstep
  · exact h.step hstep
  · exact h.stop hm destroying

end Shutdown

theorem OccursStopping.shutdown (h : OccursStopping D s) : Shutdown s := by
  obtain ⟨sim, outbound, -, hr⟩ := h
  refine hr.invariant (P := Shutdown) ?_ fun _ _ _ _ hs _ hstep => hs.stepOrStop hstep
  constructor
  · simp [State.connected, Core.connect, Core.construct, Core.scheduleWait]
  · simp [State.connected]
  · simp [State.connected, Core.connect, Core.construct, Core.scheduleWait]
  · simp [State.connected]
  · simp [State.connected, Core.connect, Core.construct, Core.scheduleWait]

end Ns3Cosim.Gateway
