import Ns3Cosim.Gateway.Steps

/-!
# Runs of the system

`Preserved` collects what a property of the main thread's side has to survive,
one field for each thing that a step does to it. `Occurs` says that a state
occurs in a run whose steps all meet a condition, and `Occurs.preserved` turns
the one into the other.
-/

namespace Ns3Cosim.Gateway

open Execution

variable {D : Delimiters}

/-- A property of the main thread's side that survives every step of the system. -/
structure Preserved (D : Delimiters) (P : Core → Prop) : Prop where
  push : ∀ c message, P c → P { c with messageQueue := c.messageQueue ++ [message] }
  insert : ∀ c kind, P c → P { c with sim := c.sim.scheduleNow kind }
  user : ∀ c action, P c → c.fatal = none → P (c.user D action)
  wait : ∀ c e sim, P c → c.sim.next? = some (e, sim) → e.kind = .waitForNextUpdate →
    P (c.advance sim).waitForNextUpdate
  forwardUp : ∀ c e sim, P c → c.fatal = none → c.sim.next? = some (e, sim) →
    e.kind = .forwardUp → P ((c.advance sim).forwardUp D)
  doInitialize : ∀ c e sim data, P c → c.sim.next? = some (e, sim) →
    e.kind = .doInitialize data → P ((c.advance sim).doInitialize data)
  handleUpdate : ∀ c e sim data, P c → c.sim.next? = some (e, sim) →
    e.kind = .handleUpdate data → P ((c.advance sim).handleUpdate data)
  leave : ∀ c e sim, P c → c.sim.next? = some (e, sim) → e.kind = .stop ∨ e.kind = .unrelated →
    P (c.advance sim)
  halt : ∀ c, P c → P { c with state := .stopping }
  join : ∀ c, P c → P c.join
  close : ∀ c, P c → P c.close
  destroyTaken : ∀ c, P c → P { c with eventDestroy := false }
  cancelEvents : ∀ c, c.state = .stopping → P c → P c.cancelEvents

theorem Preserved.stop {P : Core → Prop} (h : Preserved D P) {s : State} (hs : P s.core)
    (destroying : Bool) : P (s.stop destroying).core := by
  have halted := h.halt _ hs
  refine State.stop_cases s destroying ?_ ?_ ?_
  · intro _ _
    exact halted
  · exact h.cancelEvents _ rfl (h.close _ halted)
  · exact h.cancelEvents _ rfl halted

/-- A step of the system preserves it; a join finds the gateway stopping. -/
theorem Preserved.step {P : Core → Prop} (h : Preserved D P) {s s' : State} {l : Label}
    (hj : ∀ b, s.main = .joining b → s.core.state = .stopping) (hs : P s.core)
    (hstep : step D s l = some s') : P s'.core := by
  have hf := (step_eq_some hstep).1
  cases Step.of_step hstep with
  | server => exact hs
  | silent => exact hs
  | push => exact h.push _ _ hs
  | scheduleForwardUp => exact hs
  | scheduleStop => exact hs
  | user => exact h.user _ _ hs hf
  | resume => exact hs
  | insert => exact h.insert _ _ hs
  | drained => exact hs
  | wait _ _ hn hk => exact h.wait _ _ _ hs hn hk
  | forwardUp _ _ hn hk => exact h.forwardUp _ _ _ hs hf hn hk
  | stop _ _ hn hk =>
      exact h.stop (s := { s with core := s.core.advance _ }) (h.leave _ _ _ hs hn (Or.inl hk)) false
  | doInitialize _ _ hn hk => exact h.doInitialize _ _ _ _ hs hn hk
  | handleUpdate _ _ hn hk => exact h.handleUpdate _ _ _ _ hs hn hk
  | unrelated _ _ hn hk => exact h.leave _ _ _ hs hn (Or.inr hk)
  | join hm => exact h.cancelEvents _ (hj _ hm) (h.close _ (h.join _ hs))
  | destroy =>
      refine State.destroy_cases s ?_ ?_
      · intro _
        exact h.stop (s := { s with core.eventDestroy := false }) (h.destroyTaken _ hs) true
      · intro _
        exact hs

/-- While the main thread waits in `join`, the gateway is stopping. -/
def JoinsStopping (s : State) : Prop := ∀ b, s.main = .joining b → s.core.state = .stopping

theorem MainPc.afterStop_ne_joining (destroying b : Bool) : afterStop destroying ≠ .joining b := by
  cases destroying <;> simp [afterStop]

theorem State.stop_joinsStopping (s : State) (destroying : Bool) :
    JoinsStopping (s.stop destroying) := by
  refine State.stop_cases s destroying ?_ ?_ ?_
  · intro _ _ _ _
    rfl
  · intro b hb
    exact absurd hb (MainPc.afterStop_ne_joining _ _)
  · intro b hb
    exact absurd hb (MainPc.afterStop_ne_joining _ _)

theorem JoinsStopping.step {s s' : State} {l : Label} (hj : JoinsStopping s)
    (hstep : step D s l = some s') : JoinsStopping s' := by
  cases Step.of_step hstep with
  | server => exact hj
  | silent => exact hj
  | push => exact hj
  | scheduleForwardUp => exact hj
  | scheduleStop => exact hj
  | stop => exact State.stop_joinsStopping _ _
  | destroy =>
      refine State.destroy_cases s ?_ ?_
      · intro _
        exact State.stop_joinsStopping _ _
      · intro _ b hb
        cases hb
  | join =>
      intro b hb
      exact absurd hb (MainPc.afterStop_ne_joining _ _)
  | user hm | insert hm =>
      intro b hb
      simp [hm] at hb
  | resume | drained | wait | forwardUp | doInitialize | handleUpdate | unrelated =>
      intro b hb
      simp at hb

/-- The state occurs in a run, with steps that all meet `ok`, of a gateway that was connected at
the simulation time `t₀` among any unrelated events. -/
def Occurs (D : Delimiters) (ok : State → Label → Prop) (t₀ : ℤ) (s : State) : Prop :=
  ∃ (sim : Simulator Kind) (outbound : Outbound),
    (∀ e ∈ sim.queue, e.kind = .unrelated) ∧ sim.now = t₀ ∧
      Reach (Gateway.step D) ok (.connected sim outbound) s

/-- The state after the given steps, all of which meet `ok`, of a gateway with `n` values that was
connected at `t₀` in a simulator without other events. -/
def State.after (D : Delimiters) (ok : State → Label → Prop) [∀ s l, Decidable (ok s l)] (t₀ : ℤ)
    (n : ℕ) (labels : List Label) : Option State :=
  run (guarded ok (Gateway.step D)) (.connected (.empty t₀) (.construct n)) labels

/-- The reader tests the state, finds no message in what it has, receives `n` bytes, cuts a message
off, pushes it and schedules `ForwardUp`. -/
def Label.receive (n : ℕ) : List Label :=
  [.reader 0, .reader 0, .reader n, .reader 0, .reader 0, .reader 0]

/-- The same for a message that was received with an earlier one. -/
def Label.received : List Label := [.reader 0, .reader 0, .reader 0, .reader 0]

/-- A run that processes the messages `0 0` and `6 0`, which arrive together. -/
def Label.grantedRun : List Label :=
  [.server (.send ['0', ' ', '0', '\r', '\n', '6', ' ', '0', '\r', '\n'])] ++
    receive 10 ++ received ++
    [.resume, .drain, .drain, .drain, .event, .drain, .event, .drain, .event]

namespace Occurs

variable {ok : State → Label → Prop} {t₀ : ℤ} {s s' : State} {l : Label}

theorem next (h : Occurs D ok t₀ s) (hok : ok s l) (hstep : Gateway.step D s l = some s') :
    Occurs D ok t₀ s' := by
  obtain ⟨sim, outbound, hsim, ht, hr⟩ := h
  exact ⟨sim, outbound, hsim, ht, hr.next hok hstep⟩

theorem of_after {n : ℕ} {labels : List Label} [∀ s l, Decidable (ok s l)]
    (h : State.after D ok t₀ n labels = some s) : Occurs D ok t₀ s :=
  ⟨.empty t₀, .construct n, by simp [Simulator.empty], rfl, .of_run h⟩

theorem mono {ok' : State → Label → Prop} (hok : ∀ s l, ok s l → ok' s l)
    (h : Occurs D ok t₀ s) : Occurs D ok' t₀ s := by
  obtain ⟨sim, outbound, hsim, ht, hr⟩ := h
  exact ⟨sim, outbound, hsim, ht, hr.mono hok⟩

/-- Induction over runs, with what is known of the states before. -/
theorem induct {P : State → Prop}
    (start : ∀ sim outbound, (∀ e ∈ sim.queue, e.kind = .unrelated) → sim.now = t₀ →
      P (.connected sim outbound))
    (step : ∀ s l s', Occurs D ok t₀ s → P s → ok s l → Gateway.step D s l = some s' → P s')
    (h : Occurs D ok t₀ s) : P s := by
  obtain ⟨sim, outbound, hsim, ht, hr⟩ := h
  refine hr.invariant (start sim outbound hsim ht) fun s l s' hr hs hok hstep => ?_
  exact step s l s' ⟨sim, outbound, hsim, ht, hr⟩ hs hok hstep

theorem joinsStopping (h : Occurs D ok t₀ s) : JoinsStopping s := by
  refine h.induct (fun sim outbound _ _ b hb => ?_) fun s l s' _ hs _ hstep => hs.step hstep
  simp [State.connected] at hb

/-- A property of the main thread's side that holds after `Connect` and survives every step holds
in every state of every run. -/
theorem preserved {P : Core → Prop} (hP : Preserved D P)
    (start : ∀ sim outbound, (∀ e ∈ sim.queue, e.kind = .unrelated) → sim.now = t₀ →
      P (State.connected sim outbound).core)
    (h : Occurs D ok t₀ s) : P s.core :=
  h.induct start fun _ _ _ hs hP' _ hstep => hP.step hs.joinsStopping hP' hstep

end Occurs

end Ns3Cosim.Gateway
