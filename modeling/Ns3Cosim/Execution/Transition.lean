import Mathlib.Data.List.Basic

/-!
# Runs of an executable step function

`step s a` is the state after the step labelled `a`, or `none` where that step
is not enabled. `Reach step ok s₀` collects the states of all runs from `s₀`
in which every step taken meets the condition `ok`, a condition on the state
before the step and its label. With `fun _ _ => True` these are all runs.
-/

namespace Ns3Cosim.Execution

variable {σ ℓ : Type*}

/-- The state after a list of steps, if each of them is enabled in its turn. -/
def run (step : σ → ℓ → Option σ) : σ → List ℓ → Option σ
  | s, [] => some s
  | s, a :: as => (step s a).bind fun s' => run step s' as

theorem run_cons {step : σ → ℓ → Option σ} {s s' : σ} {a : ℓ} {as : List ℓ} {t : Option σ}
    (hstep : step s a = some s') (hrun : run step s' as = t) : run step s (a :: as) = t := by
  rw [run, hstep]
  exact hrun

/-- What every step preserves, a list of steps preserves. -/
theorem run_preserves {step : σ → ℓ → Option σ} {P : σ → Prop}
    (hstep : ∀ s a s', P s → step s a = some s' → P s') {s s' : σ} {as : List ℓ}
    (hrun : run step s as = some s') (hs : P s) : P s' := by
  induction as generalizing s with
  | nil =>
      cases hrun
      exact hs
  | cons a as ih =>
      obtain ⟨t, ht, hrest⟩ := Option.bind_eq_some_iff.mp hrun
      exact ih hrest (hstep s a t hs ht)

/-- The steps that meet `ok`. -/
def guarded (ok : σ → ℓ → Prop) [∀ s a, Decidable (ok s a)] (step : σ → ℓ → Option σ) (s : σ)
    (a : ℓ) : Option σ :=
  if ok s a then step s a else none

/-- The states of the runs whose steps all meet `ok`. -/
inductive Reach (step : σ → ℓ → Option σ) (ok : σ → ℓ → Prop) (s₀ : σ) : σ → Prop
  | start : Reach step ok s₀ s₀
  | next {s s' : σ} {a : ℓ} (h : Reach step ok s₀ s) (hok : ok s a)
      (hstep : step s a = some s') : Reach step ok s₀ s'

/-- The condition that every step meets. -/
abbrev always (_ : σ) (_ : ℓ) : Prop := True

namespace Reach

variable {step : σ → ℓ → Option σ} {ok : σ → ℓ → Prop} {s₀ s : σ}

/-- What holds at the start and is preserved by every allowed step holds in every state reached. The
step may use what is already known of reachable states. -/
theorem invariant {P : σ → Prop} (h₀ : P s₀)
    (hstep : ∀ s a s', Reach step ok s₀ s → P s → ok s a → step s a = some s' → P s')
    (h : Reach step ok s₀ s) : P s := by
  induction h with
  | start => exact h₀
  | next hr hok hs ih => exact hstep _ _ _ hr ih hok hs

theorem mono {ok' : σ → ℓ → Prop} (hok : ∀ s a, ok s a → ok' s a)
    (h : Reach step ok s₀ s) : Reach step ok' s₀ s := by
  induction h with
  | start => exact start
  | next _ ha hs ih => exact ih.next (hok _ _ ha) hs

theorem trans {s' : σ} (h : Reach step ok s₀ s) (h' : Reach step ok s s') :
    Reach step ok s₀ s' := by
  induction h' with
  | start => exact h
  | next _ ha hs ih => exact ih.next ha hs

/-- A forward simulation along an abstraction of states and labels takes runs to runs. -/
theorem simulation {σ' ℓ' : Type*} {step' : σ' → ℓ' → Option σ'} {ok' : σ' → ℓ' → Prop}
    (abs : σ → σ') (move : σ → ℓ → ℓ')
    (hsim : ∀ s a s', Reach step ok s₀ s → ok s a → step s a = some s' →
      ok' (abs s) (move s a) ∧ step' (abs s) (move s a) = some (abs s'))
    (h : Reach step ok s₀ s) : Reach step' ok' (abs s₀) (abs s) := by
  induction h with
  | start => exact start
  | next hr ha hs ih =>
      obtain ⟨hok, hstep⟩ := hsim _ _ _ hr ha hs
      exact ih.next hok hstep

/-- A simulation in which a step may also be invisible to the abstraction. The step may use what is
known of both sides. -/
theorem stuttering {σ' ℓ' : Type*} {step' : σ' → ℓ' → Option σ'} {ok' : σ' → ℓ' → Prop}
    (abs : σ → σ')
    (hsim : ∀ s a s', Reach step ok s₀ s → Reach step' ok' (abs s₀) (abs s) → ok s a →
      step s a = some s' → abs s' = abs s ∨ ∃ b, ok' (abs s) b ∧ step' (abs s) b = some (abs s'))
    (h : Reach step ok s₀ s) : Reach step' ok' (abs s₀) (abs s) := by
  induction h with
  | start => exact start
  | next hr ha hs ih =>
      obtain heq | ⟨b, hok, hstep⟩ := hsim _ _ _ hr ih ha hs
      · rw [heq]
        exact ih
      · exact ih.next hok hstep

/-- A computed run of the guarded steps reaches its last state. -/
theorem of_run {as : List ℓ} [∀ s a, Decidable (ok s a)]
    (h : run (guarded ok step) s₀ as = some s) : Reach step ok s₀ s := by
  induction as generalizing s₀ with
  | nil =>
      cases h
      exact start
  | cons a as ih =>
      obtain ⟨t, ht, hrun⟩ := Option.bind_eq_some_iff.mp h
      unfold guarded at ht
      split at ht
      · rename_i hok
        exact (start.next hok ht).trans (ih hrun)
      · cases ht

end Reach

end Ns3Cosim.Execution
