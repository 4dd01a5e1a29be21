import Mathlib.Order.WellFounded
import Ns3Cosim.Execution.Transition

/-!
# States that can still be reached

`Leads step ok P s` says that some run from `s` gets to a state with `P`. A
system in which every reachable state leads to a final one has neither a
deadlock nor a loop without a way out. The rule for proving it is a rank that
some step lowers wherever `P` does not hold yet.
-/

namespace Ns3Cosim.Execution

variable {σ ℓ : Type*}

/-- Some run of allowed steps from `s` gets to a state with `P`. -/
def Leads (step : σ → ℓ → Option σ) (ok : σ → ℓ → Prop) (P : σ → Prop) (s : σ) : Prop :=
  ∃ s', Reach step ok s s' ∧ P s'

namespace Leads

variable {step : σ → ℓ → Option σ} {ok : σ → ℓ → Prop} {P : σ → Prop} {s s' : σ} {a : ℓ}

theorem here (h : P s) : Leads step ok P s := ⟨s, Reach.start, h⟩

theorem next (hok : ok s a) (hstep : step s a = some s') (h : Leads step ok P s') :
    Leads step ok P s := by
  obtain ⟨t, hr, hP⟩ := h
  exact ⟨t, (Reach.start.next hok hstep).trans hr, hP⟩

/-- Wherever `P` does not hold, some allowed step gets there, or keeps `I` and lowers the rank. -/
theorem of_rank {β : Type*} [LT β] [WellFoundedLT β] {I : σ → Prop} (rank : σ → β)
    (hstep : ∀ s, I s → P s ∨ ∃ a s', ok s a ∧ step s a = some s' ∧
      (P s' ∨ I s' ∧ rank s' < rank s))
    (hs : I s) : Leads step ok P s := by
  induction hr : rank s using WellFoundedLT.induction generalizing s with
  | _ r ih =>
      obtain hP | ⟨a, s', hok, hs', hP | ⟨hI, hlt⟩⟩ := hstep s hs
      · exact here hP
      · exact next hok hs' (here hP)
      · exact next hok hs' (ih _ (hr ▸ hlt) hI rfl)

end Leads

end Ns3Cosim.Execution
