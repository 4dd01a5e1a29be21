import Mathlib.Order.Lattice
import Ns3Cosim.Execution.Transition

/-!
# One question at a time

One party asks, the other answers, and the first asks again only when it has
received the answer. The answers are kept in a list from which the first party
takes them in order. In every run at most one question is open, and at most one
answer is on its way.
-/

namespace Ns3Cosim.Execution

/-- The questions asked, the answers given, and the answers received. -/
structure Exchange (α β : Type*) where
  asked : List α
  answered : List β
  received : List β

namespace Exchange

variable {α β : Type*}

/-- What the two parties do. -/
inductive Move (α β : Type*)
  | ask (question : α)
  | answer (reply : β)
  | receive

/-- Nothing has been asked. -/
def start : Exchange α β := ⟨[], [], []⟩

/-- A question follows the answer to the one before, and an answer follows its question. -/
def step (x : Exchange α β) : Move α β → Option (Exchange α β)
  | .ask question =>
      if x.received.length = x.asked.length then some { x with asked := x.asked ++ [question] }
      else none
  | .answer reply =>
      if x.answered.length < x.asked.length then some { x with answered := x.answered ++ [reply] }
      else none
  | .receive =>
      x.answered[x.received.length]?.map fun reply =>
        { x with received := x.received ++ [reply] }

/-- The answers are received in order, each after its question, and before the next one. -/
structure Alternates (x : Exchange α β) : Prop where
  received : x.received <+: x.answered
  answered : x.answered.length ≤ x.asked.length
  asked : x.asked.length ≤ x.received.length + 1

variable {x x' : Exchange α β} {m : Move α β}

theorem Alternates.step (h : x.Alternates) (hstep : x.step m = some x') : x'.Alternates := by
  cases m with
  | ask question =>
      simp only [Exchange.step] at hstep
      split at hstep
      · rename_i hlen
        cases hstep
        refine ⟨h.received, ?_, ?_⟩
        · rw [List.length_append]
          exact h.answered.trans (Nat.le_add_right _ _)
        · rw [List.length_append, List.length_singleton, hlen]
      · cases hstep
  | answer reply =>
      simp only [Exchange.step] at hstep
      split at hstep
      · rename_i hlt
        cases hstep
        refine ⟨h.received.trans (List.prefix_append _ _), ?_, h.asked⟩
        rw [List.length_append, List.length_singleton]
        exact hlt
      · cases hstep
  | receive =>
      obtain ⟨reply, hreply, rfl⟩ := Option.map_eq_some_iff.mp hstep
      obtain ⟨rest, hrest⟩ := h.received
      have hlen : x.asked.length ≤ x.received.length + 1 + 1 := h.asked.trans (Nat.le_succ _)
      refine ⟨?_, h.answered, ?_⟩
      · rw [← hrest, List.getElem?_append_right le_rfl, Nat.sub_self] at hreply
        cases rest with
        | nil => simp at hreply
        | cons r rest =>
            rw [List.getElem?_cons_zero, Option.some.injEq] at hreply
            rw [← hrest, hreply]
            exact ⟨rest, by simp⟩
      · rw [List.length_append, List.length_singleton]
        exact hlen

/-- In every run. -/
theorem alternates {ok : Exchange α β → Move α β → Prop} (h : Reach step ok start x) :
    x.Alternates := by
  have hstart : (start : Exchange α β).Alternates := ⟨List.prefix_rfl, le_rfl, Nat.le_succ 0⟩
  exact h.invariant hstart fun _ _ _ _ hx _ hstep => hx.step hstep

/-- All answers have been received, or all but the latest. -/
theorem Alternates.outstanding (h : x.Alternates) :
    x.answered = x.received ∨ ∃ reply, x.answered = x.received ++ [reply] := by
  obtain ⟨rest, hrest⟩ := h.received
  have hlen : rest.length ≤ 1 := by
    have hanswered := h.answered.trans h.asked
    rw [← hrest, List.length_append] at hanswered
    omega
  cases rest with
  | nil => exact Or.inl (by rw [← hrest, List.append_nil])
  | cons reply rest =>
      rw [List.length_cons] at hlen
      have hnil := List.length_eq_zero_iff.mp (Nat.le_zero.mp (Nat.le_of_succ_le_succ hlen))
      exact Or.inr ⟨reply, by rw [← hrest, hnil]⟩

/-- A question whose answer has been received is not open. -/
theorem Alternates.eq_of_received (h : x.Alternates) (hlen : x.asked.length = x.received.length) :
    x.answered = x.received := by
  obtain heq | ⟨reply, heq⟩ := h.outstanding
  · exact heq
  · have hle := h.answered
    rw [heq, List.length_append, List.length_singleton] at hle
    omega

end Exchange

end Ns3Cosim.Execution
