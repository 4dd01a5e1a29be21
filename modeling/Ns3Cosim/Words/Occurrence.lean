import Mathlib.Data.List.Infix
import Mathlib.Data.List.TakeDrop

/-!
# Leftmost occurrences of one word in another

`find d w` is the position of the leftmost occurrence of `d` in `w`. An
occurrence is a prefix of a drop of `w`, so that positions are plain numbers
and occurrences that straddle a concatenation are still described by one drop.
-/

namespace Ns3Cosim.Words

variable {α : Type*} [DecidableEq α]

/-- The position of the leftmost occurrence of `d`, if there is one. -/
def find (d : List α) : List α → Option ℕ
  | [] => if d = [] then some 0 else none
  | c :: w => if d <+: c :: w then some 0 else (find d w).map (· + 1)

theorem find_eq_some_iff (d w : List α) (k : ℕ) :
    find d w = some k ↔ k ≤ w.length ∧ d <+: w.drop k ∧ ∀ j < k, ¬ d <+: w.drop j := by
  induction w generalizing k with
  | nil =>
      simp only [find, List.drop_nil, List.prefix_nil, List.length_nil, Nat.le_zero]
      by_cases hd : d = []
      · simp only [hd, if_true, Option.some.injEq, not_true_eq_false, true_and]
        constructor
        · rintro rfl
          simp
        · rintro ⟨rfl, -⟩
          rfl
      · simp [hd]
  | cons c w ih =>
      simp only [find]
      by_cases hp : d <+: c :: w
      · simp only [hp, if_true, Option.some.injEq]
        constructor
        · rintro rfl
          simp [hp]
        · rintro ⟨-, -, hmin⟩
          by_contra hk
          exact hmin 0 (by omega) (by simpa using hp)
      · simp only [hp, if_false, Option.map_eq_some_iff]
        constructor
        · rintro ⟨j, hj, rfl⟩
          obtain ⟨hle, hpre, hmin⟩ := (ih j).mp hj
          refine ⟨by simp only [List.length_cons]; omega, by simpa using hpre, ?_⟩
          intro i hi
          cases i with
          | zero => simpa using hp
          | succ i => simpa using hmin i (by omega)
        · rintro ⟨hle, hpre, hmin⟩
          cases k with
          | zero => exact absurd (by simpa using hpre) hp
          | succ k =>
              refine ⟨k, (ih k).mpr ⟨by simpa using hle, by simpa using hpre, ?_⟩, rfl⟩
              intro j hj
              simpa using hmin (j + 1) (by omega)

theorem find_eq_none_iff (d w : List α) : find d w = none ↔ ¬ d <:+: w := by
  induction w with
  | nil =>
      simp only [find, List.infix_nil]
      by_cases hd : d = [] <;> simp [hd]
  | cons c w ih =>
      simp only [find, List.infix_cons_iff, not_or]
      by_cases hp : d <+: c :: w
      · simp [hp]
      · simp [hp, ih]

theorem find_isPrefix {d w : List α} {k : ℕ} (h : find d w = some k) : d <+: w.drop k :=
  ((find_eq_some_iff d w k).mp h).2.1

theorem find_length_le {d w : List α} {k : ℕ} (h : find d w = some k) :
    k + d.length ≤ w.length := by
  obtain ⟨hk, hp, -⟩ := (find_eq_some_iff d w k).mp h
  have hlen := hp.length_le
  rw [List.length_drop] at hlen
  omega

/-- The text before a leftmost occurrence, the occurrence and the rest give back the word. -/
theorem find_decompose {d w : List α} {k : ℕ} (h : find d w = some k) :
    w.take k ++ (d ++ w.drop (k + d.length)) = w := by
  obtain ⟨t, ht⟩ := find_isPrefix h
  have hrest : w.drop (k + d.length) = t := by
    rw [← List.drop_drop, ← ht, List.drop_left]
  rw [hrest, ht, List.take_append_drop]

/-- Reading further input never moves a leftmost occurrence already seen. -/
theorem find_append_of_some {d w : List α} {k : ℕ} (h : find d w = some k) (x : List α) :
    find d (w ++ x) = some k := by
  have hlen := find_length_le h
  obtain ⟨hk, hp, hmin⟩ := (find_eq_some_iff d w k).mp h
  refine (find_eq_some_iff d (w ++ x) k).mpr ⟨by simp only [List.length_append]; omega, ?_, ?_⟩
  · rw [List.drop_append_of_le_length hk]
    exact hp.trans (List.prefix_append _ _)
  · intro j hj hocc
    rw [List.drop_append_of_le_length (by omega)] at hocc
    exact hmin j hj (List.prefix_of_prefix_length_le hocc (List.prefix_append _ _)
      (by rw [List.length_drop]; omega))

/-- No occurrence of `d` starts inside `x` when `z` follows `x`. -/
def Avoids (d x z : List α) : Prop := ∀ j < x.length, ¬ d <+: (x ++ z).drop j

omit [DecidableEq α] in
@[simp] theorem avoids_nil (d z : List α) : Avoids d [] z := by
  intro j hj
  simp at hj

omit [DecidableEq α] in
theorem Avoids.append {d x y z : List α} (hx : Avoids d x (y ++ z)) (hy : Avoids d y z) :
    Avoids d (x ++ y) z := by
  intro j hj hocc
  rw [List.append_assoc] at hocc
  by_cases hlt : j < x.length
  · exact hx j hlt hocc
  · rw [List.length_append] at hj
    rw [List.drop_append, List.drop_eq_nil_of_le (by omega), List.nil_append] at hocc
    exact hy (j - x.length) (by omega) hocc

/-- With nothing starting inside `x`, the occurrence right after `x` is the leftmost one. -/
theorem find_append_of_avoids {d x : List α} (z : List α) (h : Avoids d x (d ++ z)) :
    find d (x ++ (d ++ z)) = some x.length := by
  refine (find_eq_some_iff _ _ _).mpr ⟨by simp, by simp, ?_⟩
  intro j hj hocc
  exact h j hj hocc

omit [DecidableEq α] in
/-- An occurrence that starts inside `x` lies in `x` or straddles the end of `x`. -/
theorem Avoids.of_forall {d x z : List α} (hin : ¬ d <:+: x)
    (hcross : ∀ s t, d = s ++ t → s ≠ [] → t ≠ [] → s <:+ x → ¬ t <+: z) : Avoids d x z := by
  intro j hj hocc
  rw [List.drop_append_of_le_length (by omega)] at hocc
  have hne : x.drop j ≠ [] := by
    intro hnil
    have hlen := congrArg List.length hnil
    rw [List.length_drop, List.length_nil] at hlen
    omega
  obtain hd | hs := List.prefix_or_prefix_of_prefix hocc (List.prefix_append (x.drop j) z)
  · exact hin (hd.isInfix.trans (List.drop_suffix j x).isInfix)
  · obtain ⟨t, ht⟩ := hs
    by_cases htn : t = []
    · apply hin
      rw [← ht, htn, List.append_nil]
      exact (List.drop_suffix j x).isInfix
    · apply hcross (x.drop j) t ht.symm hne htn (List.drop_suffix j x)
      rw [← ht] at hocc
      exact (List.prefix_append_right_inj _).mp hocc

end Ns3Cosim.Words
