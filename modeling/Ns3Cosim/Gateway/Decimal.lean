import Ns3Cosim.Gateway.Header
import Mathlib.Data.List.TakeWhile

/-!
# Decimal numbers in a header

A server writes the numbers of a header in decimal. The two library calls of
`ForwardUp` read such a number back, and no delimiter without digits and minus
signs occurs in it.
-/

namespace Ns3Cosim.Gateway

open Words

/-- The decimal representation of a number. -/
def decimal : ℤ → Str
  | .ofNat n => Nat.toDigits 10 n
  | .negSucc n => '-' :: Nat.toDigits 10 (n + 1)

theorem isDigit_of_mem {n : ℕ} {c : Char} (h : c ∈ Nat.toDigits 10 n) : c.isDigit = true :=
  Nat.isDigit_of_mem_toDigits (by decide) (by decide) h

theorem toDigits_cons (n : ℕ) : ∃ c cs, Nat.toDigits 10 n = c :: cs ∧ c.isDigit = true := by
  obtain ⟨c, cs, hcons⟩ := List.exists_cons_of_ne_nil (Nat.toDigits_ne_nil (n := n) (b := 10))
  exact ⟨c, cs, hcons, isDigit_of_mem (hcons ▸ List.mem_cons_self)⟩

theorem digitsValue_toDigits (n : ℕ) : digitsValue (Nat.toDigits 10 n) = some (n : ℤ) := by
  have hall : (Nat.toDigits 10 n).takeWhile Char.isDigit = Nat.toDigits 10 n :=
    List.takeWhile_eq_self_iff.mpr fun c hc => isDigit_of_mem hc
  obtain ⟨c, cs, hcons, -⟩ := toDigits_cons n
  unfold digitsValue
  rw [hall, hcons]
  simp only [← hcons, Nat.ofDigitChars_ten_toDigits]

/-- A digit is neither white space nor a sign. -/
theorem isSpace_of_isDigit {c : Char} (h : c.isDigit = true) :
    isSpace c = false ∧ c ≠ '-' ∧ c ≠ '+' := by
  have hlow : '0'.toNat ≤ c.toNat := (Char.isDigit_iff_toNat.mp h).1
  have hne : ∀ b : Char, b.toNat < '0'.toNat → c ≠ b := by
    rintro b hb rfl
    exact absurd hlow (not_le.mpr hb)
  have hhigh : ¬ c ≤ '\r' := by
    intro hle
    have hle : c.toNat ≤ '\r'.toNat := hle
    exact absurd (hlow.trans hle) (by decide)
  refine ⟨?_, hne '-' (by decide), hne '+' (by decide)⟩
  simp [isSpace, hne ' ' (by decide), hhigh]

theorem strtol_decimal (n : ℤ) : strtol (decimal n) = some n := by
  cases n with
  | ofNat n =>
      obtain ⟨c, cs, hcons, hdigit⟩ := toDigits_cons n
      obtain ⟨hspace, hminus, hplus⟩ := isSpace_of_isDigit hdigit
      have hdrop : (Nat.toDigits 10 n).dropWhile isSpace = Nat.toDigits 10 n := by
        rw [hcons, List.dropWhile_cons_of_neg (by simp [hspace])]
      unfold strtol decimal
      rw [hdrop]
      split
      · rename_i heq
        exact absurd (List.cons.inj (hcons.symm.trans heq)).1 hminus
      · rename_i heq
        exact absurd (List.cons.inj (hcons.symm.trans heq)).1 hplus
      · exact digitsValue_toDigits n
  | negSucc n =>
      have hdrop : ('-' :: Nat.toDigits 10 (n + 1)).dropWhile isSpace =
          '-' :: Nat.toDigits 10 (n + 1) :=
        List.dropWhile_cons_of_neg (by decide)
      unfold strtol decimal
      rw [hdrop]
      simp only [digitsValue_toDigits, Option.map_some]
      rfl

theorem stoi_decimal {n : ℤ} (h : -2 ^ 31 ≤ n ∧ n < 2 ^ 31) : stoi (decimal n) = some n := by
  simp only [stoi, strtol_decimal, Option.filter_some]
  rw [if_pos (by simpa using h)]

theorem stol_decimal {n : ℤ} (h : -2 ^ 63 ≤ n ∧ n < 2 ^ 63) : stol (decimal n) = some n := by
  simp only [stol, strtol_decimal, Option.filter_some]
  rw [if_pos (by simpa using h)]

/-- The characters of a decimal number. -/
theorem mem_decimal {n : ℤ} {c : Char} (h : c ∈ decimal n) : c.isDigit = true ∨ c = '-' := by
  cases n with
  | ofNat n => exact Or.inl (isDigit_of_mem h)
  | negSucc n =>
      obtain rfl | h := List.mem_cons.mp h
      · exact Or.inr rfl
      · exact Or.inl (isDigit_of_mem h)

/-- A delimiter of other characters does not occur in a decimal number. -/
theorem not_infix_decimal {d : Str} (hne : d ≠ []) (hd : ∀ c ∈ d, c.isDigit = false ∧ c ≠ '-')
    (n : ℤ) : ¬ d <:+: decimal n := by
  intro hin
  obtain ⟨c, cs, rfl⟩ := List.exists_cons_of_ne_nil hne
  obtain ⟨hdigit, hminus⟩ := hd c List.mem_cons_self
  obtain h | h := mem_decimal (hin.subset List.mem_cons_self)
  · simp [hdigit] at h
  · exact hminus h

end Ns3Cosim.Gateway
