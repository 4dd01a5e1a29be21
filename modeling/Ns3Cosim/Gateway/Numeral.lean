import Ns3Cosim.Gateway.Decimal

/-!
# The texts in which a number is read

The library calls look for digits behind white space and a sign, and ignore what
follows them. A numeral is a text with these four parts; the calls read its
value, and they read a number in no other text.
-/

namespace Ns3Cosim.Gateway

open Words

/-- One or more decimal digits. -/
def Digits (s : Str) : Prop := s ≠ [] ∧ ∀ c ∈ s, c.isDigit = true

/-- The number that a list of digits shows. -/
def number (s : Str) : ℤ := Nat.ofDigitChars 10 s 0

theorem number_nonneg (s : Str) : 0 ≤ number s := Int.natCast_nonneg _

/-- The optional sign of a number. -/
inductive Sign
  | none
  | plus
  | minus
  deriving DecidableEq

def Sign.text : Sign → Str
  | none => []
  | plus => ['+']
  | minus => ['-']

def Sign.apply : Sign → ℤ → ℤ
  | minus, n => -n
  | _, n => n

/-- White space, a sign, digits, and a rest with which the digits do not go on. -/
structure Numeral where
  space : Str
  sign : Sign
  digits : Str
  rest : Str
  space_isSpace : ∀ c ∈ space, isSpace c = true
  digits_digits : Digits digits
  rest_head : ∀ c ∈ rest.head?, c.isDigit = false

namespace Numeral

/-- The whole text. -/
def text (a : Numeral) : Str := a.space ++ (a.sign.text ++ (a.digits ++ a.rest))

/-- The number that it shows. -/
def value (a : Numeral) : ℤ := a.sign.apply (number a.digits)

variable {a : Numeral}

theorem exists_digit (a : Numeral) : ∃ c cs, a.digits = c :: cs ∧ c.isDigit = true := by
  obtain ⟨c, cs, hcons⟩ := List.exists_cons_of_ne_nil a.digits_digits.1
  exact ⟨c, cs, hcons, a.digits_digits.2 c (hcons ▸ List.mem_cons_self)⟩

/-- The digits are read up to the rest. -/
theorem digitsValue_digits (a : Numeral) :
    digitsValue (a.digits ++ a.rest) = some (number a.digits) := by
  have hrest : a.rest.takeWhile Char.isDigit = [] := by
    cases h : a.rest with
    | nil => rfl
    | cons c rest => exact List.takeWhile_cons_of_neg (by simp [a.rest_head c (by simp [h])])
  obtain ⟨c, cs, hcons, -⟩ := a.exists_digit
  unfold digitsValue
  rw [List.takeWhile_append_of_pos a.digits_digits.2, hrest, List.append_nil, hcons]
  rfl

theorem strtol_text (a : Numeral) : strtol a.text = some a.value := by
  obtain ⟨c, cs, hcons, hdigit⟩ := a.exists_digit
  obtain ⟨hspace, hminus, hplus⟩ := isSpace_of_isDigit hdigit
  have hread := a.digitsValue_digits
  unfold strtol text
  rw [List.dropWhile_append_of_pos a.space_isSpace]
  cases hsign : a.sign with
  | none =>
      have hdrop : (Sign.none.text ++ (a.digits ++ a.rest)).dropWhile isSpace =
          a.digits ++ a.rest := by
        rw [Sign.text, List.nil_append, hcons, List.cons_append,
          List.dropWhile_cons_of_neg (by simp [hspace])]
      rw [hdrop, value, hsign, Sign.apply]
      · rw [hcons, List.cons_append] at hread ⊢
        split
        · rename_i heq
          exact absurd (List.cons.inj heq).1 hminus
        · rename_i heq
          exact absurd (List.cons.inj heq).1 hplus
        · exact hread
      · simp
  | plus =>
      rw [value, hsign]
      exact hread
  | minus =>
      rw [value, hsign]
      exact congrArg (Option.map fun n => -n) hread

/-- A text that begins with digits, as far as they go. -/
theorem exists_of_digitsValue {s : Str} {n : ℤ} (h : digitsValue s = some n) :
    ∃ digits rest, s = digits ++ rest ∧ Digits digits ∧ (∀ c ∈ rest.head?, c.isDigit = false) ∧
      n = number digits := by
  refine ⟨s.takeWhile Char.isDigit, s.dropWhile Char.isDigit,
    List.takeWhile_append_dropWhile.symm, ⟨?_, fun c hc => List.mem_takeWhile_imp hc⟩, ?_, ?_⟩
  · intro hnil
    simp [digitsValue, hnil] at h
  · intro c hc
    have hhead := List.head?_dropWhile_not Char.isDigit s
    rw [Option.mem_def.mp hc] at hhead
    exact hhead
  · unfold digitsValue at h
    split at h
    · cases h
    · rename_i hcons
      rw [hcons]
      exact (Option.some.inj h).symm

/-- A text in which a number is read is a numeral that shows it. -/
theorem exists_of_strtol {s : Str} {n : ℤ} (h : strtol s = some n) :
    ∃ a : Numeral, a.text = s ∧ a.value = n := by
  have hspace : ∀ c ∈ s.takeWhile isSpace, isSpace c = true := fun c hc => List.mem_takeWhile_imp hc
  have hsplit : s.takeWhile isSpace ++ s.dropWhile isSpace = s := List.takeWhile_append_dropWhile
  unfold strtol at h
  split at h
  · rename_i t ht
    obtain ⟨m, hm, rfl⟩ := Option.map_eq_some_iff.mp h
    obtain ⟨digits, rest, rfl, hdigits, hrest, rfl⟩ := exists_of_digitsValue hm
    refine ⟨⟨s.takeWhile isSpace, .minus, digits, rest, hspace, hdigits, hrest⟩, ?_, rfl⟩
    rw [ht] at hsplit
    exact hsplit
  · rename_i t ht
    obtain ⟨digits, rest, rfl, hdigits, hrest, rfl⟩ := exists_of_digitsValue h
    refine ⟨⟨s.takeWhile isSpace, .plus, digits, rest, hspace, hdigits, hrest⟩, ?_, rfl⟩
    rw [ht] at hsplit
    exact hsplit
  · obtain ⟨digits, rest, ht, hdigits, hrest, rfl⟩ := exists_of_digitsValue h
    refine ⟨⟨s.takeWhile isSpace, .none, digits, rest, hspace, hdigits, hrest⟩, ?_, rfl⟩
    rw [ht] at hsplit
    exact hsplit

theorem stoi_eq_some_iff {s : Str} {n : ℤ} :
    stoi s = some n ↔ ∃ a : Numeral, a.text = s ∧ a.value = n ∧ -2 ^ 31 ≤ n ∧ n < 2 ^ 31 := by
  simp only [stoi, Option.filter_eq_some_iff, decide_eq_true_eq]
  constructor
  · rintro ⟨h, hrange⟩
    obtain ⟨a, htext, hvalue⟩ := exists_of_strtol h
    exact ⟨a, htext, hvalue, hrange⟩
  · rintro ⟨a, rfl, rfl, hrange⟩
    exact ⟨a.strtol_text, hrange⟩

theorem stol_eq_some_iff {s : Str} {n : ℤ} :
    stol s = some n ↔ ∃ a : Numeral, a.text = s ∧ a.value = n ∧ -2 ^ 63 ≤ n ∧ n < 2 ^ 63 := by
  simp only [stol, Option.filter_eq_some_iff, decide_eq_true_eq]
  constructor
  · rintro ⟨h, hrange⟩
    obtain ⟨a, htext, hvalue⟩ := exists_of_strtol h
    exact ⟨a, htext, hvalue, hrange⟩
  · rintro ⟨a, rfl, rfl, hrange⟩
    exact ⟨a.strtol_text, hrange⟩

/-- The digits of a text of digits are all of it. -/
theorem eq_of_digits (h : ∀ c ∈ a.text, c.isDigit = true) :
    a.space = [] ∧ a.sign = .none ∧ a.rest = [] := by
  simp only [text, List.forall_mem_append] at h
  obtain ⟨hspace, hsign, -, hrest⟩ := h
  refine ⟨?_, ?_, ?_⟩
  · refine List.eq_nil_iff_forall_not_mem.mpr fun c hc => ?_
    have hnot := (isSpace_of_isDigit (hspace c hc)).1
    rw [a.space_isSpace c hc] at hnot
    cases hnot
  · cases hs : a.sign with
    | none => rfl
    | plus => exact absurd (hsign '+' (by simp [hs, Sign.text])) (by decide)
    | minus => exact absurd (hsign '-' (by simp [hs, Sign.text])) (by decide)
  · cases hr : a.rest with
    | nil => rfl
    | cons c rest =>
        have hnot := a.rest_head c (by simp [hr])
        rw [hrest c (by simp [hr])] at hnot
        cases hnot

/-- A minus sign in front of digits is the sign of their number. -/
theorem eq_of_minus {t : Str} (h : a.text = '-' :: t) (hdigits : ∀ c ∈ t, c.isDigit = true) :
    a.space = [] ∧ a.sign = .minus ∧ a.rest = [] := by
  have hspace : a.space = [] := by
    cases hs : a.space with
    | nil => rfl
    | cons c space =>
        have hhead := congrArg List.head? h
        simp only [text, hs, List.cons_append, List.head?_cons, Option.some.injEq] at hhead
        exact absurd (hhead ▸ a.space_isSpace c (by simp [hs])) (by decide)
  obtain ⟨c, cs, hcons, hdigit⟩ := a.exists_digit
  rw [text, hspace, List.nil_append] at h
  cases hs : a.sign with
  | none =>
      rw [hs, Sign.text, List.nil_append, hcons] at h
      exact absurd (List.cons.inj h).1 (isSpace_of_isDigit hdigit).2.1
  | plus =>
      rw [hs] at h
      exact absurd (List.cons.inj h).1 (by decide)
  | minus =>
      rw [hs] at h
      obtain rfl : a.digits ++ a.rest = t := (List.cons.inj h).2
      refine ⟨hspace, rfl, ?_⟩
      cases hr : a.rest with
      | nil => rfl
      | cons c rest =>
          have hnot := a.rest_head c (by simp [hr])
          rw [hdigits c (by simp [hr])] at hnot
          cases hnot

end Numeral

end Ns3Cosim.Gateway
