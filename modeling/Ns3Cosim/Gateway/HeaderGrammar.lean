import Ns3Cosim.Gateway.Numeral
import Ns3Cosim.Gateway.Handles

/-!
# Which headers are accepted

The documented header is a signed and an unsigned 32-bit integer. The library
calls that read it pass over white space and a plus sign in front of a number
and over anything behind its digits, and the one for the nanoseconds has a
wider, signed range. So `ForwardUp` accepts every documented header, and
others; which ones is a condition on the two texts.
-/

namespace Ns3Cosim.Gateway

open Words Execution

variable {D : Delimiters}

/-- An optional minus sign and digits, with the value of a signed 32-bit integer. -/
inductive Int32Text : Str → Prop
  | plain {s : Str} (h : Digits s) (hrange : number s < 2 ^ 31) : Int32Text s
  | minus {s : Str} (h : Digits s) (hrange : number s ≤ 2 ^ 31) : Int32Text ('-' :: s)

/-- Digits with the value of an unsigned 32-bit integer. -/
def UInt32Text (s : Str) : Prop := Digits s ∧ number s < 2 ^ 32

/-- The documented form of a message: the header and any values. -/
def Documented (D : Delimiters) (message : Str) : Prop :=
  ∃ seconds nanoseconds values, splitMessage D message = seconds :: nanoseconds :: values ∧
    Int32Text seconds ∧ UInt32Text nanoseconds

/-- White space or a plus sign stands in front of the number, or something behind its digits. -/
def Numeral.Loose (a : Numeral) : Prop := a.space ≠ [] ∨ a.sign = .plus ∨ a.rest ≠ []

/-- The kind of message whose header is misread: the first two fields show numbers that fit 32 and 64
bits, but one of them is loose, or the nanoseconds have a minus sign or do not fit 32 bits. -/
def Misread (D : Delimiters) (message : Str) : Prop :=
  ∃ (seconds nanoseconds : Numeral) (values : List Str),
    splitMessage D message = seconds.text :: nanoseconds.text :: values ∧
    (-2 ^ 31 ≤ seconds.value ∧ seconds.value < 2 ^ 31) ∧
    (-2 ^ 63 ≤ nanoseconds.value ∧ nanoseconds.value < 2 ^ 63) ∧
    (seconds.Loose ∨ nanoseconds.Loose ∨ nanoseconds.sign = .minus ∨ 2 ^ 32 ≤ nanoseconds.value)

section Texts

variable {a : Numeral} {s : Str}

theorem Numeral.not_loose_iff : ¬ a.Loose ↔ a.space = [] ∧ a.sign ≠ .plus ∧ a.rest = [] := by
  simp only [Loose, not_or, not_not, ne_eq]

/-- A numeral that is not loose is a sign and digits. -/
theorem Numeral.text_of_not_loose (h : ¬ a.Loose) : a.text = a.sign.text ++ a.digits := by
  obtain ⟨hspace, -, hrest⟩ := Numeral.not_loose_iff.mp h
  rw [Numeral.text, hspace, hrest, List.nil_append, List.append_nil]

theorem Int32Text.not_loose (h : Int32Text a.text) : ¬ a.Loose := by
  apply Numeral.not_loose_iff.mpr
  generalize ht : a.text = t at h
  cases h with
  | plain h _ =>
      obtain ⟨hspace, hsign, hrest⟩ := Numeral.eq_of_digits (a := a) (ht ▸ h.2)
      exact ⟨hspace, by simp [hsign], hrest⟩
  | minus h _ =>
      obtain ⟨hspace, hsign, hrest⟩ := Numeral.eq_of_minus ht h.2
      exact ⟨hspace, by simp [hsign], hrest⟩

theorem Int32Text.of_numeral (h : ¬ a.Loose) (hrange : -2 ^ 31 ≤ a.value ∧ a.value < 2 ^ 31) :
    Int32Text a.text := by
  rw [Numeral.text_of_not_loose h]
  rw [Numeral.value] at hrange
  cases hsign : a.sign with
  | none =>
      rw [hsign] at hrange
      exact .plain a.digits_digits hrange.2
  | plus => exact absurd hsign (Numeral.not_loose_iff.mp h).2.1
  | minus =>
      rw [hsign] at hrange
      exact .minus a.digits_digits (Int.neg_le_neg_iff.mp hrange.1)

/-- A documented number of seconds is read. -/
theorem Int32Text.read (h : Int32Text s) : (stoi s).isSome := by
  apply Option.isSome_iff_exists.mpr
  cases h with
  | plain h hrange =>
      have hpos := number_nonneg s
      refine ⟨_, Numeral.stoi_eq_some_iff.mpr
        ⟨⟨[], .none, s, [], by simp, h, by simp⟩, List.append_nil s, rfl, ?_⟩⟩
      change -2 ^ 31 ≤ number s ∧ number s < 2 ^ 31
      omega
  | @minus t h hrange =>
      have hpos := number_nonneg t
      refine ⟨_, Numeral.stoi_eq_some_iff.mpr ⟨⟨[], .minus, t, [], by simp, h, by simp⟩,
        congrArg ('-' :: ·) (List.append_nil t), rfl, ?_⟩⟩
      change -2 ^ 31 ≤ -number t ∧ -number t < 2 ^ 31
      omega

theorem UInt32Text.not_loose (h : UInt32Text a.text) :
    ¬ a.Loose ∧ a.sign ≠ .minus ∧ a.value < 2 ^ 32 := by
  obtain ⟨hspace, hsign, hrest⟩ := a.eq_of_digits h.1.2
  have htext : a.text = a.digits := by simp [Numeral.text, hspace, hsign, hrest, Sign.text]
  refine ⟨Numeral.not_loose_iff.mpr ⟨hspace, by simp [hsign], hrest⟩, by simp [hsign], ?_⟩
  rw [Numeral.value, hsign, Sign.apply, ← htext]
  · exact h.2
  · simp

theorem UInt32Text.of_numeral (h : ¬ a.Loose) (hminus : a.sign ≠ .minus)
    (hrange : a.value < 2 ^ 32) : UInt32Text a.text := by
  have hplus := (Numeral.not_loose_iff.mp h).2.1
  rw [Numeral.text_of_not_loose h]
  rw [Numeral.value] at hrange
  cases hsign : a.sign with
  | none =>
      rw [hsign] at hrange
      exact ⟨a.digits_digits, hrange⟩
  | plus => exact absurd hsign hplus
  | minus => exact absurd hsign hminus

/-- A documented number of nanoseconds is read. -/
theorem UInt32Text.read (h : UInt32Text s) : (stol s).isSome := by
  have hpos := number_nonneg s
  have hrange := h.2
  refine Option.isSome_iff_exists.mpr ⟨_, Numeral.stol_eq_some_iff.mpr
    ⟨⟨[], .none, s, [], by simp, h.1, by simp⟩, List.append_nil s, rfl, ?_⟩⟩
  change -2 ^ 63 ≤ number s ∧ number s < 2 ^ 63
  omega

end Texts

/-- The header is accepted when both numbers are there and can be read. -/
theorem readMessage_ok_iff {message : Str} : (∃ r, readMessage D message = .ok r) ↔
    ∃ seconds nanoseconds values, splitMessage D message = seconds :: nanoseconds :: values ∧
      (stoi seconds).isSome ∧ (stol nanoseconds).isSome := by
  constructor
  · rintro ⟨r, hr⟩
    unfold readMessage at hr
    split at hr
    · rename_i seconds nanoseconds values hsplit
      split at hr
      · rename_i hs hn
        exact ⟨seconds, nanoseconds, values, hsplit, by simp [hs], by simp [hn]⟩
      · cases hr
    · cases hr
  · rintro ⟨seconds, nanoseconds, values, hsplit, hs, hn⟩
    obtain ⟨a, ha⟩ := Option.isSome_iff_exists.mp hs
    obtain ⟨b, hb⟩ := Option.isSome_iff_exists.mp hn
    unfold readMessage
    rw [hsplit]
    simp only [ha, hb]
    exact ⟨_, rfl⟩

/-- `ForwardUp` gets past the header of an accepted message. -/
theorem Core.forwardUp_fatal_iff {c : Core} {message : Str} {messages : List Str}
    (hf : c.fatal = none) (hq : c.messageQueue = message :: messages) :
    (c.forwardUp D).fatal ≠ some .invalidHeader ↔ ∃ r, readMessage D message = .ok r := by
  cases hr : readMessage D message with
  | error e =>
      rw [Core.forwardUp_of_error hq hr]
      simp [Core.fail]
  | ok r =>
      rw [Core.forwardUp_of_ok hq hr]
      refine Core.process_cases _ r.1 r.2 ?_ ?_ ?_ ?_
      · simp [Core.pop, hf]
      · simp [Core.pop, hf]
      · simp [Core.pop, hf]
      · simp

/-- A documented header is accepted. -/
theorem Documented.accepted {message : Str} (h : Documented D message) :
    ∃ r, readMessage D message = .ok r := by
  obtain ⟨seconds, nanoseconds, values, hsplit, hs, hn⟩ := h
  exact readMessage_ok_iff.mpr ⟨seconds, nanoseconds, values, hsplit, hs.read, hn.read⟩

/-- A documented header is not misread. -/
theorem Documented.not_misread {message : Str} (h : Documented D message) : ¬ Misread D message := by
  rintro ⟨a, b, values, hsplit, -, -, hkind⟩
  obtain ⟨seconds, nanoseconds, _, hsplit', hs, hn⟩ := h
  cases hsplit.symm.trans hsplit'
  obtain ⟨hloose, hminus, hrange⟩ := hn.not_loose
  obtain h | h | h | h := hkind
  · exact hs.not_loose h
  · exact hloose h
  · exact hminus h
  · exact absurd hrange (not_lt.mpr h)

/-- An accepted header that is not misread is a documented one. -/
theorem Documented.of_accepted {message : Str} (haccepted : ∃ r, readMessage D message = .ok r)
    (h : ¬ Misread D message) : Documented D message := by
  obtain ⟨seconds, nanoseconds, values, hsplit, hs, hn⟩ := readMessage_ok_iff.mp haccepted
  obtain ⟨_, hs⟩ := Option.isSome_iff_exists.mp hs
  obtain ⟨_, hn⟩ := Option.isSome_iff_exists.mp hn
  obtain ⟨a, rfl, rfl, hseconds⟩ := Numeral.stoi_eq_some_iff.mp hs
  obtain ⟨b, rfl, rfl, hnanoseconds⟩ := Numeral.stol_eq_some_iff.mp hn
  have hkind : ¬ (a.Loose ∨ b.Loose ∨ b.sign = .minus ∨ 2 ^ 32 ≤ b.value) :=
    fun hkind => h ⟨a, b, values, hsplit, hseconds, hnanoseconds, hkind⟩
  simp only [not_or, not_le] at hkind
  obtain ⟨ha, hb, hminus, hrange⟩ := hkind
  exact ⟨a.text, b.text, values, hsplit, .of_numeral ha hseconds, .of_numeral hb hminus hrange⟩

/-- For a message that is to be forwarded, `ForwardUp` accepts the header exactly if it has the
documented form, exactly when the message is not of the misread kind. -/
theorem header_documented_iff {c : Core} {message : Str} {messages : List Str}
    (hf : c.fatal = none) (hq : c.messageQueue = message :: messages) :
    ((c.forwardUp D).fatal ≠ some .invalidHeader ↔ Documented D message) ↔ ¬ Misread D message := by
  rw [Core.forwardUp_fatal_iff hf hq]
  constructor
  · rintro hiff hmisread
    obtain ⟨a, b, values, hsplit, hseconds, hnanoseconds, -⟩ := id hmisread
    have hs : stoi a.text = some a.value :=
      Numeral.stoi_eq_some_iff.mpr ⟨a, rfl, rfl, hseconds⟩
    have hn : stol b.text = some b.value :=
      Numeral.stol_eq_some_iff.mpr ⟨b, rfl, rfl, hnanoseconds⟩
    have haccepted : ∃ r, readMessage D message = .ok r :=
      readMessage_ok_iff.mpr ⟨a.text, b.text, values, hsplit, by simp [hs], by simp [hn]⟩
    exact (hiff.mp haccepted).not_misread hmisread
  · intro h
    constructor
    · exact fun haccepted => Documented.of_accepted haccepted h
    · exact Documented.accepted

/-- A gateway with one message to forward. -/
def Core.withMessage (message : Str) : Core :=
  { Core.construct (.empty 0) (.construct 0) with messageQueue := [message] }

/-- The signal to terminate is documented and accepted. -/
theorem header_documented_terminate :
    ¬ Misread defaultDelimiters ['-', '1', ' ', '0'] ∧
      (((Core.withMessage ['-', '1', ' ', '0']).forwardUp defaultDelimiters).fatal ≠
        some .invalidHeader ↔ Documented defaultDelimiters ['-', '1', ' ', '0']) := by
  have hdocumented : Documented defaultDelimiters ['-', '1', ' ', '0'] :=
    ⟨['-', '1'], ['0'], [], by decide, .minus ⟨by simp, by simp⟩ (by decide),
      ⟨by simp, by simp⟩, by decide⟩
  exact ⟨hdocumented.not_misread, (header_documented_iff rfl rfl).mpr hdocumented.not_misread⟩

/-- A fractional number of seconds is read as a whole one. -/
theorem fractional_header_accepted :
    ¬ ∀ (D : Delimiters) (c : Core) (message : Str) (messages : List Str), c.fatal = none →
      c.messageQueue = message :: messages →
        ((c.forwardUp D).fatal ≠ some .invalidHeader ↔ Documented D message) := by
  intro hclaim
  have hsplit : splitMessage defaultDelimiters ['1', '.', '5', ' ', '0'] =
      [['1', '.', '5'], ['0']] := by decide
  have hfatal : ((Core.withMessage ['1', '.', '5', ' ', '0']).forwardUp defaultDelimiters).fatal =
      none := by decide
  have hdocumented := (hclaim defaultDelimiters (.withMessage ['1', '.', '5', ' ', '0']) _ [] rfl
    rfl).mp (by simp [hfatal])
  obtain ⟨seconds, nanoseconds, values, hsplit', hs, -⟩ := hdocumented
  cases hsplit.symm.trans hsplit'
  cases hs with
  | plain h => exact absurd (h.2 '.' (by simp)) (by decide)

end Ns3Cosim.Gateway
