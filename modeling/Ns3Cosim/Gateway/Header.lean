import Ns3Cosim.Gateway.Delimiters
import Mathlib.Algebra.Group.Int.Defs
import Mathlib.Data.Int.Order.Basic

/-!
# From a queued message to a timestamp and a value vector

The first half of `Gateway::ForwardUp`: the loop that splits a message at the
field delimiter, and the two library calls that read the timestamp header. A
`Time` is a number of nanoseconds here, without the bounds of its 64 bits:
`System64` has them, and `Refinement64` shows for which headers they change nothing.
-/

namespace Ns3Cosim.Gateway

open Words

/-- The find and erase loop of `ForwardUp`, with `values` filled so far. -/
def splitLoop (delimiterField : Str) : ℕ → Str → List Str → List Str
  | 0, message, values => values ++ [message]
  | fuel + 1, message, values =>
      match find delimiterField message with
      | some index =>
          splitLoop delimiterField fuel (message.drop (index + delimiterField.length))
            (values ++ [message.take index])
      | none => values ++ [message]

/-- The values of a message. Every round erases at least one character. -/
def splitMessage (D : Delimiters) (message : Str) : List Str :=
  splitLoop D.delimiterField message.length message []

theorem splitLoop_eq (f : Str) (fuel : ℕ) (message : Str) (values : List Str) :
    splitLoop f fuel message values =
      values ++ ((cutLoop f fuel message).1 ++ [(cutLoop f fuel message).2]) := by
  induction fuel generalizing message values with
  | zero => rfl
  | succ fuel ih =>
      cases hf : find f message with
      | none => simp [splitLoop, cutLoop, hf]
      | some index => simp [splitLoop, cutLoop, hf, ih]

/-- The loop leaves the pieces between the leftmost occurrences of the field delimiter. -/
theorem splitMessage_eq (D : Delimiters) (message : Str) :
    splitMessage D message = split D.delimiterField message := by
  simp [splitMessage, splitLoop_eq, split, cut]

/-- `isspace` of the C locale. -/
def isSpace (c : Char) : Bool := c = ' ' ∨ ('\t' ≤ c ∧ c ≤ '\r')

/-- The number that the longest prefix of digits shows, if there is a digit. -/
def digitsValue (s : Str) : Option ℤ :=
  match s.takeWhile Char.isDigit with
  | [] => none
  | c :: digits => some (Nat.ofDigitChars 10 (c :: digits) 0)

/-- `strtol` in base 10 without its range: white space, an optional sign, then digits; what
follows the digits is ignored. -/
def strtol (s : Str) : Option ℤ :=
  match s.dropWhile isSpace with
  | '-' :: s => (digitsValue s).map fun n => -n
  | '+' :: s => digitsValue s
  | s => digitsValue s

/-- `std::stoi`; `none` is one of its exceptions. -/
def stoi (s : Str) : Option ℤ := (strtol s).filter fun n => -2 ^ 31 ≤ n ∧ n < 2 ^ 31

/-- `std::stol` with a 64-bit `long`; `none` is one of its exceptions. -/
def stol (s : Str) : Option ℤ := (strtol s).filter fun n => -2 ^ 63 ≤ n ∧ n < 2 ^ 63

/-- Nanoseconds in a second. -/
def nanosecondsPerSecond : ℤ := 1000000000

/-- The header and the values of a message. `values.at(1)` throws when there is one value only,
and every exception ends in the same fatal error. -/
def readMessage (D : Delimiters) (message : Str) : Except FatalError (ℤ × List Str) :=
  match splitMessage D message with
  | seconds :: nanoseconds :: values =>
      match stoi seconds, stol nanoseconds with
      | some s, some ns => .ok (s * nanosecondsPerSecond + ns, values)
      | _, _ => .error .invalidHeader
  | _ => .error .invalidHeader

/-- Reading a message fails in one way only. -/
theorem readMessage_error {D : Delimiters} {message : Str} {e : FatalError}
    (h : readMessage D message = .error e) : e = .invalidHeader := by
  unfold readMessage at h
  split at h
  · split at h
    · cases h
    · cases h
      rfl
  · cases h
    rfl

/-- The timestamp and the values of a message, unless its header is invalid or it is the signal to
terminate. -/
def update? (D : Delimiters) (message : Str) : Option (ℤ × List Str) :=
  match readMessage D message with
  | .ok (timestamp, values) => if timestamp < 0 then none else some (timestamp, values)
  | .error _ => none

theorem update?_of_neg {D : Delimiters} {message : Str} {timestamp : ℤ} {values : List Str}
    (hr : readMessage D message = .ok (timestamp, values)) (hneg : timestamp < 0) :
    update? D message = none := by
  simp [update?, hr, hneg]

theorem update?_of_nonneg {D : Delimiters} {message : Str} {timestamp : ℤ} {values : List Str}
    (hr : readMessage D message = .ok (timestamp, values)) (hpos : 0 ≤ timestamp) :
    update? D message = some (timestamp, values) := by
  simp [update?, hr, not_lt.mpr hpos]

theorem update?_eq_some {D : Delimiters} {message : Str} {u : ℤ × List Str}
    (h : update? D message = some u) : readMessage D message = .ok u ∧ 0 ≤ u.1 := by
  unfold update? at h
  split at h
  · rename_i hr
    split at h
    · cases h
    · rename_i hneg
      cases h
      exact ⟨hr, not_lt.mp hneg⟩
  · cases h

/-- The timestamps and values that a list of messages carries, in their order. -/
def updates (D : Delimiters) (messages : List Str) : List (ℤ × List Str) :=
  messages.filterMap (update? D)

/-- The timestamps never decrease. -/
def NeverDecreasing (us : List (ℤ × List Str)) : Prop := us.Pairwise fun a b => a.1 ≤ b.1

instance (us : List (ℤ × List Str)) : Decidable (NeverDecreasing us) :=
  inferInstanceAs (Decidable (us.Pairwise _))

end Ns3Cosim.Gateway
