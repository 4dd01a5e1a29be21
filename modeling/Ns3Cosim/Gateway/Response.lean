import Ns3Cosim.Gateway.Delimiters

/-!
# The outgoing side of a gateway

`SetValue` and `SendResponse` on the value vector of a gateway and the bytes it
has transmitted. The connection test of `SendResponse` is made where the state
of the gateway is known.
-/

namespace Ns3Cosim.Gateway

open Words

/-- The values of the next response, and every byte transmitted so far. -/
structure Outbound where
  data : List Str
  transmitted : Str
  deriving DecidableEq

/-- The value vector of the constructor: `dataSize` empty strings. -/
def Outbound.construct (dataSize : ℕ) : Outbound := ⟨List.replicate dataSize [], []⟩

/-- `Gateway::SetValue`. -/
def setValue (D : Delimiters) (o : Outbound) (index : ℕ) (value : Str) :
    Except FatalError Outbound :=
  if o.data.length ≤ index then .error (.indexOutOfRange index o.data.length)
  else if find D.delimiterField value ≠ none then .error .valueContainsFieldDelimiter
  else if find D.delimiterMessage value ≠ none then .error .valueContainsMessageDelimiter
  else .ok { o with data := o.data.set index value }

/-- The loop of `SendResponse` over the rest of the values, after `i` of them. -/
def appendValues (D : Delimiters) : ℕ → Str → List Str → Str
  | _, message, [] => message
  | i, message, value :: values =>
      let message := if i ≠ 0 then message ++ D.delimiterField else message
      appendValues D (i + 1) (message ++ value) values

/-- The message that `SendResponse` hands to `send`. -/
def responseMessage (D : Delimiters) (data : List Str) : Str :=
  appendValues D 0 [] data ++ D.delimiterMessage

/-- `Gateway::SendResponse` on an open connection; a failed `send` is only a warning. -/
def sendResponse (D : Delimiters) (o : Outbound) (sent : Bool) : Outbound :=
  if sent then { o with transmitted := o.transmitted ++ responseMessage D o.data } else o

/-- After the first value every value comes with a delimiter before it. -/
theorem appendValues_succ (D : Delimiters) (i : ℕ) (message : Str) (values : List Str) :
    appendValues D (i + 1) message values =
      message ++ (values.map (D.delimiterField ++ ·)).flatten := by
  induction values generalizing i message with
  | nil => simp [appendValues]
  | cons value values ih => simp [appendValues, ih]

/-- A response is the values with the field delimiter between them and the message delimiter
at the end. -/
theorem responseMessage_eq (D : Delimiters) (data : List Str) :
    responseMessage D data = D.delimiterField.intercalate data ++ D.delimiterMessage := by
  have hflat : ∀ (v : Str) (vs : List Str),
      D.delimiterField.intercalate (v :: vs) =
        v ++ (vs.map (D.delimiterField ++ ·)).flatten := by
    intro v vs
    induction vs generalizing v with
    | nil => simp
    | cons u us ih => rw [List.intercalate_cons_cons, ih]; simp
  cases data with
  | nil => simp [responseMessage, appendValues]
  | cons v vs =>
      simp only [responseMessage, appendValues, appendValues_succ, hflat, ne_eq, not_true_eq_false,
        if_false, List.nil_append]

/-- What `SetValue` requires and what it does. -/
theorem setValue_eq_ok {D : Delimiters} {o o' : Outbound} {index : ℕ} {value : Str}
    (h : setValue D o index value = .ok o') :
    index < o.data.length ∧ ¬ D.delimiterField <:+: value ∧ ¬ D.delimiterMessage <:+: value ∧
      o' = { o with data := o.data.set index value } := by
  unfold setValue at h
  split at h
  · cases h
  · split at h
    · cases h
    · split at h
      · cases h
      · rename_i hi hf hm
        cases h
        exact ⟨by omega, (find_eq_none_iff _ _).mp (by simpa using hf),
          (find_eq_none_iff _ _).mp (by simpa using hm), rfl⟩

/-- `SetValue` fails with one of its own three errors. -/
theorem setValue_eq_error {D : Delimiters} {o : Outbound} {index : ℕ} {value : Str}
    {e : FatalError} (h : setValue D o index value = .error e) :
    e = .indexOutOfRange index o.data.length ∨ e = .valueContainsFieldDelimiter ∨
      e = .valueContainsMessageDelimiter := by
  unfold setValue at h
  split at h
  · cases h
    simp
  · split at h
    · cases h
      simp
    · split at h
      · cases h
        simp
      · cases h

end Ns3Cosim.Gateway
