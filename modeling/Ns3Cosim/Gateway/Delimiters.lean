import Ns3Cosim.Words.Cut

/-!
# Strings, fatal errors and the delimiters of a gateway

`NS_FATAL_ERROR` ends the program; the model names the place that raised it and
keeps the text it prints. The delimiters of a constructed gateway carry the
checks of the constructor, so every later function may rely on them.
-/

namespace Ns3Cosim.Gateway

open Words

/-- A `std::string`, as its characters. -/
abbrev Str := List Char

/-- The fatal errors of the gateway, with the values that their texts show. -/
inductive FatalError
  | emptyFieldDelimiter
  | emptyMessageDelimiter
  | messageDelimiterInField
  | connectCalledTwice
  | socketNotCreated
  | addressNotResolved (serverAddress : String)
  | connectionRefused (serverAddress : String) (serverPort : ℕ)
  | indexOutOfRange (index size : ℕ)
  | valueContainsFieldDelimiter
  | valueContainsMessageDelimiter
  | responseWithoutConnection
  | noQueuedMessage
  | invalidHeader
  | timestampsNotIncreasing
  deriving DecidableEq

/-- The text that `NS_FATAL_ERROR` prints. -/
def FatalError.text : FatalError → String
  | emptyFieldDelimiter => "ERROR: gateway field delimiter cannot be empty"
  | emptyMessageDelimiter => "ERROR: gateway message delimiter cannot be empty"
  | messageDelimiterInField =>
      "ERROR: gateway message delimiter cannot be a substring of the field delimiter"
  | connectCalledTwice => "ERROR: Gateway::Connect was called multiple times"
  | socketNotCreated => "ERROR: Gateway::Connect failed to create a socket"
  | addressNotResolved serverAddress =>
      "ERROR: Gateway::Connect failed to resolve the address " ++ serverAddress
  | connectionRefused serverAddress serverPort =>
      "ERROR: Gateway::Connect failed to connect to " ++ serverAddress ++ ":" ++
        toString serverPort ++ " (check if the server is running)"
  | indexOutOfRange index size =>
      "ERROR: Gateway::SetValue called with i=" ++ toString index ++ " for a max size of " ++
        toString size
  | valueContainsFieldDelimiter =>
      "ERROR: Gateway::SetValue called with a value containing the protocol field delimiter"
  | valueContainsMessageDelimiter =>
      "ERROR: Gateway::SetValue called with a value containing the protocol message delimiter"
  | responseWithoutConnection =>
      "ERROR: Gateway::SendResponse called without an active connection to the server"
  | noQueuedMessage => "Gateway::ForwardUp called without any queued messages"
  | invalidHeader => "ERROR: received invalid message header"
  | timestampsNotIncreasing => "ERROR: received timestamps were not increasing values"

/-- Delimiters that passed the checks of the `Gateway` constructor. -/
structure Delimiters where
  delimiterField : Str
  delimiterMessage : Str
  field_ne : delimiterField ≠ []
  message_ne : delimiterMessage ≠ []
  notInField : find delimiterMessage delimiterField = none

/-- The checks of the `Gateway` constructor, in their order. -/
def checkDelimiters (delimiterField delimiterMessage : Str) : Except FatalError Delimiters :=
  if hf : delimiterField = [] then .error .emptyFieldDelimiter
  else if hm : delimiterMessage = [] then .error .emptyMessageDelimiter
  else if hin : find delimiterMessage delimiterField = none then
    .ok ⟨delimiterField, delimiterMessage, hf, hm, hin⟩
  else .error .messageDelimiterInField

/-- The constructor accepts exactly the nonempty delimiters of which the message delimiter does
not occur in the field delimiter. -/
theorem checkDelimiters_isOk_iff (f d : Str) :
    (∃ D, checkDelimiters f d = .ok D ∧ D.delimiterField = f ∧ D.delimiterMessage = d) ↔
      f ≠ [] ∧ d ≠ [] ∧ ¬ d <:+: f := by
  rw [← find_eq_none_iff]
  constructor
  · rintro ⟨D, -, rfl, rfl⟩
    exact ⟨D.field_ne, D.message_ne, D.notInField⟩
  · rintro ⟨hf, hd, hin⟩
    exact ⟨⟨f, d, hf, hd, hin⟩, by simp [checkDelimiters, hf, hd, hin], rfl, rfl⟩

theorem Delimiters.not_infix (D : Delimiters) : ¬ D.delimiterMessage <:+: D.delimiterField :=
  (find_eq_none_iff _ _).mp D.notInField

/-- The default delimiters, a space and `"\r\n"`. -/
def defaultDelimiters : Delimiters where
  delimiterField := [' ']
  delimiterMessage := ['\r', '\n']
  field_ne := by decide
  message_ne := by decide
  notInField := by decide

end Ns3Cosim.Gateway
