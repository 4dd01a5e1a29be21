import Ns3Cosim.Gateway.HandedData

/-!
# A message that cannot be read is the last one

On any stream, every message that `ForwardUp` has accepted could be read, and
calls for at most one callback. So a message that cannot be read is the last one
that the gateway takes, and no callback runs for it or for a later one.
-/

namespace Ns3Cosim.Gateway

open Words Execution

variable {D : Delimiters} {ok : State → Label → Prop} {t₀ : ℤ} {s : State}

/-- Before a message that cannot be read every accepted message stands. -/
theorem Occurs.accepted_length_le (h : Occurs D ok t₀ s) {i : ℕ} {message : Str}
    {error : FatalError} (hi : (cut D.delimiterMessage s.conn.sent).1[i]? = some message)
    (hr : readMessage D message = .error error) : s.core.accepted.length ≤ i := by
  by_contra hlt
  have hget := h.accepted_isPrefix.getElem (not_le.mp hlt)
  obtain ⟨hlen, hmessage⟩ := List.getElem?_eq_some_iff.mp hi
  obtain ⟨u, hu⟩ := h.balanced.readable _ (List.getElem_mem (not_le.mp hlt))
  rw [hget, hmessage, hr] at hu
  cases hu

/-- The accepted messages bound the callbacks and the messages taken. -/
theorem Occurs.bounded_by_accepted (h : Occurs D ok t₀ s) {i : ℕ}
    (haccepted : s.core.accepted.length ≤ i) :
    s.core.log.length ≤ i ∧ s.core.processed.length ≤ i + 1 ∧
      (s.core.fatal = none → s.core.processed.length ≤ i) := by
  have hprocessed : s.core.processed.length ≤ s.core.accepted.length + 1 := by
    unfold Core.accepted
    split
    · rw [List.length_dropLast]
      omega
    · exact Nat.le_succ _
  have hlog : s.core.log.length ≤ s.core.accepted.length := by
    have hlength := h.balanced.handed.length_eq
    have hupdates : (updates D s.core.accepted).length ≤ s.core.accepted.length :=
      List.length_filterMap_le _ _
    rw [List.length_map, List.length_map, Core.callbacks, List.length_append] at hlength
    omega
  refine ⟨by omega, by omega, fun hf => ?_⟩
  rwa [Core.accepted_of_none hf] at haccepted

/-- A message that cannot be read is the last one that the gateway takes, and ends it: no callback
runs for it or for a later one, whatever the stream and the order of the steps. -/
theorem nothing_after_unreadable (h : Occurs D ok t₀ s) {i : ℕ} {message : Str} {error : FatalError}
    (hi : (cut D.delimiterMessage s.conn.sent).1[i]? = some message)
    (hr : readMessage D message = .error error) :
    s.core.log.length ≤ i ∧ s.core.processed.length ≤ i + 1 ∧
      (s.core.fatal = none → s.core.processed.length ≤ i) :=
  h.bounded_by_accepted (h.accepted_length_le hi hr)

/-- A run that takes the message `0 0` and then one without a header. -/
def Label.unreadableRun : List Label :=
  [.server (.send ['0', ' ', '0', '\r', '\n', 'x', ' ', '0', '\r', '\n'])] ++
    receive 10 ++ received ++
    [.resume, .drain, .drain, .drain, .event, .drain, .event, .drain, .event]

theorem nothing_after_unreadable_unreadableRun :
    ∃ s, State.after defaultDelimiters always 0 1 Label.unreadableRun = some s ∧
      s.core.fatal = some .invalidHeader ∧ s.core.log.length ≤ 1 ∧ s.core.processed.length ≤ 2 := by
  have hrun : (State.after defaultDelimiters always 0 1 Label.unreadableRun).any (fun s =>
      s.core.fatal = some .invalidHeader ∧
        (cut defaultDelimiters.delimiterMessage s.conn.sent).1[1]? = some ['x', ' ', '0']) := by
    decide +kernel
  obtain ⟨s, hs, hp⟩ := (Option.any_eq_true _ _).mp hrun
  obtain ⟨hfatal, hmessage⟩ := of_decide_eq_true hp
  have hnothing := nothing_after_unreadable (.of_after hs) hmessage rfl
  exact ⟨s, hs, hfatal, hnothing.1, hnothing.2.1⟩

end Ns3Cosim.Gateway
