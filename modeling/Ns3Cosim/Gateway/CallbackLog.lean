import Ns3Cosim.Gateway.Ledger

/-!
# The log of callbacks does not depend on timing

When the timestamps of the stream never decrease, every run meets the condition
of the ledger. Two runs on one stream then log beginnings of one list, however
the bytes were batched and the events interleaved.
-/

namespace Ns3Cosim.Gateway

open Words Execution

variable {D : Delimiters} {ok : State → Label → Prop} {t₀ : ℤ} {s s' : State} {l : Label}

/-- The server only ever adds to what it has sent. -/
theorem sent_isPrefix (hstep : step D s l = some s') : s.conn.sent <+: s'.conn.sent := by
  cases Step.of_step hstep with
  | @server action conn hc =>
      cases action with
      | send bytes =>
          simp only [Connection.act] at hc
          split at hc
          · cases hc
          · cases hc
            exact List.prefix_append _ _
      | close | fail =>
          cases hc
          exact List.prefix_rfl
  | silent hi => exact (Framed.available_eq hi).2 ▸ List.prefix_rfl
  | push | scheduleForwardUp | scheduleStop | user | resume | insert | drained | wait | forwardUp
  | doInitialize | handleUpdate | unrelated | join => exact List.prefix_rfl
  | stop =>
      rw [(State.stop_frame _ _).conn]
  | destroy => rw [s.destroy_frame.conn]

theorem pauseOf_le {us : List (ℤ × List Str)} {u : ℤ × List Str}
    (h : NeverDecreasing (us ++ [u])) (hu : 0 ≤ u.1) : pauseOf us ≤ u.1 - startOf us := by
  unfold pauseOf
  cases hlast : us.getLast? with
  | none =>
      have hnil := List.getLast?_eq_none_iff.mp hlast
      simp only [hnil, startOf, nanosecondsPerSecond]
      omega
  | some v =>
      have hv : v ∈ us := List.mem_of_getLast? hlast
      have hle : v.1 ≤ u.1 := (List.pairwise_append.mp h).2.2 v hv u (by simp)
      exact Int.sub_le_sub_right hle _

theorem startOf_le {us : List (ℤ × List Str)} {u : ℤ × List Str}
    (h : NeverDecreasing (us ++ [u])) (hu : 0 ≤ u.1) : startOf us ≤ u.1 := by
  cases us with
  | nil =>
      simp only [startOf, nanosecondsPerSecond]
      omega
  | cons v us => exact (List.pairwise_append.mp h).2.2 v (by simp) u (by simp)

/-- The next message of the queue comes next in the stream. -/
theorem Occurs.next_isPrefix (h : Occurs D ok t₀ s) {message : Str}
    (hm : message ∈ s.core.messageQueue.head?) :
    s.core.processed ++ [message] <+: (cut D.delimiterMessage s.conn.sent).1 := by
  obtain ⟨messages, hq⟩ := List.head?_eq_some_iff.mp (Option.mem_def.mp hm)
  refine List.IsPrefix.trans ?_ h.framed.pushed
  rw [← h.handoff.history, hq]
  exact ⟨messages, by simp⟩

/-- The update that is taken next continues the never decreasing timestamps. -/
theorem Occurs.neverDecreasing_takes (h : Occurs D ok t₀ s)
    (hord : NeverDecreasing (updates D (cut D.delimiterMessage s.conn.sent).1))
    {u : ℤ × List Str} {now : ℤ} (htakes : s.Takes D l u now) :
    NeverDecreasing (updates D s.core.processed ++ [u]) ∧ 0 ≤ u.1 := by
  obtain ⟨-, -, -, -, -, -, message, hm, hu⟩ := htakes
  have hnext := hord.of_isPrefix (updates_isPrefix (h.next_isPrefix hm))
  rw [updates_append, hu, Option.toList_some] at hnext
  exact ⟨hnext, (update?_eq_some hu).2⟩

theorem Occurs.pause_le (h : Occurs D ok t₀ s)
    (hord : NeverDecreasing (updates D (cut D.delimiterMessage s.conn.sent).1))
    {u : ℤ × List Str} {now : ℤ} (htakes : s.Takes D l u now) :
    s.core.timePause ≤ u.1 - s.core.timeStart := by
  obtain ⟨hnext, hpos⟩ := h.neverDecreasing_takes hord htakes
  rw [h.clock.1, h.clock.2]
  exact pauseOf_le hnext hpos

theorem Occurs.start_le (h : Occurs D ok t₀ s)
    (hord : NeverDecreasing (updates D (cut D.delimiterMessage s.conn.sent).1))
    {u : ℤ × List Str} {now : ℤ} (htakes : s.Takes D l u now) : s.core.timeStart ≤ u.1 := by
  obtain ⟨hnext, hpos⟩ := h.neverDecreasing_takes hord htakes
  rw [h.clock.1]
  exact startOf_le hnext hpos

/-- On a stream whose timestamps never decrease, no step lowers the granted time. -/
theorem Occurs.inOrder (h : Occurs D ok t₀ s)
    (hord : NeverDecreasing (updates D (cut D.delimiterMessage s.conn.sent).1)) :
    Occurs D (InOrder D) t₀ s := by
  revert hord
  refine h.induct (P := fun s => NeverDecreasing (updates D (cut D.delimiterMessage
    s.conn.sent).1) → Occurs D (InOrder D) t₀ s) (fun sim outbound hsim ht _ => ?_)
    fun s l s' hs ih _ hstep hord => ?_
  · exact ⟨sim, outbound, hsim, ht, Reach.start⟩
  · have hbefore := hord.of_isPrefix (updates_isPrefix
      (cut_isPrefix D.message_ne (sent_isPrefix hstep)))
    have hok : InOrder D s l := inOrder_iff.mpr fun u now htakes _ => hs.pause_le hbefore htakes
    exact (ih hbefore).next hok hstep

/-- The accepted messages are the first of the stream. -/
theorem Occurs.accepted_isPrefix (h : Occurs D ok t₀ s) :
    s.core.accepted <+: (cut D.delimiterMessage s.conn.sent).1 :=
  s.core.accepted_isPrefix.trans h.processed_isPrefix

/-- A log that begins as expected has `DoInitialize` at its head and there only. -/
theorem names_of_isPrefix {t₀ : ℤ} {us : List (ℤ × List Str)} {log : List Callback}
    (h : log <+: expectedLog t₀ us) :
    (∀ c ∈ log.head?, c.name = .doInitialize) ∧ ∀ c ∈ log.tail, c.name = .doUpdate := by
  cases log with
  | nil => simp
  | cons c cs =>
      cases us with
      | nil => exact absurd (List.prefix_nil.mp h) (by simp)
      | cons first rest =>
          obtain ⟨rfl, hcs⟩ := List.cons_prefix_cons.mp h
          refine ⟨fun c hc => ?_, fun c hc => ?_⟩
          · cases hc
            rfl
          · obtain ⟨u, -, rfl⟩ := List.mem_map.mp (hcs.subset hc)
            rfl

/-- The callbacks that ran and those that are pending are, in this order and each once, those of
the messages accepted so far: `DoInitialize` for the first, at the time of `Connect`, and `DoUpdate`
for every later one, in the order of their arrival. -/
structure Accounted (D : Delimiters) (t₀ : ℤ) (stream : Str) (s : State) : Prop where
  balanced : s.core.log ++ pendingCallbacks s.core.sim =
    expectedLog t₀ (updates D s.core.accepted)
  accepted : s.core.accepted <+: (cut D.delimiterMessage stream).1
  first : ∀ c ∈ s.core.log.head?, c.name = .doInitialize
  later : ∀ c ∈ s.core.log.tail, c.name = .doUpdate

/-- What every run on a stream of never decreasing timestamps has logged. -/
theorem Occurs.log_isPrefix (h : Occurs D ok t₀ s) (ht : 0 ≤ t₀) {stream : Str}
    (hsent : s.conn.sent <+: stream)
    (hord : NeverDecreasing (updates D (cut D.delimiterMessage stream).1)) :
    Accounted D t₀ stream s ∧
      s.core.log <+: expectedLog t₀ (updates D (cut D.delimiterMessage stream).1) := by
  have hcut := cut_isPrefix D.message_ne hsent
  have haccepted := h.accepted_isPrefix.trans hcut
  have hbook := ((h.inOrder (hord.of_isPrefix (updates_isPrefix hcut))).ledger ht).balanced
  have hlog : s.core.log <+: expectedLog t₀ (updates D s.core.accepted) := by
    rw [← hbook]
    exact List.prefix_append _ _
  obtain ⟨hfirst, hlater⟩ := names_of_isPrefix hlog
  exact ⟨⟨hbook, haccepted, hfirst, hlater⟩,
    hlog.trans (expectedLog_isPrefix t₀ (updates_isPrefix haccepted))⟩

/-- Of two runs on one stream with never decreasing timestamps, one has logged a beginning of what
the other has logged, and each has its callbacks accounted for. -/
theorem log_comparable (t₀ : ℕ) {stream : Str} {s₁ s₂ : State}
    (h₁ : Occurs D always t₀ s₁) (h₂ : Occurs D always t₀ s₂)
    (hsent₁ : s₁.conn.sent <+: stream) (hsent₂ : s₂.conn.sent <+: stream)
    (hord : NeverDecreasing (updates D (cut D.delimiterMessage stream).1)) :
    (s₁.core.log <+: s₂.core.log ∨ s₂.core.log <+: s₁.core.log) ∧
      Accounted D t₀ stream s₁ ∧ Accounted D t₀ stream s₂ := by
  obtain ⟨haccounted₁, hlog₁⟩ := h₁.log_isPrefix (Int.natCast_nonneg t₀) hsent₁ hord
  obtain ⟨haccounted₂, hlog₂⟩ := h₂.log_isPrefix (Int.natCast_nonneg t₀) hsent₂ hord
  exact ⟨List.prefix_or_prefix_of_prefix hlog₁ hlog₂, haccounted₁, haccounted₂⟩

/-- The messages `0 0` and `6 0` again, the first of them received in two pieces. -/
def pieceRun : List Label :=
  [.resume, .server (.send ['0', ' ', '0', '\r']), .reader 0, .reader 0, .reader 4, .reader 0,
    .drain, .event, .server (.send ['\n', '6', ' ', '0', '\r', '\n']), .reader 6, .reader 0,
    .reader 0, .reader 0, .drain, .drain, .event, .drain, .event, .drain, .event, .drain, .event]

theorem log_comparable_pieceRun :
    ∃ s₁ s₂, State.after defaultDelimiters always (0 : ℕ) 1
        (Label.grantedRun ++ [.drain, .event, .resume, .drain, .event]) = some s₁ ∧
      State.after defaultDelimiters always (0 : ℕ) 1 pieceRun = some s₂ ∧
      s₁.core.log.length = 2 ∧ s₂.core.log.length = 1 ∧
      (s₁.core.log <+: s₂.core.log ∨ s₂.core.log <+: s₁.core.log) ∧
      Accounted defaultDelimiters (0 : ℕ) s₁.conn.sent s₁ ∧
      Accounted defaultDelimiters (0 : ℕ) s₁.conn.sent s₂ := by
  have hrun₁ : (State.after defaultDelimiters always (0 : ℕ) 1
      (Label.grantedRun ++ [.drain, .event, .resume, .drain, .event])).any (fun s =>
        s.core.log.length = 2 ∧ s.conn.sent =
          ['0', ' ', '0', '\r', '\n', '6', ' ', '0', '\r', '\n'] ∧
        NeverDecreasing (updates defaultDelimiters
          (cut defaultDelimiters.delimiterMessage s.conn.sent).1)) := by
    decide +kernel
  have hrun₂ : (State.after defaultDelimiters always (0 : ℕ) 1 pieceRun).any (fun s =>
        s.core.log.length = 1 ∧ s.conn.sent =
          ['0', ' ', '0', '\r', '\n', '6', ' ', '0', '\r', '\n']) := by
    decide +kernel
  obtain ⟨s₁, hs₁, hp₁⟩ := (Option.any_eq_true _ _).mp hrun₁
  obtain ⟨s₂, hs₂, hp₂⟩ := (Option.any_eq_true _ _).mp hrun₂
  obtain ⟨hlog₁, hsent₁, hord⟩ := of_decide_eq_true hp₁
  obtain ⟨hlog₂, hsent₂⟩ := of_decide_eq_true hp₂
  refine ⟨s₁, s₂, hs₁, hs₂, hlog₁, hlog₂, ?_⟩
  exact log_comparable 0 (.of_after hs₁) (.of_after hs₂) List.prefix_rfl
    (by rw [hsent₁, hsent₂]) hord

end Ns3Cosim.Gateway
