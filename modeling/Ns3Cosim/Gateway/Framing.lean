import Ns3Cosim.Gateway.Handoff

/-!
# The reader thread cuts the stream at leftmost message delimiters

`Reader.framing` is what the reader still makes of the rest of the stream: the
message in flight, and the cut of what it has not cut yet. Every step keeps it
while the bytes and the messages move, so the messages pushed so far are those
of the specification `cut`, however the stream was divided into `recv` calls.
-/

namespace Ns3Cosim.Gateway

open Words Execution

variable {D : Delimiters}

/-- The messages that the reader has yet to push of its own data and the rest of the stream, and
the bytes that stay uncut. -/
def Reader.framing (D : Delimiters) (r : Reader) (rest : Str) : List Str × Str :=
  let c := cut D.delimiterMessage (r.unread ++ rest)
  (r.inFlight ++ c.1, c.2)

/-- The bytes that a step takes from the stream. -/
def Reader.received (r : Reader) (result : Option Recv) : Str :=
  match r.pc, result with
  | .recv _, some (.bytes chunk) => chunk
  | _, _ => []

/-- The reader has not left its loop. -/
def Reader.Running (r : Reader) : Prop := r.pc ≠ .failed ∧ r.pc ≠ .exited

/-- The message that an effect pushes. -/
def Effect.pushed : Effect → List Str
  | .push message => [message]
  | _ => []

/-- `recv` is called with data in which no message ends. -/
def Searched (D : Delimiters) (r : Reader) : Prop :=
  ∀ receivedData, r.pc = .recv receivedData → find D.delimiterMessage receivedData = none

theorem Reader.framing_start (rest : Str) :
    Reader.start.framing D rest = cut D.delimiterMessage rest := rfl

section Step

variable {state : GatewayState} {result : Option Recv} {r r' : Reader} {effect : Effect}

/-- Whatever a running reader does, received bytes leave the stream and pushed messages leave the
framing. -/
theorem Reader.step_framing (h : r.step D state result = some (r', effect)) (hr : r'.Running)
    (rest : Str) :
    r.framing D (r.received result ++ rest) =
      (effect.pushed ++ (r'.framing D rest).1, (r'.framing D rest).2) := by
  obtain ⟨pc, messageBuffer⟩ := r
  cases pc with
  | test =>
      simp only [Reader.step] at h
      split at h
      · cases h
        rfl
      · cases h
        exact absurd rfl hr.2
  | search receivedData =>
      simp only [Reader.step] at h
      split at h
      · cases h
        rfl
      · rename_i messageSize hf
        cases h
        simp only [framing, received, unread, inFlight, Effect.pushed, List.nil_append]
        rw [cut_of_some D.message_ne (find_append_of_some hf rest),
          List.take_append_of_le_length (by have := find_length_le hf; omega),
          List.drop_append_of_le_length (find_length_le hf)]
        rfl
  | recv receivedData =>
      simp only [Reader.step] at h
      split at h
      · cases h
      · cases h
        simp [framing, received, unread, inFlight, Effect.pushed]
      · cases h
        exact absurd rfl hr.1
      · cases h
        exact absurd rfl hr.1
  | failed =>
      cases h
      exact absurd rfl hr.2
  | push receivedMessage =>
      cases h
      rfl
  | schedule =>
      cases h
      rfl
  | exited => cases h

/-- A reader that has left its loop stays outside and pushes nothing. -/
theorem Reader.running_of_step (h : r.step D state result = some (r', effect))
    (hr : r'.Running) : r.Running := by
  obtain ⟨pc, messageBuffer⟩ := r
  cases pc with
  | failed =>
      cases h
      exact absurd rfl hr.2
  | exited => cases h
  | test | search | recv | push | schedule => exact ⟨by simp, by simp⟩

theorem Reader.step_searched (h : r.step D state result = some (r', effect)) : Searched D r' := by
  intro data hdata
  obtain ⟨pc, messageBuffer⟩ := r
  cases pc with
  | test =>
      simp only [Reader.step] at h
      split at h <;> cases h <;> cases hdata
  | search receivedData =>
      simp only [Reader.step] at h
      split at h
      · rename_i hf
        cases h
        cases hdata
        exact hf
      · cases h
        cases hdata
  | recv receivedData =>
      simp only [Reader.step] at h
      split at h <;> cases h <;> cases hdata
  | failed | push | schedule =>
      cases h
      cases hdata
  | exited => cases h

end Step

/-- The messages and the remainder of everything sent are those pushed, those in the framing of
the reader, and its remainder; after the loop, what was pushed is the beginning of them. A reader
that waits has nothing left to push. -/
structure Framed (D : Delimiters) (s : State) : Prop where
  running : s.reader.Running → cut D.delimiterMessage s.conn.sent =
    (s.pushed ++ (s.reader.framing D s.conn.available).1,
      (s.reader.framing D s.conn.available).2)
  pushed : s.pushed <+: (cut D.delimiterMessage s.conn.sent).1
  searched : Searched D s.reader

namespace Framed

variable {s s' : State}

/-- The property speaks of the reader, the connection and the history of the queue only. -/
theorem congr (h : Framed D s) (hr : s'.reader = s.reader) (hc : s'.conn = s.conn)
    (hp : s'.pushed = s.pushed) : Framed D s' := by
  refine ⟨?_, ?_, hr ▸ h.searched⟩
  · rw [hr, hc, hp]
    exact h.running
  · rw [hc, hp]
    exact h.pushed

theorem framing_append (r : Reader) (rest bytes : Str) :
    r.framing D (rest ++ bytes) =
      ((r.framing D rest).1 ++ (cut D.delimiterMessage ((r.framing D rest).2 ++ bytes)).1,
        (cut D.delimiterMessage ((r.framing D rest).2 ++ bytes)).2) := by
  simp only [Reader.framing]
  rw [← List.append_assoc, cut_append D.message_ne (r.unread ++ rest) bytes]
  simp

theorem server (h : Framed D s) {action : ServerAction} {conn : Connection}
    (hc : s.conn.act action = some conn) : Framed D { s with conn := conn } := by
  cases action with
  | send bytes =>
      simp only [Connection.act] at hc
      split at hc
      · cases hc
      · cases hc
        refine ⟨fun hr => ?_, ?_, h.searched⟩
        · simp only
          rw [cut_append D.message_ne, h.running hr, framing_append]
          simp
        · exact h.pushed.trans (cut_isPrefix D.message_ne (List.prefix_append _ _))
  | close | fail =>
      cases hc
      exact ⟨h.running, h.pushed, h.searched⟩

/-- The bytes that `recv` returns leave the connection. -/
theorem available_eq {n : ℕ} {i : Option Recv × Connection} (hi : s.input n = some i) :
    s.conn.available = s.reader.received i.1 ++ i.2.available ∧ i.2.sent = s.conn.sent := by
  unfold State.input at hi
  split at hi
  · rename_i receivedData hpc
    obtain ⟨⟨result, conn⟩, hrecv, rfl⟩ := Option.map_eq_some_iff.mp hi
    unfold Connection.recv at hrecv
    split at hrecv
    · split at hrecv
      · cases hrecv
        simp [Reader.received, hpc]
      · split at hrecv
        · cases hrecv
          simp [Reader.received, hpc]
        · cases hrecv
    · split at hrecv
      · cases hrecv
        simp [Reader.received, hpc]
      · cases hrecv
  · cases hi
    unfold Reader.received
    split <;> simp_all

theorem silent (h : Framed D s) {n : ℕ} {i : Option Recv × Connection} {r : Reader}
    (hi : s.input n = some i) (hr : s.reader.step D s.core.state i.1 = some (r, .silent)) :
    Framed D { s with reader := r, conn := i.2 } := by
  obtain ⟨havailable, hsent⟩ := available_eq hi
  refine ⟨fun hrun => ?_, ?_, Reader.step_searched hr⟩
  · have hold := h.running (Reader.running_of_step hr hrun)
    rw [havailable, Reader.step_framing hr hrun] at hold
    simp only [hsent, hold, Effect.pushed, List.nil_append]
  · simp only [hsent]
    exact h.pushed

theorem push (h : Framed D s) {message : Str} (hpc : s.reader.pc = .push message) {core : Core} :
    Framed D { s with reader.pc := .schedule, core := core, pushed := s.pushed ++ [message] } := by
  have hrun : s.reader.Running := by simp [Reader.Running, hpc]
  have hframing : s.reader.framing D s.conn.available =
      (message :: (cut D.delimiterMessage (s.reader.messageBuffer ++ s.conn.available)).1,
        (cut D.delimiterMessage (s.reader.messageBuffer ++ s.conn.available)).2) := by
    simp [Reader.framing, Reader.inFlight, Reader.unread, hpc]
  have hcut : cut D.delimiterMessage s.conn.sent =
      (s.pushed ++ [message] ++
        (cut D.delimiterMessage (s.reader.messageBuffer ++ s.conn.available)).1,
        (cut D.delimiterMessage (s.reader.messageBuffer ++ s.conn.available)).2) := by
    rw [h.running hrun, hframing]
    simp
  refine ⟨fun _ => hcut, ?_, fun receivedData hpc => ?_⟩
  · rw [hcut]
    exact List.prefix_append _ _
  · cases hpc

theorem scheduleForwardUp (h : Framed D s) (hpc : s.reader.pc = .schedule) {handoff : List Kind} :
    Framed D { s with reader.pc := .test, handoff := handoff } := by
  have hrun : s.reader.Running := by simp [Reader.Running, hpc]
  refine ⟨fun _ => ?_, h.pushed, fun receivedData hpc => ?_⟩
  · rw [h.running hrun]
    simp [Reader.framing, Reader.inFlight, Reader.unread, hpc]
  · cases hpc

theorem scheduleStop (h : Framed D s) {handoff : List Kind} :
    Framed D { s with reader.pc := .exited, handoff := handoff } := by
  refine ⟨fun hrun => absurd rfl hrun.2, h.pushed, fun receivedData hpc => ?_⟩
  cases hpc

end Framed

variable {s s' : State} {l : Label}

theorem Framed.step (h : Framed D s) (hstep : step D s l = some s') : Framed D s' := by
  cases Step.of_step hstep with
  | server hc => exact h.server hc
  | silent hi hr => exact h.silent hi hr
  | push hpc => exact h.push hpc
  | scheduleForwardUp hpc => exact h.scheduleForwardUp hpc
  | scheduleStop => exact h.scheduleStop
  | user | resume | insert | drained | wait | forwardUp | doInitialize | handleUpdate | unrelated
  | join => exact h.congr rfl rfl rfl
  | @stop e sim =>
      have hframe := State.stop_frame { s with core := s.core.advance sim } false
      exact h.congr hframe.reader hframe.conn hframe.pushed
  | destroy => exact h.congr s.destroy_frame.reader s.destroy_frame.conn s.destroy_frame.pushed

variable {ok : State → Label → Prop} {t₀ : ℤ}

theorem Occurs.framed (h : Occurs D ok t₀ s) : Framed D s := by
  refine h.induct (fun sim outbound _ _ => ⟨fun _ => rfl, List.nil_prefix,
    fun receivedData hpc => ?_⟩) fun _ _ _ _ hinv _ hstep => hinv.step hstep
  cases hpc

/-- The messages taken so far are the first of those that the stream consists of. -/
theorem Occurs.processed_isPrefix (h : Occurs D ok t₀ s) :
    s.core.processed <+: (cut D.delimiterMessage s.conn.sent).1 := by
  refine List.IsPrefix.trans ?_ h.framed.pushed
  rw [← h.handoff.history]
  exact List.prefix_append _ _

end Ns3Cosim.Gateway
