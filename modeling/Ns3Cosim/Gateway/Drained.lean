import Ns3Cosim.Gateway.CallbackLog

/-!
# A connection that is closed loses no message

The reader thread leaves its loop when the server has closed the connection and
every byte has been received. It has pushed every message of the stream by then,
and the `Stop` that it schedules runs behind their `ForwardUp` events. A message
that stops the simulator has stopped it by then.
-/

namespace Ns3Cosim.Gateway

open Words Execution

variable {D : Delimiters} {s s' : State} {l : Label}

/-- A reader that has left its loop found the end of the stream and pushed all of its messages,
unless the connection failed or the gateway was destroyed. -/
def State.Drained (D : Delimiters) (s : State) : Prop :=
  ¬ s.reader.Running → s.InRun → s.conn.failed = false →
    s.conn.closed = true ∧ s.pushed = (cut D.delimiterMessage s.conn.sent).1

namespace State.Drained

/-- Steps of the main thread. -/
theorem of_main (h : s.Drained D) (hr : s'.reader = s.reader) (hc : s'.conn = s.conn)
    (hp : s'.pushed = s.pushed) (hrun : s'.InRun → s.InRun) : s'.Drained D := by
  intro hnot hin hfailed
  rw [hr] at hnot
  rw [hc] at hfailed ⊢
  rw [hp]
  exact h hnot (hrun hin) hfailed

theorem server (h : s.Drained D) {action : ServerAction} {conn : Connection}
    (hc : s.conn.act action = some conn) : State.Drained D { s with conn := conn } := by
  intro hnot hrun hfailed
  cases action with
  | send bytes =>
      simp only [Connection.act] at hc
      split at hc
      · cases hc
      · rename_i hopen
        cases hc
        exact absurd (Or.inl (h hnot hrun hfailed).1) hopen
  | close =>
      cases hc
      exact ⟨rfl, (h hnot hrun hfailed).2⟩
  | fail =>
      cases hc
      cases hfailed

/-- The reader is told the end of the stream once it has received every byte. -/
theorem closed_of_recv {conn conn' : Connection} {n : ℕ} {result : Recv}
    (h : conn.recv n = some (result, conn')) (hresult : ∀ chunk, result ≠ .bytes chunk)
    (hfailed : conn.failed = false) : conn.closed = true ∧ conn.available = [] ∧ conn' = conn := by
  unfold Connection.recv at h
  split at h
  · split at h
    · rename_i hf
      rw [hfailed] at hf
      cases hf
    · split at h
      · rename_i hclosed
        cases h
        exact ⟨hclosed.1, hclosed.2, rfl⟩
      · cases h
  · split at h
    · cases h
      exact absurd rfl (hresult _)
    · cases h

theorem of_silent (hinv : Handoff s) (hframed : Framed D s) {n : ℕ}
    {i : Option Recv × Connection} {r : Reader} (hi : s.input n = some i)
    (hr : s.reader.step D s.core.state i.1 = some (r, .silent)) :
    State.Drained D { s with reader := r, conn := i.2 } := by
  intro hnot hrun hfailed
  unfold Reader.step at hr
  split at hr
  · rename_i hpc
    split at hr
    · cases hr
      exact absurd ⟨by simp, by simp⟩ hnot
    · rename_i hstate
      have hstopping : s.core.state = .stopping := by
        cases hs : s.core.state with
        | created => exact absurd hs hinv.constructed
        | connected => exact absurd hs hstate
        | stopping => rfl
      have hexited := (hinv.halted hstopping hrun).1
      rw [hpc] at hexited
      cases hexited
  · split at hr
    · cases hr
      exact absurd ⟨by simp, by simp⟩ hnot
    · cases hr
      exact absurd ⟨by simp, by simp⟩ hnot
  · rename_i receivedData hpc
    simp only [State.input, hpc] at hi
    obtain ⟨⟨result, conn⟩, hrecv, rfl⟩ := Option.map_eq_some_iff.mp hi
    have hsame : conn.failed = s.conn.failed := by
      unfold Connection.recv at hrecv
      split at hrecv
      · split at hrecv
        · cases hrecv
          rfl
        · split at hrecv <;> cases hrecv
          rfl
      · split at hrecv <;> cases hrecv
        rfl
    simp only at hfailed hr
    have hpieces : ∀ hresult : ∀ chunk, result ≠ .bytes chunk, conn.closed = true ∧
        s.pushed = (cut D.delimiterMessage conn.sent).1 := by
      intro hresult
      obtain ⟨hclosed, havailable, rfl⟩ := closed_of_recv hrecv hresult (hsame ▸ hfailed)
      have hrunning : s.reader.Running := by simp [Reader.Running, hpc]
      have hframing : s.reader.framing D [] = ([], receivedData) := by
        simp [Reader.framing, Reader.unread, Reader.inFlight, hpc,
          cut_of_none (hframed.searched receivedData hpc)]
      have hcut := hframed.running hrunning
      rw [havailable, hframing, List.append_nil] at hcut
      exact ⟨hclosed, (congrArg Prod.fst hcut).symm⟩
    split at hr
    · cases hr
    · cases hr
      exact absurd ⟨by simp, by simp⟩ hnot
    · exact hpieces fun chunk hchunk => by simp_all
    · exact hpieces fun chunk hchunk => by simp_all
  all_goals simp at hr

theorem step (h : s.Drained D) (hinv : Handoff s) (hframed : Framed D s)
    (hstep : Gateway.step D s l = some s') : s'.Drained D := by
  cases Step.of_step hstep with
  | server hc => exact h.server hc
  | silent hi hr => exact of_silent hinv hframed hi hr
  | push | scheduleForwardUp =>
      intro hnot
      exact absurd ⟨by simp, by simp⟩ hnot
  | scheduleStop hpc =>
      intro _ hrun hfailed
      have hold : ¬ s.reader.Running := by simp [Reader.Running, hpc]
      exact h hold hrun hfailed
  | user | insert => exact h.of_main rfl rfl rfl id
  | resume hm | drained hm | wait hm | forwardUp hm | doInitialize hm | handleUpdate hm
  | unrelated hm => exact h.of_main rfl rfl rfl fun _ => by simp [State.InRun, hm]
  | @stop e sim hm =>
      have hframe := State.stop_frame { s with core := s.core.advance sim } false
      exact h.of_main hframe.reader hframe.conn hframe.pushed fun _ => by simp [State.InRun, hm]
  | @join destroying hm =>
      refine h.of_main rfl rfl rfl fun hrun => ?_
      cases destroying with
      | false => simp [State.InRun, hm]
      | true => exact absurd rfl hrun.2
  | destroy hm =>
      have hframe := s.destroy_frame
      exact h.of_main hframe.reader hframe.conn hframe.pushed fun _ => by simp [State.InRun, hm]

end State.Drained

/-- A signal to terminate that was taken has stopped the simulator. -/
def Core.Halts (D : Delimiters) (c : Core) : Prop :=
  ∀ message ∈ c.processed, ∀ timestamp values, readMessage D message = .ok (timestamp, values) →
    timestamp < 0 → c.stopped = true

namespace Core.Halts

variable {c : Core}

theorem forwardUp (h : c.Halts D) : (c.forwardUp D).Halts D := by
  refine Core.forwardUp_cases fun c' hc' => ?_
  have hpop : ∀ {message : Str} {P : Str → Prop}, (∀ m ∈ c.processed, P m) → P message →
      ∀ m ∈ c.processed ++ [message], P m := by
    intro message P hall hlast m hm
    obtain hm | hm := List.mem_append.mp hm
    · exact hall m hm
    · rw [List.mem_singleton.mp hm]
      exact hlast
  cases hc' with
  | empty => exact h
  | invalid _ hr =>
      refine hpop h fun timestamp values hread _ => ?_
      rw [hr] at hread
      cases hread
  | terminate => exact fun _ _ _ _ _ _ => rfl
  | first _ hr hpos | update _ hr hpos | past _ hr hpos =>
      refine hpop h fun timestamp values hread hneg => ?_
      rw [hr] at hread
      cases hread
      exact absurd hneg (not_lt.mpr hpos)

theorem user (h : c.Halts D) (action : UserAction) : (c.user D action).Halts D := by
  refine Core.user_cases c action ?_ ?_ ?_ ?_ ?_
  · exact fun _ => h
  · exact fun _ _ _ _ _ _ => rfl
  · exact fun _ => h
  · exact fun _ _ => h
  · intro outcome
    unfold Core.connect
    split
    · exact h
    · split <;> exact h

theorem waitForNextUpdate (h : c.Halts D) : c.waitForNextUpdate.Halts D := by
  by_cases hs : c.state = .stopping
  · rw [Core.waitForNextUpdate_of_stopping hs]
    exact h
  · rw [Core.waitForNextUpdate_of_ne hs]
    exact h

theorem handleUpdate (h : c.Halts D) (data : List Str) : (c.handleUpdate data).Halts D := by
  simp only [Core.handleUpdate]
  split <;> exact h

end Core.Halts

theorem halts_preserved : Preserved D (Core.Halts D) where
  push _ _ h := h
  insert _ _ h := h
  user _ _ h _ := h.user _
  wait c _ sim h _ _ := Core.Halts.waitForNextUpdate (c := c.advance sim) h
  forwardUp c _ sim h _ _ _ := Core.Halts.forwardUp (c := c.advance sim) h
  doInitialize _ _ _ _ h _ _ := h
  handleUpdate c _ sim _ h _ _ := Core.Halts.handleUpdate (c := c.advance sim) h _
  leave _ _ _ h _ _ := h
  halt _ h := h
  join _ h := h
  close _ h := h
  destroyTaken _ h := h
  cancelEvents c _ h := by
    rw [c.cancelEvents_eq]
    exact h

namespace Occurs

variable {ok : State → Label → Prop} {t₀ : ℤ}

theorem drained (h : Occurs D ok t₀ s) : s.Drained D := by
  refine h.induct (fun sim outbound _ _ hnot => ?_)
    fun _ _ _ hs hd _ hstep => hd.step hs.handoff hs.framed hstep
  exact absurd ⟨by simp [State.connected, Reader.start], by simp [State.connected, Reader.start]⟩ hnot

theorem halts (h : Occurs D ok t₀ s) : s.core.Halts D :=
  h.preserved halts_preserved fun _ _ _ _ _ hm => by cases hm

/-- When a `Stop` event runs on a connection that has not failed, the server has closed it, and every
message of the stream has been taken. -/
theorem taken_of_stop (h : Occurs D ok t₀ s) (hstep : step D s l = some s')
    (hx : s.Executes l .stop) (hfailed : s.conn.failed = false) :
    s.conn.closed = true ∧ s.core.processed = (cut D.delimiterMessage s.conn.sent).1 := by
  have hpushed := (h.handoff.executes_stop hx).2
  obtain ⟨rfl, e, sim, hn, hk⟩ := hx
  have hexited := (h.handoff.scheduled_eq_zero_of_stop hn hk).1
  have hloop := (loop_of_event hstep).1
  obtain ⟨hclosed, hcut⟩ := h.drained (by simp [Reader.Running, hexited])
    (by simp [State.InRun, hloop]) hfailed
  exact ⟨hclosed, hpushed.trans hcut⟩

/-- Then no message of the stream has stopped the simulator. -/
theorem not_terminated_of_stop (h : Occurs D ok t₀ s) (hstep : step D s l = some s')
    (hx : s.Executes l .stop) {message : Str} (hm : message ∈ s.core.processed) {timestamp : ℤ}
    {values : List Str} (hr : readMessage D message = .ok (timestamp, values)) : 0 ≤ timestamp := by
  obtain ⟨rfl, -⟩ := hx
  by_contra hneg
  have hstopped := h.halts message hm timestamp values hr (not_le.mp hneg)
  rw [(loop_of_event hstep).2] at hstopped
  cases hstopped

end Occurs

end Ns3Cosim.Gateway
