import Ns3Cosim.Words.Unambiguous
import Ns3Cosim.Gateway.Inbound

/-!
# The reader thread from its first to its last `recv`

A connection delivers a stream in chunks and ends with a `0` or `-1` result.
The effects of `RunThread` until it returns depend on the stream only: two for
each message, and at the end one `Stop`.
-/

namespace Ns3Cosim.Gateway

open Words

variable {D : Delimiters}

/-- What the next step of the reader gets from its `recv` calls, and what the later ones get. -/
def Reader.takes (r : Reader) : List Recv → Option Recv × List Recv
  | [] => (none, [])
  | result :: results =>
      match r.pc with
      | .recv _ => (some result, results)
      | _ => (none, result :: results)

/-- `RunThread` from `r` to its return, while the gateway stays connected and `recv` returns the
given results: the states it is in, with the effect of the step from each of them. -/
def readerTrace (D : Delimiters) : ℕ → List Recv → Reader → Option (List (Reader × Effect))
  | 0, _, _ => none
  | fuel + 1, results, r =>
      if r.pc = .exited then some []
      else
        (r.step D .connected (r.takes results).1).bind fun p =>
          (readerTrace D fuel (r.takes results).2 p.1).map ((r, p.2) :: ·)

/-- What an effect does outside of the thread. -/
def Effect.visible : Effect → List Effect
  | .silent => []
  | .push message => [.push message]
  | .schedule kind => [.schedule kind]

/-- Push a message and have it forwarded. -/
def delivery (message : Str) : List Effect := [.push message, .schedule .forwardUp]

/-- The effects of delivering the messages of a stream. -/
def deliveries (D : Delimiters) (stream : Str) : List Effect :=
  (cut D.delimiterMessage stream).1.flatMap delivery

/-- The effects that are still to come of a reader before the rest of the stream. -/
def Reader.remaining (D : Delimiters) (r : Reader) (rest : Str) : List Effect :=
  match r.pc with
  | .exited => []
  | .failed => [.schedule .stop]
  | .push message =>
      delivery message ++ deliveries D (r.messageBuffer ++ rest) ++ [.schedule .stop]
  | .schedule => .schedule .forwardUp :: deliveries D (r.messageBuffer ++ rest) ++ [.schedule .stop]
  | .test | .search _ | .recv _ => deliveries D (r.unread ++ rest) ++ [.schedule .stop]

/-- Without a delimiter there is nothing to deliver. -/
theorem deliveries_of_none {stream : Str} (h : find D.delimiterMessage stream = none) :
    deliveries D stream = [] := by
  simp [deliveries, cut_of_none h]

theorem deliveries_of_some {stream : Str} {k : ℕ} (h : find D.delimiterMessage stream = some k) :
    deliveries D stream =
      delivery (stream.take k) ++ deliveries D (stream.drop (k + D.delimiterMessage.length)) := by
  simp [deliveries, cut_of_some D.message_ne h]

section Step

variable {r r' : Reader} {effect : Effect}

/-- A step that needs no result takes its effect from those that remain. -/
theorem Reader.step_remaining (hpc : ∀ receivedData, r.pc ≠ .recv receivedData)
    (h : r.step D .connected none = some (r', effect)) (rest : Str) :
    r.remaining D rest = effect.visible ++ r'.remaining D rest := by
  obtain ⟨pc, messageBuffer⟩ := r
  cases pc with
  | test =>
      cases h
      rfl
  | search receivedData =>
      simp only [Reader.step] at h
      split at h
      · cases h
        rfl
      · rename_i messageSize hf
        cases h
        simp only [remaining, unread, Effect.visible, List.nil_append]
        rw [deliveries_of_some (find_append_of_some hf rest),
          List.take_append_of_le_length (by have := find_length_le hf; omega),
          List.drop_append_of_le_length (find_length_le hf)]
  | recv receivedData => exact absurd rfl (hpc receivedData)
  | failed | push | schedule =>
      cases h
      rfl
  | exited => cases h

end Step

theorem Reader.takes_of_ne {r : Reader} (hpc : ∀ receivedData, r.pc ≠ .recv receivedData)
    (results : List Recv) : r.takes results = (none, results) := by
  cases results with
  | nil => rfl
  | cons result results =>
      simp only [takes]

theorem Reader.takes_of_recv {r : Reader} {receivedData : Str} (hpc : r.pc = .recv receivedData)
    (result : Recv) (results : List Recv) :
    r.takes (result :: results) = (some result, results) := by
  simp only [takes, hpc]

/-- One step of the trace. -/
theorem readerTrace_step {r r' : Reader} {effect : Effect} {results results' : List Recv}
    {result : Option Recv} (hr : r.pc ≠ .exited) (htakes : r.takes results = (result, results'))
    (hstep : r.step D .connected result = some (r', effect)) (fuel : ℕ) :
    readerTrace D (fuel + 1) results r =
      (readerTrace D fuel results' r').map ((r, effect) :: ·) := by
  simp only [readerTrace, hr, if_false, htakes, hstep, Option.bind_some]

/-- With enough fuel the reader returns, and its effects are those that remained. -/
theorem readerTrace_eq {r : Reader} (hr : r.Running) (hs : Searched D r) (chunks : List Str)
    {last : Recv} (hlast : last = .closed ∨ last = .error) {fuel : ℕ}
    (hfuel : r.workload chunks < fuel) :
    ∃ trace, readerTrace D fuel (chunks.map Recv.bytes ++ [last]) r = some trace ∧
      trace.flatMap (fun p => p.2.visible) = r.remaining D chunks.flatten ∧
      ∀ p ∈ trace, Searched D p.1 := by
  induction fuel generalizing r chunks with
  | zero => omega
  | succ fuel ih =>
      by_cases hpc : ∃ receivedData, r.pc = .recv receivedData
      · obtain ⟨receivedData, hpc⟩ := hpc
        cases chunks with
        | nil =>
            have hfailed : r.step D .connected (some last) =
                some ({ r with pc := .failed }, .silent) := by
              obtain rfl | rfl := hlast <;> simp [Reader.step, hpc]
            have hreturns : readerTrace D fuel [] { r with pc := .failed } =
                some [({ r with pc := .failed }, .schedule .stop)] := by
              obtain ⟨fuel, rfl⟩ : ∃ n, fuel = n + 2 := by
                simp only [Reader.workload, hpc] at hfuel
                exact ⟨fuel - 2, by omega⟩
              simp [readerTrace, Reader.takes, Reader.step]
            refine ⟨[(r, .silent), ({ r with pc := .failed }, .schedule .stop)], ?_, ?_, ?_⟩
            · rw [List.map_nil, List.nil_append,
                readerTrace_step hr.2 (Reader.takes_of_recv hpc last []) hfailed, hreturns]
              rfl
            · have hnone := deliveries_of_none (hs receivedData hpc)
              simp [Reader.remaining, Reader.unread, hpc, hnone, Effect.visible]
            · simpa [Searched, hpc] using hs
        | cons chunk chunks =>
            have hstep := Reader.step_bytes (D := D) hpc .connected chunk
            have hrun : Reader.Running { r with pc := .search (receivedData ++ chunk) } := by
              simp [Reader.Running]
            have hload := Reader.workload_bytes hpc chunk chunks
            obtain ⟨trace, htrace, heffects, hsearched⟩ :=
              ih hrun (Reader.step_searched hstep) chunks (by omega)
            refine ⟨(r, .silent) :: trace, ?_, ?_, ?_⟩
            · rw [List.map_cons, List.cons_append,
                readerTrace_step hr.2 (Reader.takes_of_recv hpc _ _) hstep, htrace,
                Option.map_some]
            · rw [List.flatMap_cons, heffects]
              simp [Reader.remaining, Reader.unread, hpc, Effect.visible]
            · rw [List.forall_mem_cons]
              exact ⟨hs, hsearched⟩
      · have hpc : ∀ receivedData, r.pc ≠ .recv receivedData :=
          fun receivedData h => hpc ⟨receivedData, h⟩
        obtain ⟨r', effect, hstep, hrun, hlt⟩ := Reader.exists_step (D := D) hr hpc chunks
        obtain ⟨trace, htrace, heffects, hsearched⟩ :=
          ih hrun (Reader.step_searched hstep) chunks (by omega)
        refine ⟨(r, effect) :: trace, ?_, ?_, ?_⟩
        · rw [readerTrace_step hr.2 (r.takes_of_ne hpc _) hstep, htrace, Option.map_some]
        · rw [List.flatMap_cons, heffects, ← Reader.step_remaining hpc hstep]
        · rw [List.forall_mem_cons]
          exact ⟨hs, hsearched⟩

/-- The framing of a stream. Its messages are what the leftmost message delimiters end, and the
remainder contains none. However `recv` delivers the stream before its last result, `RunThread`
returns; up to then it pushes these messages in their order and schedules `ForwardUp` for each of
them, then schedules `Stop` once; and no `recv` is called while a message is complete. -/
theorem segmentation_independent (chunks : List Str) {last : Recv}
    (hlast : last = .closed ∨ last = .error) :
    let messages := (cut D.delimiterMessage chunks.flatten).1
    let remainder := (cut D.delimiterMessage chunks.flatten).2
    chunks.flatten = (messages.map (· ++ D.delimiterMessage)).flatten ++ remainder ∧
    (∀ m ∈ messages, find D.delimiterMessage (m ++ D.delimiterMessage) = some m.length) ∧
    ¬ D.delimiterMessage <:+: remainder ∧
    ∃ bound, ∀ fuel, bound < fuel → ∃ trace,
      readerTrace D fuel (chunks.map Recv.bytes ++ [last]) Reader.start = some trace ∧
      trace.flatMap (fun p => p.2.visible) =
        messages.flatMap (fun m => [.push m, .schedule .forwardUp]) ++ [.schedule .stop] ∧
      ∀ p ∈ trace, ∀ receivedData, p.1.pc = .recv receivedData →
        ¬ D.delimiterMessage <:+: receivedData := by
  refine ⟨(cut_glue D.message_ne _).symm, find_of_mem_cut D.message_ne _,
    (find_eq_none_iff _ _).mp (find_cut_remainder D.message_ne _),
    Reader.start.workload chunks, fun fuel hfuel => ?_⟩
  have hrun : Reader.start.Running := ⟨by simp [Reader.start], by simp [Reader.start]⟩
  have hsearched : Searched D Reader.start := by
    intro receivedData hpc
    cases hpc
  obtain ⟨trace, htrace, heffects, hrecv⟩ := readerTrace_eq hrun hsearched chunks hlast hfuel
  refine ⟨trace, htrace, heffects, fun p hp receivedData hpc => ?_⟩
  exact (find_eq_none_iff _ _).mp (hrecv p hp receivedData hpc)

/-- Two messages in chunks that cut the delimiter apart, and a peer that closes right behind them. -/
theorem segmentation_independent_default :
    ∃ bound, ∀ fuel, bound < fuel → ∃ trace,
      readerTrace defaultDelimiters fuel
        ([['a', '\r'], ['\n', 'b', '\r', '\n', 'c']].map Recv.bytes ++ [.closed]) Reader.start =
          some trace ∧
      trace.flatMap (fun p => p.2.visible) =
        [.push ['a'], .schedule .forwardUp, .push ['b'], .schedule .forwardUp, .schedule .stop] := by
  obtain ⟨-, -, -, bound, h⟩ := segmentation_independent (D := defaultDelimiters)
    [['a', '\r'], ['\n', 'b', '\r', '\n', 'c']] (Or.inl rfl)
  refine ⟨bound, fun fuel hfuel => ?_⟩
  obtain ⟨trace, htrace, heffects, -⟩ := h fuel hfuel
  refine ⟨trace, htrace, heffects.trans ?_⟩
  decide +kernel

end Ns3Cosim.Gateway
