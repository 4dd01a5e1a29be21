import Ns3Cosim.Gateway.Unreadable
import Ns3Cosim.SimpleGateway.LockStep

/-!
# Programs that do not match

Nothing in the protocol tells the two programs how many vehicles the other one
has. With more vehicles than the server, the first callback of the gateway finds
data for some of them only and ends the program. The server sees a closed
connection and comes to its end.

Nor does it tell them how far time can go: the server counts seconds in a
`uint32_t`, and the gateway reads them with `std::stoi`.
-/

namespace Ns3Cosim.SimpleGateway

open Words Gateway Mobility Execution

variable {O : Options} {numberOfNodes : UInt16} {ok : State → Label → Prop} {s s' : State}
  {l : Label}

section Vehicles

/-- The data of a callback has no values for the last vehicles. -/
theorem Sound.doUpdate_error (hs : Sound O numberOfNodes s) (h : Occurs O numberOfNodes ok s)
    (hmore : O.numberOfNodes.toNat < numberOfNodes.toNat) {callback : Callback}
    (hlog : s.gateway.core.log ++ [callback] <+: s.server.rounds.mapIdx (roundCallback O)) :
    doUpdate s.vehicles callback.data = .error .insufficientSize := by
  obtain ⟨hk, hdata⟩ := data_of_log hlog
  have hwidth := h.delivered.orderly.widths _ (List.getElem_mem hk)
  have hlt := O.numberOfNodes.toNat_lt
  have hsize : (roundData s.server.rounds[s.gateway.core.log.length]).length < s.vehicles.length := by
    rw [length_roundData, hs.followed.length, hwidth]
    exact hmore
  have hloop := updateVehicles_insufficient [] 0 (by simp) hsize
    fun d hd => roundData_inRange (by omega) hd
  rw [List.nil_append] at hloop
  rw [hdata, roundFields, doUpdate, hloop]
  rfl

/-- The invariant: the first callback is the last step of the gateway program. -/
structure Starved (O : Options) (numberOfNodes : UInt16) (s : State) : Prop where
  sound : s.aborted = none → Sound O numberOfNodes s
  fatal : s.gateway.core.fatal = none
  aborted : s.aborted =
    if s.gateway.core.log = [] then none else some .insufficientSize
  length : s.gateway.core.log.length ≤ 1
  script : s.script = []
  transmitted : s.gateway.core.outbound.transmitted = []
  responses : s.server.responses = []
  intact : s.gateway.conn.failed = false
  serving : ∀ e, s.server.pc ≠ .failed e

namespace Starved

theorem start (O : Options) (numberOfNodes : UInt16) (sim : Simulator Kind) :
    Starved O numberOfNodes (.start O sim numberOfNodes) where
  sound := fun _ => Sound.start O numberOfNodes sim
  fatal := rfl
  aborted := rfl
  length := Nat.zero_le 1
  script := rfl
  transmitted := rfl
  responses := rfl
  intact := rfl
  serving := (Sound.start O numberOfNodes sim).serving

/-- Before the first callback. -/
theorem log_eq_nil (hs : Starved O numberOfNodes s) (ha : s.aborted = none) :
    s.gateway.core.log = [] := by
  by_contra hne
  have haborted := hs.aborted
  rw [if_neg hne, ha] at haborted
  cases haborted

/-- With no response on its way the server gets no bytes. -/
theorem recv_ne_bytes (hs : Starved O numberOfNodes s) (n : ℕ) (chunk : Str) :
    s.recv n ≠ some (.bytes chunk) := by
  have hflight : s.inFlight = [] := by rw [State.inFlight, hs.transmitted, List.drop_nil]
  unfold State.recv
  split
  · split
    · simp
    · split <;> simp
  · rename_i hne
    rw [if_neg]
    · simp
    · rw [hflight, List.length_nil]
      omega

theorem recv_ne_error (hs : Starved O numberOfNodes s) (n : ℕ) : s.recv n ≠ some .error := by
  unfold State.recv
  rw [hs.intact]
  split
  · split
    · rename_i hfailed
      cases hfailed
    · split <;> simp
  · split <;> simp

/-- The server goes on, whether the gateway program runs or has ended. -/
theorem server (hs : Starved O numberOfNodes s) (h : Occurs O numberOfNodes ok s) (hfits : O.Fits)
    {n : ℕ} {server : Server} {effect : ServerEffect} {conn : Connection}
    (hstep : s.server.Step O s.gateway.conn.failed (s.recv n) server effect)
    (hc : s.deliver effect = some conn) :
    Starved O numberOfNodes { s with server := server, gateway.conn := conn } := by
  have hintact := State.deliver_intact hs.intact hc
  have hsound : s.aborted = none →
      Sound O numberOfNodes { s with server := server, gateway.conn := conn } :=
    fun ha => (hs.sound ha).server h hfits hstep hc
  have hserver : server.responses = s.server.responses ∧ ∀ e, server.pc ≠ .failed e := by
    cases hstep with
    | answered _ hr => exact absurd hr (hs.recv_ne_bytes n _)
    | recvFailed _ hr => exact absurd hr (hs.recv_ne_error n)
    | askFailed _ _ hb | terminateFailed _ _ hb =>
        rw [hs.intact] at hb
        cases hb
    | ask | last | hungUp | terminate | move | exit => exact ⟨rfl, by simp⟩
  exact ⟨hsound, hs.fatal, hs.aborted, hs.length, hs.script, hs.transmitted,
    hserver.1.trans hs.responses, hintact, hserver.2⟩

/-- A step that calls no code of the derived class. -/
theorem of_sound (hs : Starved O numberOfNodes s) {gateway : Gateway.State}
    (hsound : Sound O numberOfNodes { s with gateway := gateway })
    (hlog : gateway.core.log = s.gateway.core.log)
    (houtbound : gateway.core.outbound = s.gateway.core.outbound) :
    Starved O numberOfNodes { s with gateway := gateway } where
  sound := fun _ => hsound
  fatal := hsound.alive.1
  aborted := by
    simp only [hlog]
    exact hs.aborted
  length := by
    simp only [hlog]
    exact hs.length
  script := hs.script
  transmitted := by
    simp only [houtbound]
    exact hs.transmitted
  responses := hs.responses
  intact := hsound.intact
  serving := hs.serving

/-- An event: a callback ends the program. -/
theorem event (hs : Starved O numberOfNodes s) (h : Occurs O numberOfNodes ok s) (hfits : O.Fits)
    (hmore : O.numberOfNodes.toNat < numberOfNodes.toNat) (ha : s.aborted = none) {e : Event Kind}
    {sim : Simulator Kind} {gateway : Gateway.State}
    (hn : s.gateway.core.sim.next? = some (e, sim))
    (hg : Gateway.step defaultDelimiters s.gateway .event = some gateway)
    (hnext : Occurs O numberOfNodes ok (State.call { s with gateway := gateway } e.kind)) :
    Starved O numberOfNodes (State.call { s with gateway := gateway } e.kind) := by
  have hsound := hs.sound ha
  obtain ⟨hlog, houtbound⟩ := record_of_event hn hg
  have hquiet : callback? e = none → Starved O numberOfNodes { s with gateway := gateway } := by
    intro hnone
    rw [hnone, Option.toList_none, List.append_nil] at hlog
    exact hs.of_sound (hsound.quiet h hfits hn hg hnone) hlog houtbound
  have hcallback : ∀ name data, callback? e = some ⟨name, data, e.time⟩ →
      gateway.core.log <+: s.server.rounds.mapIdx (roundCallback O) →
      Starved O numberOfNodes
        (State.begin { s with gateway := gateway } (doUpdate s.vehicles data)) := by
    intro name data hcb hprefix
    rw [hcb, Option.toList_some] at hlog
    rw [hlog] at hprefix
    have herror := hsound.doUpdate_error h hmore hprefix
    simp only at herror
    rw [hs.log_eq_nil ha, List.nil_append] at hlog
    rw [herror, State.begin]
    refine ⟨fun ha => ?_, h.fatal_of_event hfits hg, ?_, ?_, hs.script, ?_, hs.responses, ?_,
      hs.serving⟩
    · cases ha
    · simp only [hlog, List.cons_ne_nil, if_false]
    · simp only [hlog, List.length_singleton, le_refl]
    · simp only [houtbound]
      exact hs.transmitted
    · exact (SameStream.step (by simp) hg).failed.trans hs.intact
  have hparties := State.call_sameParties { s with gateway := gateway } e.kind
  have hprefix : gateway.core.log <+: s.server.rounds.mapIdx (roundCallback O) := by
    have hprefix := hnext.log_isPrefix hfits
    rwa [hparties.gateway, hparties.server] at hprefix
  cases hk : e.kind with
  | waitForNextUpdate | forwardUp | stop | unrelated => exact hquiet (by simp [callback?, hk])
  | doInitialize data => exact hcallback .doInitialize data (by simp [callback?, hk]) hprefix
  | handleUpdate data => exact hcallback .doUpdate data (by simp [callback?, hk]) hprefix

end Starved

theorem Occurs.starved (h : Occurs O numberOfNodes Unbroken s) (hfits : O.Fits)
    (hmore : O.numberOfNodes.toNat < numberOfNodes.toNat) : Starved O numberOfNodes s := by
  obtain ⟨sim, hsim, ht, hr⟩ := h
  refine hr.invariant (Starved.start O numberOfNodes sim) fun s l s' hr hs hok hstep => ?_
  have h : Occurs O numberOfNodes Unbroken s := ⟨sim, hsim, ht, hr⟩
  have hnext := h.next hok hstep
  cases Step.of_step hstep with
  | server hr hc => exact hs.server h hfits (Server.Step.of_step hr) hc
  | plain hl hscript hnetwork ha hg =>
      have hsound := (hs.sound ha).plain h hfits hl hok.ne_fail hscript hnetwork hg
      have hrecord := sameRecord_of_plain hl hg
      exact hs.of_sound hsound hrecord.log hrecord.outbound
  | callback hscript =>
      rw [hs.script] at hscript
      cases hscript
  | reset hscript =>
      rw [hs.script] at hscript
      cases hscript
  | @receive id ha _ hid vehicles hv =>
      have hsound := hs.sound ha.2
      rw [hsound.handleReceive hid] at hv
      cases hv
      refine ⟨fun _ => ?_, hs.fatal, hs.aborted, hs.length, hs.script, hs.transmitted, hs.responses,
        hs.intact, hs.serving⟩
      exact ⟨hsound.alive, hsound.intact, hsound.serving, hsound.complete, hsound.inCallback,
        hsound.idle, hsound.stopped, hsound.stopping, hsound.logged, hsound.followed.receive id,
        hsound.answers⟩
  | lost ha _ hid hv =>
      rw [(hs.sound ha.2).handleReceive hid] at hv
      cases hv
  | event ha hn hg => exact hs.event h hfits hmore ha hn hg hnext

/-- With more vehicles than the server has, the first callback ends the gateway program with
`insufficient size`: no response is ever sent, and the server sends one message at most and never the
signal to terminate. -/
theorem aborts_in_first_callback (h : Occurs O numberOfNodes Unbroken s) (hfits : O.Fits)
    (hmore : O.numberOfNodes.toNat < numberOfNodes.toNat) :
    s.aborted = (if s.gateway.core.log = [] then none else some .insufficientSize) ∧
      s.gateway.core.log.length ≤ 1 ∧ s.gateway.core.fatal = none ∧
      s.gateway.core.outbound.transmitted = [] ∧ s.server.rounds.length ≤ 1 ∧
      s.server.terminated = false ∧ ∀ e, s.server.pc ≠ .failed e := by
  have hs := h.starved hfits hmore
  have hphase := h.delivered.orderly.phase
  have hserver : s.server.rounds.length ≤ 1 ∧ s.server.terminated = false := by
    unfold Server.Phase at hphase
    cases hpc : s.server.pc with
    | loop =>
        simp only [hpc, hs.responses, List.length_nil] at hphase
        obtain ⟨-, hrounds, hi, hterminated⟩ := hphase
        refine ⟨by omega, Bool.eq_false_iff.mpr fun ht => ?_⟩
        have hpos := (hterminated.mp ht).2
        omega
    | recv | received =>
        simp only [hpc, hs.responses, List.length_nil] at hphase
        obtain ⟨-, hrounds, hi, hterminated⟩ := hphase
        exact ⟨by omega, hterminated⟩
    | finish | exited =>
        simp only [hpc, Server.Complete, Server.Unanswered, hs.responses, List.length_nil] at hphase
        obtain ⟨hrounds, hzero, hterminated⟩ | ⟨hrounds, hterminated⟩ := hphase
        · refine ⟨by omega, Bool.eq_false_iff.mpr fun ht => ?_⟩
          have hpos := hterminated.mp ht
          omega
        · exact ⟨hrounds.le, hterminated⟩
    | failed e => exact absurd hpc (hs.serving e)
  exact ⟨hs.aborted, hs.length, hs.fatal, hs.transmitted, hserver.1, hserver.2, hs.serving⟩

theorem aborts_in_first_callback_session :
    ∃ s, State.after sessionOptions Unbroken 3
        (Label.firstRound.take 22 ++ [.serve 0, .serve 0]) = some s ∧
      s.server.pc = .exited ∧ s.aborted = some .insufficientSize ∧
      s.gateway.core.outbound.transmitted = [] ∧ s.server.terminated = false := by
  have hrun : (State.after sessionOptions Unbroken 3
      (Label.firstRound.take 22 ++ [.serve 0, .serve 0])).any
        (fun s => s.server.pc = .exited ∧ s.gateway.core.log ≠ []) := by
    decide +kernel
  obtain ⟨s, hs, hp⟩ := (Option.any_eq_true _ _).mp hrun
  obtain ⟨hexited, hlog⟩ := of_decide_eq_true hp
  obtain ⟨haborted, -, -, htransmitted, -, hterminated, -⟩ :=
    aborts_in_first_callback (.of_after hs) sessionOptions_fits (by decide)
  rw [if_neg hlog] at haborted
  exact ⟨s, hs, hexited, haborted, htransmitted, hterminated⟩

end Vehicles

section Times

/-- A message with 2^31 seconds or more is never handled, nor is a later one: the gateway program
ends when it takes the message, and has not taken it while it runs. -/
theorem no_callback_beyond_header (h : Occurs O numberOfNodes ok s) {i : ℕ}
    (hi : i < s.server.rounds.length) (htime : 2 ^ 31 ≤ (timeNow O i).toNat) :
    s.gateway.core.log.length ≤ i ∧ s.gateway.core.processed.length ≤ i + 1 ∧
      (s.gateway.core.fatal = none → s.gateway.core.processed.length ≤ i) := by
  have hcut : (cut defaultDelimiters.delimiterMessage s.gateway.conn.sent).1 <+:
      bodies O s.server.rounds s.server.terminated := by
    have hprefix := cut_isPrefix defaultDelimiters.message_ne h.delivered.isPrefix
    rwa [cut_stream] at hprefix
  apply h.gateway.bounded_by_accepted
  obtain hle | hlt := le_or_gt
    (cut defaultDelimiters.delimiterMessage s.gateway.conn.sent).1.length i
  · exact h.gateway.accepted_isPrefix.length_le.trans hle
  · have hread : readMessage defaultDelimiters
        ((cut defaultDelimiters.delimiterMessage s.gateway.conn.sent).1[i]) =
          .error .invalidHeader := by
      have hround : i <
          (s.server.rounds.mapIdx fun i nodes => roundBody (timeNow O i) nodes).length := by
        rw [List.length_mapIdx]
        exact hi
      rw [hcut.getElem hlt]
      simp only [bodies, List.getElem_append_left hround, List.getElem_mapIdx]
      exact readMessage_roundBody_of_le htime _
    exact h.gateway.accepted_length_le (List.getElem?_eq_getElem hlt) hread

/-- Two iterations from the last second before `2^31` on. -/
def lateOptions : Options :=
  { sessionOptions with timeStart := 2147483647, timeDelta := 1 }

/-- The second message is beyond the header. -/
def Label.lateRun : List Label := message 42 ++
  [.resume, .drain, .drain, .event, .drain, .event, .drain, .event, .drain, .event, .callback,
    .callback, .callback, .resume, .drain] ++ [serve 5, serve 0] ++ message 42 ++
  [.event, .drain, .drain, .event, .drain, .event]

theorem no_callback_beyond_header_lateRun :
    ∃ s, State.after lateOptions Unbroken 2 Label.lateRun = some s ∧
      s.gateway.core.fatal = some .invalidHeader ∧ s.gateway.core.log.length ≤ 1 ∧
      s.gateway.core.processed.length ≤ 2 := by
  have hrun : (State.after lateOptions Unbroken 2 Label.lateRun).any
      (fun s => s.gateway.core.fatal = some .invalidHeader ∧ s.server.rounds.length = 2) := by
    decide +kernel
  obtain ⟨s, hs, hp⟩ := (Option.any_eq_true _ _).mp hrun
  obtain ⟨hfatal, hrounds⟩ := of_decide_eq_true hp
  have hlast : 1 < s.server.rounds.length := by omega
  have hnone := no_callback_beyond_header (.of_after hs) hlast (by decide)
  exact ⟨s, hs, hfatal, hnone.1, hnone.2.1⟩

end Times

end Ns3Cosim.SimpleGateway
