import Ns3Cosim.SimpleGateway.Messages
import Ns3Cosim.SimpleGateway.Steps

/-!
# What the server has sent

`Server.Step` lists the forms of a step of the server. The server sends one
message for each iteration that it has begun, waits for the response to it, and
sends the signal to terminate after the last response.
-/

namespace Ns3Cosim.SimpleGateway

open Words Gateway Execution

/-- Everything that a step of the server can do, with the guards under which it does it. -/
inductive Server.Step (O : Options) (broken : Bool) (result : Option Recv) (s : Server) :
    Server → ServerEffect → Prop
  | ask (hpc : s.pc = .loop) (hi : s.i < O.iterations.toNat) (hb : broken = false) :
      Step O broken result s { s with pc := .recv, rounds := s.rounds ++ [s.nodes] }
        (.send (message (timeNow O s.i) s.nodes))
  | askFailed (hpc : s.pc = .loop) (hi : s.i < O.iterations.toNat) (hb : broken = true) :
      Step O broken result s { s with pc := .failed .sendFailed, rounds := s.rounds ++ [s.nodes] }
        .close
  | last (hpc : s.pc = .loop) (hi : O.iterations.toNat ≤ s.i) :
      Step O broken result s { s with pc := .finish } .silent
  | answered {chunk : Str} (hpc : s.pc = .recv) (hr : result = some (.bytes chunk)) :
      Step O broken result s { s with pc := .received, responses := s.responses ++ [chunk] } .silent
  | hungUp (hpc : s.pc = .recv) (hr : result = some .closed) :
      Step O broken result s { s with pc := .finish } .silent
  | recvFailed (hpc : s.pc = .recv) (hr : result = some .error) :
      Step O broken result s { s with pc := .failed .receiveFailed } .close
  | terminate (hpc : s.pc = .received) (hi : s.i = O.iterations.toNat - 1) (hb : broken = false) :
      Step O broken result s { s with pc := .loop, i := s.i + 1, terminated := true }
        (.send terminateMessage)
  | terminateFailed (hpc : s.pc = .received) (hi : s.i = O.iterations.toNat - 1)
      (hb : broken = true) :
      Step O broken result s
        { s with pc := .failed .sendFailed, i := s.i + 1, terminated := true } .close
  | move (hpc : s.pc = .received) (hi : s.i ≠ O.iterations.toNat - 1) (rand : ℕ → ℕ × ℕ) :
      Step O broken result s
        { s with pc := .loop, i := s.i + 1,
                 nodes := s.nodes.mapIdx fun n node => node.move O s.i (rand n) } .silent
  | exit (hpc : s.pc = .finish) : Step O broken result s { s with pc := .exited } .close

section Server

variable {O : Options} {broken : Bool} {result : Option Recv} {rand : ℕ → ℕ × ℕ} {s s' : Server}
  {effect : ServerEffect}

theorem Server.Step.of_step (h : s.step O broken result rand = some (s', effect)) :
    s.Step O broken result s' effect := by
  unfold Server.step at h
  split at h
  · rename_i hpc
    split at h
    · rename_i hi
      cases hb : broken with
      | false =>
          simp only [Server.send, hb, Bool.false_eq_true, if_false, Option.some.injEq,
            Prod.mk.injEq] at h
          obtain ⟨rfl, rfl⟩ := h
          exact Step.ask hpc hi rfl
      | true =>
          simp only [Server.send, Server.fail, hb, if_true, Option.some.injEq, Prod.mk.injEq] at h
          obtain ⟨rfl, rfl⟩ := h
          exact Step.askFailed hpc hi rfl
    · rename_i hi
      cases h
      exact Step.last hpc (not_lt.mp hi)
  · rename_i hpc
    split at h
    · cases h
    · cases h
      exact Step.answered hpc rfl
    · cases h
      exact Step.hungUp hpc rfl
    · cases h
      exact Step.recvFailed hpc rfl
  · rename_i hpc
    split at h
    · rename_i hi
      cases hb : broken with
      | false =>
          simp only [Server.send, hb, Bool.false_eq_true, if_false, Option.some.injEq,
            Prod.mk.injEq] at h
          obtain ⟨rfl, rfl⟩ := h
          exact Step.terminate hpc hi rfl
      | true =>
          simp only [Server.send, Server.fail, hb, if_true, Option.some.injEq, Prod.mk.injEq] at h
          obtain ⟨rfl, rfl⟩ := h
          exact Step.terminateFailed hpc hi rfl
    · rename_i hi
      cases h
      exact Step.move hpc hi rand
  · rename_i hpc
    cases h
    exact Step.exit hpc
  · cases h
  · cases h

/-- The server has had a response in every iteration, and the gateway has the signal to terminate if
there was one. -/
def Server.Complete (O : Options) (s : Server) : Prop :=
  s.rounds.length = O.iterations.toNat ∧ s.responses.length = O.iterations.toNat ∧
    (s.terminated = true ↔ 0 < O.iterations.toNat)

/-- The server has ended without a response to its last message. -/
def Server.Unanswered (s : Server) : Prop :=
  s.rounds.length = s.responses.length + 1 ∧ s.terminated = false

/-- How far the server is, at each place of its loop. -/
def Server.Phase (O : Options) (s : Server) : Prop :=
  match s.pc with
  | .loop => s.i ≤ O.iterations.toNat ∧ s.rounds.length = s.i ∧ s.responses.length = s.i ∧
      (s.terminated = true ↔ s.i = O.iterations.toNat ∧ 0 < s.i)
  | .recv => s.i < O.iterations.toNat ∧ s.rounds.length = s.i + 1 ∧ s.responses.length = s.i ∧
      s.terminated = false
  | .received => s.i < O.iterations.toNat ∧ s.rounds.length = s.i + 1 ∧
      s.responses.length = s.i + 1 ∧ s.terminated = false
  | .finish | .exited => s.Complete O ∨ s.Unanswered
  | .failed _ => True

/-- The invariant of the server's variables. -/
structure Server.Orderly (O : Options) (s : Server) : Prop where
  width : s.nodes.length = O.numberOfNodes.toNat
  widths : ∀ nodes ∈ s.rounds, nodes.length = O.numberOfNodes.toNat
  bounded : s.rounds.length ≤ O.iterations.toNat
  phase : s.Phase O

theorem Server.start_orderly (O : Options) : (Server.start O).Orderly O where
  width := by simp [Server.start]
  widths := by simp [Server.start]
  bounded := by simp [Server.start]
  phase := by simp [Server.Phase, Server.start]

theorem Server.Orderly.step (h : s.Orderly O) (hstep : s.Step O broken result s' effect) :
    s'.Orderly O := by
  obtain ⟨hwidth, hwidths, hbounded, hphase⟩ := h
  have hask : ∀ nodes ∈ s.rounds ++ [s.nodes], nodes.length = O.numberOfNodes.toNat := by
    simp only [List.mem_append, List.mem_singleton]
    rintro nodes (hn | rfl)
    · exact hwidths nodes hn
    · exact hwidth
  unfold Server.Phase at hphase
  cases hstep with
  | ask hpc hi =>
      simp only [hpc] at hphase
      obtain ⟨-, hrounds, hresponses, hterminated⟩ := hphase
      have hlen : (s.rounds ++ [s.nodes]).length = s.i + 1 := by
        rw [List.length_append, List.length_singleton, hrounds]
      refine ⟨hwidth, hask, hlen.trans_le hi, hi, hlen, hresponses, ?_⟩
      exact Bool.eq_false_iff.mpr fun ht => absurd (hterminated.mp ht).1 hi.ne
  | askFailed hpc hi =>
      simp only [hpc] at hphase
      have hlen : (s.rounds ++ [s.nodes]).length = s.i + 1 := by
        rw [List.length_append, List.length_singleton, hphase.2.1]
      exact ⟨hwidth, hask, hlen.trans_le hi, trivial⟩
  | last hpc hi =>
      simp only [hpc] at hphase
      obtain ⟨hle, hrounds, hresponses, hterminated⟩ := hphase
      have heq : s.i = O.iterations.toNat := le_antisymm hle hi
      refine ⟨hwidth, hwidths, hbounded, Or.inl ⟨hrounds.trans heq, hresponses.trans heq, ?_⟩⟩
      rw [heq] at hterminated
      simp only [hterminated, true_and]
  | answered hpc =>
      simp only [hpc] at hphase
      obtain ⟨hi, hrounds, hresponses, hterminated⟩ := hphase
      refine ⟨hwidth, hwidths, hbounded, hi, hrounds, ?_, hterminated⟩
      rw [List.length_append, List.length_singleton, hresponses]
  | hungUp hpc =>
      simp only [hpc] at hphase
      obtain ⟨hi, hrounds, hresponses, hterminated⟩ := hphase
      have hlen : s.rounds.length = s.responses.length + 1 := by omega
      exact ⟨hwidth, hwidths, hbounded, Or.inr ⟨hlen, hterminated⟩⟩
  | terminate hpc hi =>
      simp only [hpc] at hphase
      obtain ⟨hlt, hrounds, hresponses, -⟩ := hphase
      have heq : s.i + 1 = O.iterations.toNat := by omega
      exact ⟨hwidth, hwidths, hbounded, hlt, hrounds, hresponses,
        iff_of_true rfl ⟨heq, Nat.succ_pos _⟩⟩
  | move hpc hi rand =>
      simp only [hpc] at hphase
      obtain ⟨hlt, hrounds, hresponses, hterminated⟩ := hphase
      have hne : s.i + 1 ≠ O.iterations.toNat := by omega
      refine ⟨by rw [List.length_mapIdx, hwidth], hwidths, hbounded, hlt, hrounds, hresponses, ?_⟩
      exact iff_of_false (by simp [hterminated]) fun heq => hne heq.1
  | exit hpc =>
      simp only [hpc] at hphase
      exact ⟨hwidth, hwidths, hbounded, hphase⟩
  | recvFailed | terminateFailed => exact ⟨hwidth, hwidths, hbounded, trivial⟩

end Server

/-- The connection holds what the server has sent, for as long as both programs run. -/
structure Delivered (O : Options) (s : State) : Prop where
  orderly : s.server.Orderly O
  isPrefix : s.gateway.conn.sent <+: stream O s.server.rounds s.server.terminated
  sent : s.Alive → (∀ e, s.server.pc ≠ .failed e) →
    s.gateway.conn.sent = stream O s.server.rounds s.server.terminated
  closed : s.gateway.conn.closed = true → s.server.pc = .exited ∨ ∃ e, s.server.pc = .failed e

namespace Delivered

variable {O : Options} {s s' : State}

/-- A step of the gateway program. -/
theorem of_same (h : Delivered O s) (hserver : s'.server = s.server)
    (hsent : s'.gateway.conn.sent = s.gateway.conn.sent)
    (hclosed : s'.gateway.conn.closed = s.gateway.conn.closed) (halive : s'.Alive → s.Alive) :
    Delivered O s' where
  orderly := hserver ▸ h.orderly
  isPrefix := by
    rw [hsent, hserver]
    exact h.isPrefix
  sent := by
    rw [hsent, hserver]
    exact fun ha => h.sent (halive ha)
  closed := by
    rw [hclosed, hserver]
    exact h.closed

/-- A step of the server that sends nothing. -/
theorem silent (h : Delivered O s) {server : Server} (ho : server.Orderly O)
    (hrounds : server.rounds = s.server.rounds)
    (hterminated : server.terminated = s.server.terminated)
    (hpc : s.server.pc ≠ .exited ∧ ∀ e, s.server.pc ≠ .failed e) {conn : Connection}
    (hc : s.deliver .silent = some conn) :
    Delivered O { s with server := server, gateway.conn := conn } := by
  cases hc
  refine ⟨ho, ?_, fun ha _ => ?_, fun hclosed => ?_⟩
  · simp only [hrounds, hterminated]
    exact h.isPrefix
  · simp only [hrounds, hterminated]
    exact h.sent ha hpc.2
  · obtain hexited | ⟨e, he⟩ := h.closed hclosed
    · exact absurd hexited hpc.1
    · exact absurd he (hpc.2 e)

/-- A step of the server that sends `bytes`. -/
theorem send (h : Delivered O s) {server : Server} (ho : server.Orderly O) {bytes : Str}
    (hstream : stream O server.rounds server.terminated =
      stream O s.server.rounds s.server.terminated ++ bytes)
    (hpc : s.server.pc ≠ .exited ∧ ∀ e, s.server.pc ≠ .failed e) {conn : Connection}
    (hc : s.deliver (.send bytes) = some conn) :
    Delivered O { s with server := server, gateway.conn := conn } := by
  have hopen : s.gateway.conn.closed ≠ true := by
    intro hclosed
    obtain hexited | ⟨e, he⟩ := h.closed hclosed
    · exact hpc.1 hexited
    · exact hpc.2 e he
  simp only [State.deliver, ServerEffect.action] at hc
  split at hc
  · rename_i halive
    simp only [Connection.act] at hc
    split at hc
    · cases hc
    · cases hc
      have hsent := h.sent halive hpc.2
      refine ⟨ho, ?_, fun _ _ => ?_, fun hclosed => absurd hclosed hopen⟩
      · simp only [hstream, hsent]
        exact List.prefix_rfl
      · simp only [hstream, hsent]
  · rename_i halive
    cases hc
    refine ⟨ho, ?_, fun ha => absurd ha halive, fun hclosed => absurd hclosed hopen⟩
    simp only [hstream]
    exact h.isPrefix.trans (List.prefix_append _ _)

/-- A step of the server that closes the connection. -/
theorem close (h : Delivered O s) {server : Server} (ho : server.Orderly O)
    (hstream : stream O s.server.rounds s.server.terminated <+:
      stream O server.rounds server.terminated)
    (hpc : server.pc = .exited ∧ server.rounds = s.server.rounds ∧
        server.terminated = s.server.terminated ∧ (∀ e, s.server.pc ≠ .failed e) ∨
      ∃ e, server.pc = .failed e) {conn : Connection} (hc : s.deliver .close = some conn) :
    Delivered O { s with server := server, gateway.conn := conn } := by
  have hsent : conn.sent = s.gateway.conn.sent := by
    obtain rfl | ⟨action, haction, -, hact⟩ := State.deliver_cases hc
    · rfl
    · cases haction
      cases hact
      rfl
  refine ⟨ho, ?_, fun ha hne => ?_, fun _ => hpc.imp And.left id⟩
  · simp only [hsent]
    exact h.isPrefix.trans hstream
  · obtain ⟨-, hrounds, hterminated, hold⟩ | ⟨e, he⟩ := hpc
    · simp only [hsent, hrounds, hterminated]
      exact h.sent ha hold
    · exact absurd he (hne e)

theorem server (h : Delivered O s) {result : Option Recv} {server : Server} {effect : ServerEffect}
    (hstep : s.server.Step O s.gateway.conn.failed result server effect) {conn : Connection}
    (hc : s.deliver effect = some conn) :
    Delivered O { s with server := server, gateway.conn := conn } := by
  have ho := h.orderly.step hstep
  have hphase := h.orderly.phase
  unfold Server.Phase at hphase
  have hask : stream O s.server.rounds false <+:
      stream O (s.server.rounds ++ [s.server.nodes]) false := by
    rw [stream_append]
    exact List.prefix_append _ _
  cases hstep with
  | ask hpc hi =>
      simp only [hpc] at hphase
      have hfalse : s.server.terminated = false :=
        Bool.eq_false_iff.mpr fun ht => absurd (hphase.2.2.2.mp ht).1 hi.ne
      refine h.send ho ?_ (by simp [hpc]) hc
      simp only [hfalse, stream_append, hphase.2.1]
  | askFailed hpc hi =>
      simp only [hpc] at hphase
      have hfalse : s.server.terminated = false :=
        Bool.eq_false_iff.mpr fun ht => absurd (hphase.2.2.2.mp ht).1 hi.ne
      refine h.close ho ?_ (Or.inr ⟨_, rfl⟩) hc
      simp only [hfalse]
      exact hask
  | last hpc | answered hpc | hungUp hpc | move hpc =>
      exact h.silent ho rfl rfl (by simp [hpc]) hc
  | recvFailed => exact h.close ho List.prefix_rfl (Or.inr ⟨_, rfl⟩) hc
  | terminate hpc hi =>
      simp only [hpc] at hphase
      refine h.send ho ?_ (by simp [hpc]) hc
      simp only [hphase.2.2.2, stream_terminate]
  | terminateFailed hpc hi =>
      simp only [hpc] at hphase
      refine h.close ho ?_ (Or.inr ⟨_, rfl⟩) hc
      simp only [hphase.2.2.2, stream_terminate]
      exact List.prefix_append _ _
  | exit hpc => exact h.close ho List.prefix_rfl (Or.inl ⟨rfl, rfl, rfl, by simp [hpc]⟩) hc

theorem step (h : Delivered O s) {l : Label} (hstep : SimpleGateway.Step O s l s') :
    Delivered O s' := by
  cases hstep with
  | server hr hc => exact h.server (Server.Step.of_step hr) hc
  | @plain _ l' gateway hl _ _ ha hg =>
      have halive : s.Alive := ⟨(step_eq_some hg).1, ha⟩
      by_cases hfail : l = .fail
      · subst hfail
        cases hl
        cases Gateway.Step.of_step hg with
        | server hc =>
            cases hc
            exact h.of_same rfl rfl rfl fun _ => halive
      · have hconn : SameStream s.gateway.conn gateway.conn := by
          refine SameStream.step ?_ hg
          rintro action rfl
          cases l <;> simp [Label.plain] at hl hfail
        exact h.of_same rfl hconn.sent hconn.closed fun _ => halive
  | callback _ ha hg =>
      have hconn := SameStream.step (by simp) hg
      exact h.of_same rfl hconn.sent hconn.closed fun _ => ⟨(step_eq_some hg).1, ha⟩
  | reset _ ha | receive ha | lost ha => exact h.of_same rfl rfl rfl fun _ => ha
  | @event e sim gateway ha _ hg =>
      have hconn := SameStream.step (by simp) hg
      have hparties := State.call_sameParties { s with gateway := gateway } e.kind
      refine h.of_same hparties.server ?_ ?_ fun _ => ⟨(step_eq_some hg).1, ha⟩
      · rw [hparties.gateway, hconn.sent]
      · rw [hparties.gateway, hconn.closed]

end Delivered

theorem Occurs.delivered {O : Options} {numberOfNodes : UInt16} {ok : State → Label → Prop}
    {s : State} (h : Occurs O numberOfNodes ok s) : Delivered O s := by
  refine h.induct (fun sim _ _ => ?_) fun _ _ _ _ hs _ hstep => hs.step hstep
  exact ⟨Server.start_orderly O, List.nil_prefix, fun _ _ => rfl, by simp [State.start,
    Gateway.State.connected]⟩

end Ns3Cosim.SimpleGateway
