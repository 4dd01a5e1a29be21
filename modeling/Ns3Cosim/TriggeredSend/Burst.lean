import Ns3Cosim.TriggeredSend.Pacing

/-!
# The attempts of one request

A call of `Send` is served behind the `SendPacket` event that is pending for the
same time, and its request then owns the send loop until the next one: the
attempts up to the next request are its own, in number and in time.
-/

namespace Ns3Cosim.TriggeredSend

open Execution Pacing

/-- The step is undisturbed and processes no request. -/
def WithinBurst (s : State) (l : Label) : Prop :=
  Undisturbed s l ∧ (l.executes s).any Kind.isRequest = false

instance (s : State) (l : Label) : Decidable (WithinBurst s l) :=
  inferInstanceAs (Decidable (_ ∧ _))

variable {A : Attributes} {s s' : State} {l : Label} {a : Application}

theorem WithinBurst.noRequest (h : WithinBurst s l) : (l.move s).NoRequest := by
  cases l with
  | user | resume => trivial
  | event answer =>
      cases hn : s.app.sim.next? with
      | none =>
          simp only [Label.move, hn]
          trivial
      | some p =>
          obtain ⟨e, sim⟩ := p
          have hrequest : e.kind.isRequest = false := by
            have hany := h.2
            rw [Label.executes_event answer hn] at hany
            exact hany
          rw [Label.move_event answer hn, Application.move]
          cases hk : e.kind with
          | processSendRequest n =>
              rw [hk] at hrequest
              cases hrequest
          | startApplication | stopApplication | sendPacket | external => trivial

section Order

/-- Every pending event stays pending. -/
def Application.Keeps (a b : Application) : Prop := ∀ e ∈ a.sim.queue, e ∈ b.sim.queue

theorem Application.keeps_user {action : UserAction} (hd : action ≠ .dispose) :
    a.Keeps (a.user action) := by
  intro e he
  cases action with
  | send n =>
      simp only [Application.user, Application.send]
      split
      · exact he
      · exact Simulator.mem_scheduleNow.mpr (Or.inr he)
  | start | stop | schedule => exact Simulator.mem_schedule.mpr (Or.inr he)
  | connectionSucceeded | connectionFailed => exact he
  | dispose => exact absurd rfl hd

theorem Application.keeps_processSendRequest (n : UInt32) :
    a.Keeps (a.processSendRequest n) := by
  intro e he
  refine a.processSendRequest_cases n ?_ ?_ ?_
  · exact fun _ => he
  · exact fun _ _ => he
  · exact fun _ _ => Simulator.mem_scheduleNow.mpr (Or.inr he)

/-- An undisturbed step cancels nothing: it executes the next event and keeps the others, or it keeps
them all. -/
theorem State.Armed.executes_or_keeps (h : s.Armed) (hok : Undisturbed s l)
    (hstep : TriggeredSend.step A s l = some s') :
    (∃ e sim, s.app.sim.next? = some (e, sim) ∧ s'.app.executed = s.app.executed ++ [e] ∧
      ∀ a ∈ sim.queue, a ∈ s'.app.sim.queue) ∨
    (s'.app.executed = s.app.executed ∧ s.app.Keeps s'.app) := by
  cases Step.of_step hstep with
  | @user action hm =>
      have hdispose : action ≠ .dispose := fun hd => hok.1 (congrArg Label.user hd)
      exact Or.inr ⟨(s.app.user_frame action).executed, Application.keeps_user hdispose⟩
  | resume => exact Or.inr ⟨rfl, fun e he => he⟩
  | finish => exact Or.inr ⟨rfl, fun e he => Simulator.mem_schedule.mpr (Or.inr he)⟩
  | start _ hn hk => exact absurd (by rw [Label.executes_event _ hn, hk]) hok.2.1
  | stop _ hn hk => exact absurd (by rw [Label.executes_event _ hn, hk]) hok.2.2
  | @request answer e sim n hm hn hk =>
      refine Or.inl ⟨e, sim, hn, ?_,
        Application.keeps_processSendRequest (a := s.app.advance e sim) n⟩
      exact ((s.app.advance e sim).processSendRequest_frame n).executed
  | @sendPacket answer e sim hm hn hk =>
      refine Or.inl ⟨e, sim, hn, ?_⟩
      refine h.app.sendPacket_cases hn hk _ ?_ ?_ ?_
      · exact fun _ => ⟨rfl, fun a ha => ha⟩
      · exact fun _ => ⟨rfl, fun a ha => Simulator.mem_schedule.mpr (Or.inr ha)⟩
      · exact fun _ => ⟨rfl, fun a ha => ha⟩
  | @external answer e sim hm hn hk => exact Or.inl ⟨e, sim, hn, rfl, fun a ha => ha⟩

/-- Of two events in execution order, the second one is pending, and the first one is pending or
executed; or both were executed in this order. -/
def InOrder (e r : Event Kind) (a : Application) : Prop :=
  r ∈ a.sim.queue ∧ (e ∈ a.sim.queue ∨ e ∈ a.executed) ∨ [e, r].Sublist a.executed

theorem InOrder.step {e r : Event Kind} (h : InOrder e r s.app) (her : e.Before r)
    (harmed : s.Armed) (hok : Undisturbed s l) (hstep : step A s l = some s') :
    InOrder e r s'.app := by
  obtain ⟨x, sim, hn, hexecuted, hkeeps⟩ | ⟨hexecuted, hkeeps⟩ :=
    harmed.executes_or_keeps hok hstep
  · obtain ⟨hr, he⟩ | hdone := h
    · obtain rfl | hr := (Simulator.mem_of_next? hn).mp hr
      · have he : e ∈ s.app.executed :=
          he.resolve_left fun he => Simulator.ne_of_before hn he her rfl
        refine Or.inr ?_
        rw [hexecuted]
        exact (List.singleton_sublist.mpr he).append (List.Sublist.refl _)
      · refine Or.inl ⟨hkeeps r hr, ?_⟩
        obtain he | he := he
        · obtain rfl | he := (Simulator.mem_of_next? hn).mp he
          · exact Or.inr (by rw [hexecuted]; simp)
          · exact Or.inl (hkeeps e he)
        · exact Or.inr (by rw [hexecuted]; exact List.mem_append_left _ he)
    · refine Or.inr ?_
      rw [hexecuted]
      exact hdone.trans (List.sublist_append_left _ _)
  · obtain ⟨hr, he⟩ | hdone := h
    · exact Or.inl ⟨hkeeps r hr, he.imp (hkeeps e) fun he => by rwa [hexecuted]⟩
    · exact Or.inr (by rwa [hexecuted])

/-- A request is processed after the events that were pending for the time of the call of `Send`. -/
theorem request_after_sendPacket (h : Occurs A always s) {n : UInt32} (hn : n ≠ 0)
    (hstep : step A s (.user (.send n)) = some s') {e : Event Kind} (he : e ∈ s.app.sim.queue)
    (ht : e.time = s.app.sim.now) {s'' : State}
    (hr : Reach (step A) Undisturbed s' s'') :
    InOrder e ⟨s.app.sim.now, s.app.sim.nextUid, .processSendRequest n⟩ s''.app := by
  have hocc : Occurs A always s' := h.next trivial hstep
  have her : e.Before ⟨s.app.sim.now, s.app.sim.nextUid, .processSendRequest n⟩ :=
    Or.inr ⟨ht, s.app.sim.fresh e he⟩
  refine hr.invariant (P := fun t => InOrder e _ t.app) ?_ fun t l t' ht hin hok hstep =>
    hin.step her (hocc.trans ht).armed hok hstep
  cases Step.of_step hstep with
  | user hm =>
      simp only [Application.user, Application.send, hn, if_false]
      exact Or.inl ⟨Simulator.mem_scheduleNow.mpr (Or.inl rfl),
        Or.inl (Simulator.mem_scheduleNow.mpr (Or.inr he))⟩

end Order

section Burst

variable {n : UInt32} {answer : SocketAnswer}

/-- Processing a request is a request of the sender. -/
theorem Occurs.pacer_of_request (h : Occurs A always s)
    (hl : (Label.event answer).executes s = some (.processSendRequest n)) (hready : s.app.Ready)
    (hstep : step A s (.event answer) = some s') :
    s'.pacer A = (s.pacer A).request s'.app.sim.now n.toNat ∧
      (s.pacer A).due = s.app.sim.due (· = .sendPacket) ∧ s'.app.attempts = s.app.attempts ∧
      s'.app.ticks = s.app.ticks := by
  cases Step.of_step hstep with
  | @request _ e sim m hm hn hk =>
      rw [Label.executes_event answer hn, hk] at hl
      cases hl
      have hframe := (s.app.advance e sim).processSendRequest_frame n
      have hnow : sim.now = e.time := (Simulator.next?_eq_some hn).2.1
      have hnow' : ((s.app.advance e sim).processSendRequest n).sim.now = e.time :=
        hframe.now.trans hnow
      refine ⟨?_, ?_, hframe.attempts, ?_⟩
      · rw [h.armed.pacer_request hm hn hk hready, hnow']
      · rw [State.pacer_loop (by simp [hm])]
      · calc
          ((s.app.advance e sim).processSendRequest n).ticks = (s.app.advance e sim).ticks :=
            congrArg (List.countP _) hframe.executed
          _ = s.app.ticks := s.app.ticks_advance_of_ne (by simp [hk])
  | start _ hn hk | stop _ hn hk | sendPacket _ hn hk | external _ hn hk =>
      rw [Label.executes_event answer hn, hk] at hl
      cases hl

/-- The attempts from a request on, up to the next one. -/
theorem Occurs.burst (h : Occurs A always s)
    (hl : (Label.event answer).executes s = some (.processSendRequest n)) (hready : s.app.Ready)
    (hstep : step A s (.event answer) = some s') {s'' : State}
    (hr : Reach (step A) WithinBurst s' s'') :
    Pacer.Burst (A.packetInterval : ℤ)
      ((s.app.sim.due (· = .sendPacket)).getD s'.app.sim.now) n.toNat s'.app.attempts
      (s''.app.ticks - s'.app.ticks) (s''.pacer A) := by
  obtain ⟨hpacer, hdue, hattempts, hticks⟩ := h.pacer_of_request hl hready hstep
  have hocc : Occurs A always s' := h.next trivial hstep
  have hreach := hocc.refines (fun _ m => m.NoRequest) (fun _ _ hok => hok.1)
    (fun _ _ hok => hok.noRequest) hr
  rw [hpacer] at hreach
  have hburst := Pacer.burst_of_reach hreach
  rw [hdue] at hburst
  rw [hattempts, hticks]
  exact hburst

/-- Nothing is left of a burst after which no `SendPacket` is pending, or after the time of its last
attempt. -/
theorem le_of_burst_done {p : Pacer ℤ} {start : ℤ} {m k : ℕ} {base : List ℤ}
    (h : Pacer.Burst (A.packetInterval : ℤ) start m base k p) (hnow : ∀ d ∈ p.due, p.now ≤ d)
    (hdone : p.due = none ∨ start + (m - 1) * A.packetInterval < p.now) : m ≤ k := by
  by_contra hlt
  have hdue := h.due (by omega)
  obtain hnone | hlate := hdone
  · rw [hnone] at hdue
    cases hdue
  · have hle := hnow _ hdue
    rw [Int.nsmul_eq_mul] at hle
    have hmul : (k : ℤ) * A.packetInterval ≤ (m - 1) * A.packetInterval := by
      apply Int.mul_le_mul_of_nonneg_right
      · omega
      · exact Int.natCast_nonneg _
    omega

/-- The burst law. A `SendPacket` pending for the time of a call of `Send` is executed before the
request of that call. After a request for `n` packets has been processed, and up to the next one,
`k` executions of `SendPacket` are `min n k` attempts, an interval apart from the time on at which
`SendPacket` was pending, or else from the time of the request on; there are `n` of them once no
`SendPacket` is pending or running, or the time of the last one has passed; and `m_packetCount` is
the rest of this request. It is never decreased below 0. -/
theorem burst_law :
    (∀ s s' n e, Occurs A always s → n ≠ 0 → step A s (.user (.send n)) = some s' →
      e ∈ s.app.sim.queue → e.kind = .sendPacket → e.time = s.app.sim.now →
        ∀ s'', Reach (step A) Undisturbed s' s'' →
          InOrder e ⟨s.app.sim.now, s.app.sim.nextUid, .processSendRequest n⟩ s''.app) ∧
    (∀ s s' n answer, Occurs A always s →
      (Label.event answer).executes s = some (.processSendRequest n) → s.app.Ready →
        step A s (.event answer) = some s' → ∀ s'', Reach (step A) WithinBurst s' s'' →
          let start := (s.app.sim.due (· = .sendPacket)).getD s'.app.sim.now
          let k := s''.app.ticks - s'.app.ticks
          s''.app.attempts = s'.app.attempts ++
              (List.range (min n.toNat k)).map (fun j : ℕ => start + j * A.packetInterval) ∧
            (s''.main ≠ .trace ∧ s''.app.Idle ∨
              start + (n.toNat - 1) * A.packetInterval < s''.app.sim.now → n.toNat ≤ k) ∧
            (s''.main ≠ .trace → s''.app.packetCount.toNat = n.toNat - k) ∧
            (s''.main = .trace → k ≤ n.toNat ∧ s''.app.packetCount.toNat = n.toNat - k + 1)) ∧
    ∀ s, Occurs A always s → s.main = .trace → 0 < s.app.packetCount := by
  refine ⟨?_, ?_, fun s h hm => (h.armed.trace hm).2.2⟩
  · intro s s' n e h hn hstep he _ ht s'' hr
    exact request_after_sendPacket h hn hstep he ht hr
  · intro s s' n answer h hl hready hstep s'' hr start k
    have hburst := h.burst hl hready hstep hr
    have hocc : Occurs A always s'' := (h.next trivial hstep).trans hr
    refine ⟨hburst.attempts, ?_, ?_, ?_⟩
    · intro hdone
      apply le_of_burst_done hburst fun d hd => hocc.armed.now_le_due hd
      refine hdone.imp ?_ id
      rintro ⟨hm, hidle⟩
      rw [State.pacer_loop hm]
      exact hidle.due_eq_none
    · intro hm
      have hcount := hburst.count
      rwa [State.pacer_loop hm] at hcount
    · intro hm
      have hcount := hburst.count
      obtain ⟨-, -, hpos⟩ := hocc.armed.trace hm
      have hlt := UInt32.lt_iff_toNat_lt.mp hpos
      change 0 < s''.app.packetCount.toNat at hlt
      have hle : k ≤ n.toNat := by
        by_contra hlate
        have hdue := hburst.done (not_le.mp hlate)
        simp only [State.pacer, hm, if_true, reduceCtorEq] at hdue
      simp only [State.pacer, hm, if_true] at hcount
      refine ⟨hle, ?_⟩
      omega

/-- The steps that send the two packets of `Label.sendRun`. -/
def Label.burstRun : List Label :=
  [.event .sent, .resume, .event .sent, .resume, .event .sent]

/-- The request for two packets is the only one: both are sent. -/
theorem burst_law_sendRun :
    ∃ s s' s'', Occurs exampleClient always s ∧ step exampleClient s (.event .sent) = some s' ∧
      Reach (step exampleClient) WithinBurst s' s'' ∧
      s''.app.attempts = s'.app.attempts ++ (List.range (min 2 3)).map fun j : ℕ =>
        (s.app.sim.due (· = .sendPacket)).getD s'.app.sim.now + j * exampleClient.packetInterval := by
  have hrun : (State.after exampleClient always (Label.sendRun.take 7)).any (fun s =>
      (Label.event .sent).executes s = some (.processSendRequest 2) ∧ s.app.Ready ∧
        (step exampleClient s (.event .sent)).any fun s' =>
          (run (guarded WithinBurst (step exampleClient)) s' Label.burstRun).any fun s'' =>
            s''.app.ticks - s'.app.ticks = 3) = true := by decide +kernel
  obtain ⟨s, hs, hp⟩ := (Option.any_eq_true _ _).mp hrun
  obtain ⟨hl, hready, hp⟩ := of_decide_eq_true hp
  obtain ⟨s', hstep, hp⟩ := (Option.any_eq_true _ _).mp hp
  obtain ⟨s'', hs'', hk⟩ := (Option.any_eq_true _ _).mp hp
  have hreach : Reach (step exampleClient) WithinBurst s' s'' := .of_run hs''
  have hlaw := burst_law.2.1 s s' 2 .sent (.of_after hs) hl hready hstep s'' hreach
  refine ⟨s, s', s'', .of_after hs, hstep, hreach, ?_⟩
  rw [← of_decide_eq_true hk]
  exact hlaw.1

end Burst

end Ns3Cosim.TriggeredSend
