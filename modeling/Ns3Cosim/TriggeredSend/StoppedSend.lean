import Ns3Cosim.TriggeredSend.SendPacketEvent

/-!
# A request processed after the application was stopped

`StopApplication` cancels the pending `SendPacket` event and closes the socket,
but it keeps `m_socket` and `m_connected`, and it does not know of deferred
requests. A request processed later finds its guard true and starts the send
loop of a stopped application. Without such a request a stopped application is
silent.
-/

namespace Ns3Cosim.TriggeredSend

open Execution

/-- The step processes a request after `StopApplication`, and the guard of the request is true. -/
def State.Revives (s : State) (l : Label) : Prop :=
  s.app.stopped = true ∧ s.app.Ready ∧ (l.executes s).any Kind.isRequest = true

instance (s : State) (l : Label) : Decidable (s.Revives l) :=
  inferInstanceAs (Decidable (_ ∧ _ ∧ _))

variable {A : Attributes} {s s' : State} {l : Label} {a : Application}

namespace Application

theorem user_stopped (a : Application) (action : UserAction) :
    (a.user action).stopped = a.stopped := by
  cases action with
  | send n =>
      simp only [user, send]
      split <;> rfl
  | dispose => simp only [user, doDispose, cancelEvents_eq]
  | start | stop | schedule | connectionSucceeded | connectionFailed => rfl

theorem createSocket_stopped (A : Attributes) (answer : SocketAnswer) (a : Application) :
    (a.createSocket A answer).stopped = a.stopped := by
  refine createSocket_cases (P := fun b => b.stopped = a.stopped) A answer a ?_ ?_ ?_ ?_
  · exact fun _ _ _ => rfl
  · rw [cancelEvents_eq]
  · rw [cancelEvents_eq]
    rfl
  · rfl

theorem startApplication_stopped (A : Attributes) (answer : SocketAnswer) (a : Application) :
    (a.startApplication A answer).stopped = false := by
  simp only [startApplication]
  split
  · rw [createSocket_stopped]
  · rw [cancelEvents_eq]

end Application

/-- A stopped application does not send, and it has no `SendPacket` event. -/
def Silent (s : State) : Prop := s.app.stopped = true → s.app.Idle ∧ s.main ≠ .trace

/-- Only a request can end the silence. -/
theorem Silent.step (h : Silent s) (harmed : s.Armed) (hok : ¬ s.Revives l)
    (hstep : step A s l = some s') : Silent s' := by
  intro hstopped
  cases Step.of_step hstep with
  | user =>
      rw [Application.user_stopped] at hstopped
      obtain ⟨hidle, hmain⟩ := h hstopped
      exact ⟨hidle.user _, hmain⟩
  | resume => exact ⟨(h hstopped).1, by simp⟩
  | finish hm => exact absurd hm (h hstopped).2
  | start => simp only [Application.startApplication_stopped, Bool.false_eq_true] at hstopped
  | stop _ hn =>
      rw [Application.stopApplication_eq]
      exact ⟨(harmed.app.advance hn).cancelEvents_idle, by simp⟩
  | @request answer e sim n _ hn hk =>
      have hrequest : ((Label.event answer).executes s).any Kind.isRequest = true := by
        rw [Label.executes_event answer hn, hk]
        rfl
      revert hstopped
      refine (s.app.advance e sim).processSendRequest_cases n ?_ ?_ ?_
      · exact fun _ hstopped => ⟨(h hstopped).1.next hn, by simp⟩
      · exact fun hready _ hstopped => absurd ⟨hstopped, hready, hrequest⟩ hok
      · exact fun hready _ hstopped => absurd ⟨hstopped, hready, hrequest⟩ hok
  | sendPacket _ hn hk =>
      have hstarted : s.app.stopped ≠ true := fun hs =>
        (h hs).1 _ ((Simulator.mem_of_next? hn).mpr (Or.inl rfl)) hk
      refine absurd ?_ hstarted
      revert hstopped
      refine harmed.app.sendPacket_cases hn hk _ ?_ ?_ ?_
      · exact fun _ => id
      · exact fun _ => id
      · exact fun _ => id
  | external _ hn => exact ⟨(h hstopped).1.next hn, by simp⟩

theorem Occurs.silent (h : Occurs A (fun s l => ¬ s.Revives l) s) : Silent s := by
  refine h.induct (fun sim _ hs => ?_) fun _ _ _ hocc hs hok hstep => hs.step hocc.armed hok hstep
  simp [State.init, Application.construct] at hs

/-- Nothing but a `SendPacket` event makes an attempt. -/
theorem attempts_eq_of_step (hstep : step A s l = some s')
    (hl : l.executes s ≠ some .sendPacket) : s'.app.attempts = s.app.attempts := by
  cases Step.of_step hstep with
  | user => exact (Application.user_frame _ _).attempts
  | resume | finish | external => rfl
  | start => exact (Application.startApplication_frame _ _ _).attempts
  | stop => exact (Application.stopApplication_frame _).attempts
  | request => exact (Application.processSendRequest_frame _ _).attempts
  | sendPacket _ hn hk =>
      refine absurd ?_ hl
      rw [Label.executes_event _ hn, hk]

/-- A request that is processed in a stopped application leaves a pending `SendPacket` event. -/
theorem pending_of_revives (harmed : s.Armed) (hs : s.Revives l)
    (hstep : step A s l = some s') :
    s'.app.stopped = true ∧ ∃ e ∈ s'.app.sim.queue, e.kind = .sendPacket := by
  obtain ⟨hstopped, hready, hrequest⟩ := hs
  cases Step.of_step hstep with
  | user | resume | finish => simp [Label.executes] at hrequest
  | start _ hn hk | stop _ hn hk | sendPacket _ hn hk | external _ hn hk =>
      rw [Label.executes_event _ hn, hk] at hrequest
      cases hrequest
  | @request answer e sim n _ hn _ =>
      refine (s.app.advance e sim).processSendRequest_cases n ?_ ?_ ?_
      · exact fun hnot => absurd hready hnot
      · intro _ hp
        exact ⟨hstopped, (harmed.app.advance hn).tracks.isPending_iff.mp hp⟩
      · intro _ _
        exact ⟨hstopped, _, Simulator.mem_scheduleNow.mpr (Or.inl rfl), rfl⟩

/-- A stopped application makes no attempt and executes no `SendPacket` in the runs that process no
request with a true guard between `StopApplication` and a later `StartApplication`. Such a request
leaves a `SendPacket` event pending. -/
theorem silent_unless_revived :
    (∀ s l s', Occurs A (fun s l => ¬ s.Revives l) s → s.app.stopped = true →
      step A s l = some s' →
        l.executes s ≠ some .sendPacket ∧ s'.app.attempts = s.app.attempts) ∧
    ∀ s l s', Occurs A always s → s.Revives l → step A s l = some s' →
      s'.app.stopped = true ∧ ∃ e ∈ s'.app.sim.queue, e.kind = .sendPacket := by
  constructor
  · intro s l s' hocc hstopped hstep
    have hl : l.executes s ≠ some .sendPacket := by
      intro hl
      obtain ⟨e, he, hk⟩ := Label.exists_of_executes hl
      exact (hocc.silent hstopped).1 e he hk
    exact ⟨hl, attempts_eq_of_step hstep hl⟩
  · intro s l s' hocc hrevives hstep
    exact pending_of_revives hocc.armed hrevives hstep

/-- The application sends two packets and is stopped before a later external event. -/
def Label.sentAndStopped : List Label :=
  [.user (.start 2000000000), .user (.schedule 3000000000), .user (.stop 12000000000),
    .user (.schedule 13000000000), .resume, .event .sent, .event .sent, .user (.send 2), .resume,
    .event .sent, .event .sent, .resume, .event .sent, .resume, .event .sent, .event .sent]

/-- The two attempts of that run stay the only ones. -/
theorem silent_sentAndStopped :
    ∃ s s', Occurs exampleClient (fun s l => ¬ s.Revives l) s ∧ s.app.stopped = true ∧
      step exampleClient s (.event .sent) = some s' ∧ s.app.attempts = [3000000000, 3200000000] ∧
      s'.app.attempts = s.app.attempts := by
  have hrun : (State.after exampleClient (fun s l => ¬ s.Revives l) Label.sentAndStopped).any
      (fun s => s.app.stopped = true ∧ s.app.attempts = [3000000000, 3200000000] ∧
        (step exampleClient s (.event .sent)).isSome) = true := by decide +kernel
  obtain ⟨s, hs, hp⟩ := (Option.any_eq_true _ _).mp hrun
  obtain ⟨hstopped, hattempts, hsome⟩ := of_decide_eq_true hp
  obtain ⟨s', hstep⟩ := Option.isSome_iff_exists.mp hsome
  have hocc : Occurs exampleClient (fun s l => ¬ s.Revives l) s := .of_after hs
  exact ⟨s, s', hocc, hstopped, hstep, hattempts,
    (silent_unless_revived.1 s _ s' hocc hstopped hstep).2⟩

/-- `Send` is called just before `StopApplication`, in the same time step. -/
def Label.sendAndStop : List Label :=
  [.user (.start 2000000000), .user (.schedule 12000000000), .user (.stop 12000000000), .resume,
    .event .sent, .event .sent, .user (.send 1), .resume, .event .sent]

/-- The request of a call of `Send` before `StopApplication` is processed after it, and a packet is
sent on the closed socket. -/
theorem stopped_application_sends :
    ¬ ∀ (A : Attributes) (s s' : State) (l : Label), Occurs A always s → s.app.stopped = true →
      step A s l = some s' →
        l.executes s ≠ some .sendPacket ∧ s'.app.attempts = s.app.attempts := by
  intro hclaim
  have hrun : (State.after exampleClient always (Label.sendAndStop ++ [.event .sent])).any
      (fun s => s.app.stopped = true ∧ (step exampleClient s (.event .sent)).any fun s' =>
        s'.app.attempts ≠ s.app.attempts) = true := by decide +kernel
  obtain ⟨s, hs, hp⟩ := (Option.any_eq_true _ _).mp hrun
  obtain ⟨hstopped, hsends⟩ := of_decide_eq_true hp
  obtain ⟨s', hstep, hne⟩ := (Option.any_eq_true _ _).mp hsends
  exact of_decide_eq_true hne (hclaim exampleClient s s' _ (.of_after hs) hstopped hstep).2

end Ns3Cosim.TriggeredSend
