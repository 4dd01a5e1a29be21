import Ns3Cosim.TriggeredSend.System

/-!
# What a step of the simulation can do

`Step` lists the forms of a step, one for each event and each action of code
outside of the application. `Occurs` says that a state occurs in a run whose
steps all meet a condition.
-/

namespace Ns3Cosim.TriggeredSend

open Execution

/-- Everything that one step can do, with the guards under which it does it. -/
inductive Step (A : Attributes) (s : State) : Label → State → Prop
  | user {action : UserAction} (hm : s.main = .user ∨ s.main = .trace ∧ action.inTrace = true) :
      Step A s (.user action) { s with app := s.app.user action }
  | resume (hm : s.main = .user) : Step A s .resume { s with main := .loop }
  | finish (hm : s.main = .trace) : Step A s .resume ⟨s.app.reschedule A, .loop⟩
  | start {answer : SocketAnswer} {e : Event Kind} {sim : Simulator Kind} (hm : s.main = .loop)
      (hn : s.app.sim.next? = some (e, sim)) (hk : e.kind = .startApplication) :
      Step A s (.event answer) ⟨(s.app.advance e sim).startApplication A answer, .loop⟩
  | stop {answer : SocketAnswer} {e : Event Kind} {sim : Simulator Kind} (hm : s.main = .loop)
      (hn : s.app.sim.next? = some (e, sim)) (hk : e.kind = .stopApplication) :
      Step A s (.event answer) ⟨(s.app.advance e sim).stopApplication, .loop⟩
  | request {answer : SocketAnswer} {e : Event Kind} {sim : Simulator Kind} {n : UInt32}
      (hm : s.main = .loop) (hn : s.app.sim.next? = some (e, sim))
      (hk : e.kind = .processSendRequest n) :
      Step A s (.event answer) ⟨(s.app.advance e sim).processSendRequest n, .loop⟩
  | sendPacket {answer : SocketAnswer} {e : Event Kind} {sim : Simulator Kind}
      (hm : s.main = .loop) (hn : s.app.sim.next? = some (e, sim)) (hk : e.kind = .sendPacket) :
      Step A s (.event answer) (.sendPacket A answer.bytesSent (s.app.advance e sim))
  | external {answer : SocketAnswer} {e : Event Kind} {sim : Simulator Kind} (hm : s.main = .loop)
      (hn : s.app.sim.next? = some (e, sim)) (hk : e.kind = .external) :
      Step A s (.event answer) ⟨s.app.advance e sim, .user⟩

variable {A : Attributes} {s s' : State} {l : Label}

/-- Only a simulation without a fatal error has a step. -/
theorem step_eq_some (h : step A s l = some s') : s.app.fatal = none ∧ s.act A l = some s' := by
  unfold step at h
  split at h
  · exact ⟨‹_›, h⟩
  · cases h

/-- Every step of the simulation has one of the forms of `Step`. -/
theorem Step.of_step (h : step A s l = some s') : Step A s l s' := by
  have hact := (step_eq_some h).2
  clear h
  cases l with
  | user action =>
      simp only [State.act] at hact
      split at hact
      · rename_i hm
        cases hact
        exact Step.user (Or.inl hm)
      · rename_i hm
        split at hact
        · rename_i htrace
          cases hact
          exact Step.user (Or.inr ⟨hm, htrace⟩)
        · cases hact
      · cases hact
  | resume =>
      simp only [State.act] at hact
      split at hact
      · rename_i hm
        cases hact
        exact Step.resume hm
      · rename_i hm
        cases hact
        exact Step.finish hm
      · cases hact
  | event answer =>
      simp only [State.act] at hact
      split at hact
      · rename_i hm
        obtain ⟨⟨e, sim⟩, hn, rfl⟩ := Option.map_eq_some_iff.mp hact
        cases hk : e.kind with
        | startApplication => exact Step.start hm hn hk
        | stopApplication => exact Step.stop hm hn hk
        | processSendRequest n => exact Step.request hm hn hk
        | sendPacket => exact Step.sendPacket hm hn hk
        | external => exact Step.external hm hn hk
      · cases hact

theorem Label.executes_event {e : Event Kind} {sim : Simulator Kind} (answer : SocketAnswer)
    (hn : s.app.sim.next? = some (e, sim)) : (Label.event answer).executes s = some e.kind := by
  simp [Label.executes, hn]

theorem Label.exists_of_executes {k : Kind} (h : l.executes s = some k) :
    ∃ e ∈ s.app.sim.queue, e.kind = k := by
  cases l with
  | user | resume => cases h
  | event answer =>
      obtain ⟨⟨e, sim⟩, hn, hk⟩ := Option.map_eq_some_iff.mp h
      exact ⟨e, (Simulator.mem_of_next? hn).mpr (Or.inl rfl), hk⟩

/-- What only `SendPacket` and the simulator change. -/
structure Application.Frame (a b : Application) : Prop where
  now : b.sim.now = a.sim.now
  attempts : b.attempts = a.attempts
  executed : b.executed = a.executed

namespace Application

variable {a b c : Application}

theorem Frame.refl (a : Application) : a.Frame a := ⟨rfl, rfl, rfl⟩

theorem Frame.trans (h : a.Frame b) (h' : b.Frame c) : a.Frame c where
  now := h'.now.trans h.now
  attempts := h'.attempts.trans h.attempts
  executed := h'.executed.trans h.executed

theorem cancelEvents_frame (a : Application) : a.Frame a.cancelEvents := by
  rw [cancelEvents_eq]
  exact ⟨rfl, rfl, rfl⟩

theorem user_frame (a : Application) (action : UserAction) : a.Frame (a.user action) := by
  cases action with
  | send n =>
      simp only [user, send]
      split <;> exact ⟨rfl, rfl, rfl⟩
  | dispose => exact a.cancelEvents_frame.trans ⟨rfl, rfl, rfl⟩
  | start | stop | schedule | connectionSucceeded | connectionFailed => exact ⟨rfl, rfl, rfl⟩

/-- Creating a socket ends the program, or it leaves a socket whose connection is pending, made or
refused. -/
@[elab_as_elim]
theorem createSocket_cases {P : Application → Prop} (A : Attributes) (answer : SocketAnswer)
    (a : Application)
    (fails : ∀ e : FatalError, e ≠ .sendPacketNotExpired → e ≠ .nullSocket → P (a.fail e))
    (waits : P { a with socket := some A.socket }.cancelEvents)
    (connects : P { a with socket := some A.socket }.connectionSucceeded.cancelEvents)
    (refused : P { a with socket := some A.socket }.connectionFailed) :
    P (a.createSocket A answer) := by
  unfold createSocket
  split
  · exact fails _ (by simp) (by simp)
  · split
    · rename_i e he
      have hversions : e = .incompatibleVersions := by
        unfold bindSocket at he
        split_ifs at he
        cases he
        rfl
      subst hversions
      exact fails _ (by simp) (by simp)
    · split
      · exact fails _ (by simp) (by simp)
      · split
        · exact waits
        · exact connects
        · exact refused

theorem createSocket_frame (A : Attributes) (answer : SocketAnswer) (a : Application) :
    a.Frame (a.createSocket A answer) := by
  have hsocket : a.Frame { a with socket := some A.socket } := ⟨rfl, rfl, rfl⟩
  have hconnected : a.Frame { a with socket := some A.socket }.connectionSucceeded :=
    ⟨rfl, rfl, rfl⟩
  refine createSocket_cases A answer a ?_ ?_ ?_ ?_
  · exact fun _ _ _ => ⟨rfl, rfl, rfl⟩
  · exact hsocket.trans (cancelEvents_frame _)
  · exact hconnected.trans (cancelEvents_frame _)
  · exact ⟨rfl, rfl, rfl⟩

theorem startApplication_frame (A : Attributes) (answer : SocketAnswer) (a : Application) :
    a.Frame (a.startApplication A answer) := by
  have hstarted : a.Frame { a with stopped := false } := ⟨rfl, rfl, rfl⟩
  simp only [startApplication]
  split
  · exact hstarted.trans (createSocket_frame A answer _)
  · exact hstarted.trans (cancelEvents_frame _)

/-- `StopApplication` closes the socket and keeps it. -/
theorem stopApplication_eq (a : Application) :
    a.stopApplication =
      { a.cancelEvents with
        socket := a.cancelEvents.socket.map fun socket => { socket with closed := true },
        stopped := true } := by
  simp only [stopApplication]
  split
  · rename_i socket hs
    simp only [hs, Option.map_some]
  · rename_i hs
    simp only [hs, Option.map_none]

theorem stopApplication_frame (a : Application) : a.Frame a.stopApplication := by
  rw [stopApplication_eq]
  exact a.cancelEvents_frame.trans ⟨rfl, rfl, rfl⟩

/-- The application has a socket and is connected, as `ProcessSendRequest` tests it. -/
def Ready (a : Application) : Prop := a.socket.isSome ∧ a.connected = true

instance (a : Application) : Decidable a.Ready := inferInstanceAs (Decidable (_ ∧ _))

/-- A request is dropped, or it takes over the pending event, or it starts the send loop. -/
@[elab_as_elim]
theorem processSendRequest_cases {P : Application → Prop} (a : Application) (n : UInt32)
    (dropped : ¬ a.Ready → P a)
    (takesOver : a.Ready → a.sim.isPending a.sendPacketEvent = true →
      P { a with packetCount := n })
    (starts : a.Ready → a.sim.isPending a.sendPacketEvent = false →
      P { a with packetCount := n, sim := a.sim.scheduleNow .sendPacket,
                 sendPacketEvent := some a.sim.nextUid }) :
    P (a.processSendRequest n) := by
  unfold processSendRequest
  split
  · rename_i hready
    split
    · rename_i hp
      exact takesOver hready hp
    · rename_i hp
      exact starts hready (Bool.eq_false_iff.mpr hp)
  · rename_i hready
    exact dropped hready

theorem processSendRequest_frame (a : Application) (n : UInt32) :
    a.Frame (a.processSendRequest n) := by
  refine a.processSendRequest_cases n ?_ ?_ ?_
  · exact fun _ => Frame.refl a
  · exact fun _ _ => ⟨rfl, rfl, rfl⟩
  · exact fun _ _ => ⟨rfl, rfl, rfl⟩

/-- What is open to a trace callback only schedules. -/
theorem user_inTrace {action : UserAction} (a : Application) (h : action.inTrace = true) :
    ∃ sim, a.user action = { a with sim := sim } := by
  cases action with
  | send n =>
      simp only [user, send]
      split
      · exact ⟨a.sim, rfl⟩
      · exact ⟨_, rfl⟩
  | start | stop | schedule => exact ⟨_, rfl⟩
  | connectionSucceeded | connectionFailed | dispose => cases h

end Application

/-- The events that code outside of the application schedules. -/
def Kind.outside : Kind → Bool
  | .startApplication | .stopApplication | .external => true
  | .processSendRequest _ | .sendPacket => false

/-- The event is a deferred request. -/
def Kind.isRequest : Kind → Bool
  | .processSendRequest _ => true
  | _ => false

/-- The state occurs in a run, with steps that all meet `ok`, of a program that has constructed the
application in a simulator with any events of its own. -/
def Occurs (A : Attributes) (ok : State → Label → Prop) (s : State) : Prop :=
  ∃ sim : Simulator Kind, (∀ e ∈ sim.queue, e.kind.outside = true) ∧
    Reach (TriggeredSend.step A) ok (.init sim) s

/-- The state after the given steps, all of which meet `ok`, of a program that has constructed the
application in a simulator without other events. -/
def State.after (A : Attributes) (ok : State → Label → Prop) [∀ s l, Decidable (ok s l)]
    (labels : List Label) : Option State :=
  run (guarded ok (TriggeredSend.step A)) (.init (.empty 0)) labels

namespace Occurs

variable {ok : State → Label → Prop}

theorem next (h : Occurs A ok s) (hok : ok s l) (hstep : TriggeredSend.step A s l = some s') :
    Occurs A ok s' := by
  obtain ⟨sim, hsim, hr⟩ := h
  exact ⟨sim, hsim, hr.next hok hstep⟩

theorem of_after {labels : List Label} [∀ s l, Decidable (ok s l)]
    (h : State.after A ok labels = some s) : Occurs A ok s :=
  ⟨.empty 0, by simp [Simulator.empty], .of_run h⟩

theorem trans (h : Occurs A always s) (h' : Reach (TriggeredSend.step A) ok s s') :
    Occurs A always s' := by
  obtain ⟨sim, hsim, hr⟩ := h
  exact ⟨sim, hsim, hr.trans (h'.mono fun _ _ _ => trivial)⟩

/-- Induction over runs, with what is known of the states before. -/
theorem induct {P : State → Prop}
    (start : ∀ sim, (∀ e ∈ sim.queue, e.kind.outside = true) → P (.init sim))
    (step : ∀ s l s', Occurs A ok s → P s → ok s l → TriggeredSend.step A s l = some s' → P s')
    (h : Occurs A ok s) : P s := by
  obtain ⟨sim, hsim, hr⟩ := h
  refine hr.invariant (start sim hsim) fun s l s' hr hs hok hstep => ?_
  exact step s l s' ⟨sim, hsim, hr⟩ hs hok hstep

end Occurs

/-- The client of the triggered send example. -/
def exampleClient : Attributes where
  localAddress := ⟨.invalid, ""⟩
  remoteAddress := ⟨.inet, "192.168.0.2:8000"⟩
  tos := 0
  packetSize := 1024
  packetInterval := 200000000
  packetSize_pos := by decide

/-- A socket that binds, connects and sends whole packets. -/
def SocketAnswer.sent : SocketAnswer := ⟨0, .succeeded, 1024⟩

/-- The application is started, an external event one second later calls `Send` for two packets, and
the request is processed. -/
def Label.sendRun : List Label :=
  [.user (.start 2000000000), .user (.schedule 3000000000), .resume, .event .sent, .event .sent,
    .user (.send 2), .resume, .event .sent]

/-- The step is part of a stretch of the run in which the application is neither started, stopped
nor disposed of. -/
def Undisturbed (s : State) (l : Label) : Prop :=
  l ≠ .user .dispose ∧ l.executes s ≠ some .startApplication ∧
    l.executes s ≠ some .stopApplication

instance (s : State) (l : Label) : Decidable (Undisturbed s l) :=
  inferInstanceAs (Decidable (_ ∧ _ ∧ _))

end Ns3Cosim.TriggeredSend
