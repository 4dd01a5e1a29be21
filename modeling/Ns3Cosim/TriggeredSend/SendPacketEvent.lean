import Ns3Cosim.Execution.Handle
import Ns3Cosim.TriggeredSend.Steps

/-!
# The pending event of the send loop

`m_sendPacketEvent` tracks the `SendPacket` events: at most one is pending, and
only while the application has a socket and is connected. So the send loop
never runs twice, and no `SendPacket` finds its handle pending or its socket
gone.
-/

namespace Ns3Cosim.TriggeredSend

open Execution

/-- No `SendPacket` event is pending. -/
def Application.Idle (a : Application) : Prop := a.sim.Quiet (· = .sendPacket)

/-- The send loop is `m_sendPacketEvent`, and it can send. -/
structure Application.Armed (a : Application) : Prop where
  tracks : a.sim.Tracks a.sendPacketEvent (· = .sendPacket)
  ready : a.Idle ∨ a.Ready
  notExpired : a.fatal ≠ some .sendPacketNotExpired
  nullSocket : a.fatal ≠ some .nullSocket

/-- In the trace callbacks of `SendPacket` the loop is not armed, but it can go on. -/
structure State.Armed (s : State) : Prop where
  app : s.app.Armed
  trace : s.main = .trace → s.app.Idle ∧ s.app.Ready ∧ 0 < s.app.packetCount

variable {A : Attributes} {s s' : State} {l : Label} {a : Application}

namespace Application

/-- Only the application itself schedules `SendPacket`. -/
theorem Idle.user (h : a.Idle) (action : UserAction) : (a.user action).Idle := by
  cases action with
  | send n =>
      simp only [Application.user, send]
      split
      · exact h
      · exact h.schedule_other (by simp)
  | start delay | stop delay | schedule delay => exact h.schedule_other (by simp)
  | connectionSucceeded | connectionFailed => exact h
  | dispose =>
      simp only [Application.user, doDispose, cancelEvents_eq]
      exact h.cancel

namespace Armed

theorem advance (h : a.Armed) {e : Event Kind} {sim : Simulator Kind}
    (hn : a.sim.next? = some (e, sim)) : (a.advance e sim).Armed where
  tracks := h.tracks.next hn
  ready := h.ready.imp (fun hq => hq.next hn) id
  notExpired := h.notExpired
  nullSocket := h.nullSocket

theorem schedule (h : a.Armed) {delay : ℕ} {k : Kind} (hk : k ≠ .sendPacket) :
    Armed { a with sim := a.sim.schedule delay k } where
  tracks := h.tracks.schedule_other hk
  ready := h.ready.imp (fun hq => hq.schedule_other hk) id
  notExpired := h.notExpired
  nullSocket := h.nullSocket

theorem cancelEvents (h : a.Armed) : a.cancelEvents.Armed := by
  rw [a.cancelEvents_eq]
  exact ⟨h.tracks.cancel, Or.inl h.tracks.cancel_quiet, h.notExpired, h.nullSocket⟩

theorem cancelEvents_idle (h : a.Armed) : a.cancelEvents.Idle := by
  rw [a.cancelEvents_eq]
  exact h.tracks.cancel_quiet

theorem fail (h : a.Armed) {e : FatalError} (he : e ≠ .sendPacketNotExpired)
    (hs : e ≠ .nullSocket) : (a.fail e).Armed where
  tracks := h.tracks
  ready := h.ready
  notExpired := by simpa [Application.fail] using he
  nullSocket := by simpa [Application.fail] using hs

theorem send (h : a.Armed) (n : UInt32) : (a.send n).Armed := by
  unfold Application.send
  split
  · exact h
  · exact h.schedule (by simp)

theorem doDispose (h : a.Armed) : a.doDispose.Armed where
  tracks := h.cancelEvents.tracks
  ready := Or.inl h.cancelEvents_idle
  notExpired := h.cancelEvents.notExpired
  nullSocket := h.cancelEvents.nullSocket

theorem connectionSucceeded (h : a.Armed) : a.connectionSucceeded.Armed where
  tracks := h.tracks
  ready := h.ready.imp id fun hr => ⟨hr.1, rfl⟩
  notExpired := h.notExpired
  nullSocket := h.nullSocket

theorem user (h : a.Armed) (action : UserAction) : (a.user action).Armed := by
  cases action with
  | send n => exact h.send n
  | start delay | stop delay | schedule delay => exact h.schedule (by simp)
  | connectionSucceeded => exact h.connectionSucceeded
  | connectionFailed => exact h.fail (by simp) (by simp)
  | dispose => exact h.doDispose

/-- A socket can only be created where the send loop is idle, and it keeps it so. -/
theorem withSocket (h : a.Armed) (hnone : a.socket = none) (socket : Socket) :
    Armed { a with socket := some socket } where
  tracks := h.tracks
  ready := Or.inl (h.ready.resolve_right fun hr => by simp [Ready, hnone] at hr)
  notExpired := h.notExpired
  nullSocket := h.nullSocket

theorem createSocket (h : a.Armed) (hnone : a.socket = none) (answer : SocketAnswer) :
    (a.createSocket A answer).Armed := by
  have hsocket := h.withSocket hnone A.socket
  refine createSocket_cases A answer a ?_ ?_ ?_ ?_
  · exact fun e he hs => h.fail he hs
  · exact hsocket.cancelEvents
  · exact hsocket.connectionSucceeded.cancelEvents
  · exact hsocket.fail (by simp) (by simp)

theorem startApplication (h : a.Armed) (answer : SocketAnswer) :
    (a.startApplication A answer).Armed := by
  have hstarted : Armed { a with stopped := false } :=
    ⟨h.tracks, h.ready, h.notExpired, h.nullSocket⟩
  simp only [Application.startApplication]
  split
  · rename_i hnone
    exact hstarted.createSocket hnone answer
  · exact hstarted.cancelEvents

theorem stopApplication (h : a.Armed) : a.stopApplication.Armed := by
  obtain ⟨htracks, -, hexpired, hnull⟩ := h.cancelEvents
  rw [stopApplication_eq]
  exact ⟨htracks, Or.inl h.cancelEvents_idle, hexpired, hnull⟩

/-- A request arms the loop only when it is idle and can send. -/
theorem processSendRequest (h : a.Armed) (n : UInt32) : (a.processSendRequest n).Armed := by
  refine a.processSendRequest_cases n ?_ ?_ ?_
  · exact fun _ => h
  · intro hready _
    exact ⟨h.tracks, Or.inr hready, h.notExpired, h.nullSocket⟩
  · intro hready hp
    exact ⟨.schedule (h.tracks.quiet_iff.mpr hp) rfl, Or.inr hready, h.notExpired, h.nullSocket⟩

theorem reschedule (h : a.Armed) (hidle : a.Idle) (hready : a.Ready) :
    (a.reschedule A).Armed where
  tracks := .schedule hidle rfl
  ready := Or.inr hready
  notExpired := h.notExpired
  nullSocket := h.nullSocket

theorem attempt (h : a.Armed) : a.attempt.Armed := ⟨h.tracks, h.ready, h.notExpired, h.nullSocket⟩

section SendPacket

variable {e : Event Kind} {sim : Simulator Kind}

theorem idle_of_next (h : a.Armed) (hn : a.sim.next? = some (e, sim))
    (hk : e.kind = .sendPacket) : (a.advance e sim).Idle :=
  h.tracks.next_quiet hn hk

theorem ready_of_next (h : a.Armed) (hn : a.sim.next? = some (e, sim))
    (hk : e.kind = .sendPacket) : a.Ready :=
  h.ready.resolve_left fun hidle => hidle e ((Simulator.mem_of_next? hn).mpr (Or.inl rfl)) hk

/-- A `SendPacket` that is executed passes its assertion and finds its socket: it makes an attempt,
which may be traced, or it closes the burst. -/
@[elab_as_elim]
theorem sendPacket_cases {P : State → Prop} (h : a.Armed) (hn : a.sim.next? = some (e, sim))
    (hk : e.kind = .sendPacket) (bytesSent : Int32)
    (traced : 0 < a.packetCount → P ⟨(a.advance e sim).attempt, .trace⟩)
    (untraced : 0 < a.packetCount → P ⟨(a.advance e sim).attempt.reschedule A, .loop⟩)
    (closing : a.packetCount = 0 → P ⟨a.advance e sim, .loop⟩) :
    P (.sendPacket A bytesSent (a.advance e sim)) := by
  have hexpired : (a.advance e sim).sim.isPending (a.advance e sim).sendPacketEvent = false :=
    (h.advance hn).tracks.quiet_iff.mp (h.idle_of_next hn hk)
  obtain ⟨socket, hsocket⟩ := Option.isSome_iff_exists.mp (h.ready_of_next hn hk).1
  have hsocket' : (a.advance e sim).socket = some socket := hsocket
  simp only [State.sendPacket, hexpired, hsocket', Bool.false_eq_true, if_false]
  split
  · rename_i hcount
    split
    · exact traced hcount
    · exact untraced hcount
  · rename_i hcount
    exact closing (UInt32.le_antisymm (UInt32.not_lt.mp hcount) UInt32.zero_le)

end SendPacket

end Armed

end Application

theorem State.Armed.step (h : s.Armed) (hstep : step A s l = some s') : s'.Armed := by
  cases Step.of_step hstep with
  | @user action hm =>
      refine ⟨h.app.user _, fun htrace => ?_⟩
      obtain hm | ⟨-, haction⟩ := hm
      · rw [hm] at htrace
        cases htrace
      · obtain ⟨hidle, hready, hcount⟩ := h.trace htrace
        obtain ⟨sim, huser⟩ := s.app.user_inTrace haction
        have hidle' := hidle.user action
        rw [huser] at hidle' ⊢
        exact ⟨hidle', hready, hcount⟩
  | resume => exact ⟨h.app, by simp⟩
  | finish hm =>
      obtain ⟨hidle, hready, -⟩ := h.trace hm
      exact ⟨h.app.reschedule hidle hready, by simp⟩
  | start _ hn => exact ⟨(h.app.advance hn).startApplication _, by simp⟩
  | stop _ hn => exact ⟨(h.app.advance hn).stopApplication, by simp⟩
  | request _ hn => exact ⟨(h.app.advance hn).processSendRequest _, by simp⟩
  | sendPacket _ hn hk =>
      have hidle := h.app.idle_of_next hn hk
      have hready := h.app.ready_of_next hn hk
      refine h.app.sendPacket_cases hn hk _ ?_ ?_ ?_
      · intro hcount
        exact ⟨(h.app.advance hn).attempt, fun _ => ⟨hidle, hready, hcount⟩⟩
      · intro _
        exact ⟨(h.app.advance hn).attempt.reschedule hidle hready, by simp⟩
      · intro _
        exact ⟨h.app.advance hn, by simp⟩
  | external _ hn => exact ⟨h.app.advance hn, by simp⟩

theorem State.Armed.init {sim : Simulator Kind} (h : ∀ e ∈ sim.queue, e.kind.outside = true) :
    (State.init sim).Armed := by
  have hidle : sim.Quiet (· = .sendPacket) := by
    intro e he hk
    have hout := h e he
    rw [hk] at hout
    cases hout
  exact ⟨⟨.of_quiet hidle, Or.inl hidle, by simp [State.init, Application.construct],
    by simp [State.init, Application.construct]⟩, by simp [State.init]⟩

theorem Occurs.armed {ok : State → Label → Prop} (h : Occurs A ok s) : s.Armed :=
  h.induct (fun _ hsim => .init hsim) fun _ _ _ _ hs _ hstep => hs.step hstep

/-- In every run, at most one `SendPacket` event is pending, it is the one `m_sendPacketEvent` refers
to, and it is pending only while the application has a socket and is connected. When it is executed,
its handle has expired and the socket is there. -/
theorem one_sendPacket_pending (h : Occurs A always s) :
    (∀ a ∈ s.app.sim.queue, ∀ b ∈ s.app.sim.queue,
      a.kind = .sendPacket → b.kind = .sendPacket → a = b) ∧
    (∀ e ∈ s.app.sim.queue, e.kind = .sendPacket →
      s.app.sendPacketEvent = some e.uid ∧ s.app.socket ≠ none ∧ s.app.connected = true) ∧
    (∀ e sim, s.app.sim.next? = some (e, sim) → e.kind = .sendPacket →
      sim.isPending s.app.sendPacketEvent = false ∧ s.app.socket ≠ none) ∧
    s.app.fatal ≠ some .sendPacketNotExpired ∧ s.app.fatal ≠ some .nullSocket := by
  have harmed := h.armed.app
  refine ⟨?_, ?_, ?_, harmed.notExpired, harmed.nullSocket⟩
  · intro a ha b hb hka hkb
    exact harmed.tracks.unique ha hb hka hkb
  · intro e he hk
    have hready := harmed.ready.resolve_left fun hidle => hidle e he hk
    exact ⟨(harmed.tracks.names e he).mp hk, Option.isSome_iff_ne_none.mp hready.1, hready.2⟩
  · intro e sim hn hk
    exact ⟨(harmed.advance hn).tracks.quiet_iff.mp (harmed.idle_of_next hn hk),
      Option.isSome_iff_ne_none.mp (harmed.ready_of_next hn hk).1⟩

/-- A processed request leaves such an event. -/
theorem exists_one_sendPacket_pending :
    ∃ s, Occurs exampleClient always s ∧ ∃ e ∈ s.app.sim.queue, e.kind = .sendPacket ∧
      s.app.sendPacketEvent = some e.uid := by
  have hrun : (State.after exampleClient always Label.sendRun).any (fun s =>
      s.app.sim.queue.any fun e => e.kind = .sendPacket) = true := by decide +kernel
  obtain ⟨s, hs, hp⟩ := (Option.any_eq_true _ _).mp hrun
  obtain ⟨e, he, hk⟩ := List.any_eq_true.mp hp
  have hocc : Occurs exampleClient always s := .of_after hs
  exact ⟨s, hocc, e, he, of_decide_eq_true hk,
    ((one_sendPacket_pending hocc).2.1 e he (of_decide_eq_true hk)).1⟩

end Ns3Cosim.TriggeredSend
