import Mathlib.Algebra.Group.Int.Defs
import Ns3Cosim.Pacing.Pacer
import Ns3Cosim.TriggeredSend.SendPacketEvent

/-!
# The application is a paced sender

Between `StartApplication` and `StopApplication`, the pending `SendPacket` event
is the tick that is due, and `m_packetCount` the number of attempts left. Every
step of the simulation is a move of this sender, so the application obeys its
two laws.
-/

namespace Ns3Cosim.TriggeredSend

open Execution Pacing

/-- The number of `SendPacket` events that were executed. -/
def Application.ticks (a : Application) : ℕ := a.executed.countP fun e => e.kind = .sendPacket

/-- The sender that a state stands for. In a trace callback the rest of `SendPacket` counts as
done. -/
def State.pacer (A : Attributes) (s : State) : Pacer ℤ where
  now := s.app.sim.now
  due := if s.main = .trace then some (s.app.sim.now + A.packetInterval)
    else s.app.sim.due (· = .sendPacket)
  count := if s.main = .trace then s.app.packetCount.toNat - 1 else s.app.packetCount.toNat
  ticks := s.app.ticks
  attempts := s.app.attempts

/-- The move that an event is. -/
def Application.move (a : Application) (e : Event Kind) : Move ℤ :=
  match e.kind with
  | .sendPacket => .tick
  | .processSendRequest n => if a.Ready then .request e.time n.toNat else .wait e.time
  | .startApplication | .stopApplication | .external => .wait e.time

/-- The move that a step is. -/
def Label.move (s : State) : Label → Move ℤ
  | .event _ =>
      match s.app.sim.next? with
      | some (e, _) => s.app.move e
      | none => .wait s.app.sim.now
  | .user _ | .resume => .wait s.app.sim.now

variable {A : Attributes} {s s' : State} {l : Label} {a : Application}

theorem Label.move_event {e : Event Kind} {sim : Simulator Kind} (answer : SocketAnswer)
    (hn : s.app.sim.next? = some (e, sim)) : (Label.event answer).move s = s.app.move e := by
  simp only [Label.move, hn]

theorem State.Armed.now_le_due (h : s.Armed) {d : ℤ} (hd : (s.pacer A).due = some d) :
    s.app.sim.now ≤ d := by
  simp only [State.pacer] at hd
  split at hd
  · obtain rfl := Option.some.inj hd
    exact Int.le_add_of_nonneg_right (Int.natCast_nonneg _)
  · exact h.app.tracks.now_le_due hd

/-- A step that leaves the sender as it is. -/
theorem State.Armed.waits (h : s.Armed) (heq : s'.pacer A = s.pacer A) :
    Pacer.step (A.packetInterval : ℤ) (s.pacer A) (.wait s.app.sim.now) = some (s'.pacer A) := by
  have hwait : (s.pacer A).CanWait s.app.sim.now := ⟨le_rfl, fun d hd => h.now_le_due hd⟩
  rw [heq, Pacer.step, if_pos hwait]
  rfl

theorem State.Armed.canWait (h : s.Armed) (hm : s.main = .loop) {e : Event Kind}
    {sim : Simulator Kind} (hn : s.app.sim.next? = some (e, sim)) :
    (s.pacer A).CanWait e.time := by
  refine ⟨Simulator.now_le_of_next? hn, fun d hd => ?_⟩
  simp only [State.pacer, hm, reduceCtorEq, if_false] at hd
  exact h.app.tracks.next_time_le_due hn hd

/-- Code outside of the application cannot change when the next packet is sent. -/
theorem Application.Armed.due_user (h : a.Armed) {action : UserAction} (hd : action ≠ .dispose) :
    (a.user action).sim.due (· = .sendPacket) = a.sim.due (· = .sendPacket) ∧
      (a.user action).packetCount = a.packetCount := by
  cases action with
  | send n =>
      simp only [Application.user, Application.send]
      split
      · exact ⟨rfl, rfl⟩
      · exact ⟨h.tracks.due_schedule_other (by simp), rfl⟩
  | start delay | stop delay | schedule delay =>
      exact ⟨h.tracks.due_schedule_other (by simp), rfl⟩
  | connectionSucceeded | connectionFailed => exact ⟨rfl, rfl⟩
  | dispose => exact absurd rfl hd

theorem Application.ticks_advance_of_ne {e : Event Kind} {sim : Simulator Kind}
    (hk : e.kind ≠ .sendPacket) : (a.advance e sim).ticks = a.ticks := by
  simp [ticks, advance, hk]

theorem Application.ticks_advance {e : Event Kind} (sim : Simulator Kind)
    (hk : e.kind = .sendPacket) : (a.advance e sim).ticks = a.ticks + 1 := by
  simp [ticks, advance, hk]

/-- Outside of the trace callbacks. -/
theorem State.pacer_loop (hm : s.main ≠ .trace) :
    s.pacer A =
      ⟨s.app.sim.now, s.app.sim.due (· = .sendPacket), s.app.packetCount.toNat, s.app.ticks,
        s.app.attempts⟩ := by
  simp only [State.pacer, hm, if_false]

/-- The rest of `SendPacket` is the part of the tick that `State.pacer` counts as done. -/
theorem Application.Idle.pacer_reschedule (h : a.Idle) (hcount : 0 < a.packetCount) :
    State.pacer A ⟨a.reschedule A, .loop⟩ = State.pacer A ⟨a, .trace⟩ := by
  have hdue : (a.reschedule A).sim.due (· = .sendPacket) = some (a.sim.now + A.packetInterval) :=
    Simulator.Tracks.due_schedule h rfl
  have hsub : (a.reschedule A).packetCount.toNat = a.packetCount.toNat - 1 :=
    UInt32.toNat_sub_of_le _ _ hcount
  rw [State.pacer_loop (by simp), hdue, hsub]
  rfl

section Tick

variable {e : Event Kind} {sim : Simulator Kind}

/-- A tick with packets left is an attempt. -/
theorem State.fire_attempt (hm : s.main = .loop) (hn : s.app.sim.next? = some (e, sim))
    (hk : e.kind = .sendPacket) (hcount : 0 < s.app.packetCount) :
    (s.pacer A).fire (A.packetInterval : ℤ) e.time =
      State.pacer A ⟨(s.app.advance e sim).attempt, .trace⟩ := by
  have hnow : sim.now = e.time := (Simulator.next?_eq_some hn).2.1
  have hpos : s.app.packetCount.toNat ≠ 0 := by
    have hlt := UInt32.lt_iff_toNat_lt.mp hcount
    exact Nat.ne_of_gt hlt
  have hticks : (s.app.advance e sim).attempt.ticks = s.app.ticks + 1 :=
    s.app.ticks_advance sim hk
  rw [State.pacer_loop (s := s) (by simp [hm])]
  simp only [Pacer.fire, hpos, if_false, State.pacer, if_true, hticks]
  apply Pacer.ext
  · exact hnow.symm
  · exact congrArg (fun t => some (t + (A.packetInterval : ℤ))) hnow.symm
  · rfl
  · rfl
  · exact congrArg (fun t => s.app.attempts ++ [t]) hnow.symm

/-- A tick without packets left makes no other tick due. -/
theorem State.Armed.fire_closing (h : s.Armed) (hm : s.main = .loop)
    (hn : s.app.sim.next? = some (e, sim)) (hk : e.kind = .sendPacket)
    (hcount : s.app.packetCount = 0) :
    (s.pacer A).fire (A.packetInterval : ℤ) e.time =
      State.pacer A ⟨s.app.advance e sim, .loop⟩ := by
  have hnow : sim.now = e.time := (Simulator.next?_eq_some hn).2.1
  have hzero : s.app.packetCount.toNat = 0 := by rw [hcount]; rfl
  have hticks : (s.app.advance e sim).ticks = s.app.ticks + 1 := s.app.ticks_advance sim hk
  have hdue : (s.app.advance e sim).sim.due (· = .sendPacket) = none :=
    (h.app.idle_of_next hn hk).due_eq_none
  rw [State.pacer_loop (s := s) (by simp [hm]), State.pacer_loop (by simp), hdue, hticks]
  simp only [Pacer.fire, hzero, if_true]
  apply Pacer.ext
  · exact hnow.symm
  · rfl
  · exact hzero.symm
  · rfl
  · rfl

/-- The time goes on with an event that is not a tick. -/
theorem State.Armed.pacer_advance (h : s.Armed) (hm : s.main = .loop)
    (hn : s.app.sim.next? = some (e, sim)) (hk : e.kind ≠ .sendPacket) {main : MainPc}
    (hm' : main ≠ .trace) :
    State.pacer A ⟨s.app.advance e sim, main⟩ = { s.pacer A with now := e.time } := by
  have hnow : sim.now = e.time := (Simulator.next?_eq_some hn).2.1
  have hdue : (s.app.advance e sim).sim.due (· = .sendPacket) = s.app.sim.due (· = .sendPacket) :=
    h.app.tracks.due_next_other hn hk
  have hticks : (s.app.advance e sim).ticks = s.app.ticks := s.app.ticks_advance_of_ne hk
  rw [State.pacer_loop hm', State.pacer_loop (s := s) (by simp [hm]), hdue, hticks]
  apply Pacer.ext
  · exact hnow
  · rfl
  · rfl
  · rfl
  · rfl

/-- A request that finds the guard true is a request of the sender. -/
theorem State.Armed.pacer_request (h : s.Armed) (hm : s.main = .loop)
    (hn : s.app.sim.next? = some (e, sim)) {n : UInt32} (hk : e.kind = .processSendRequest n)
    (hready : s.app.Ready) :
    State.pacer A ⟨(s.app.advance e sim).processSendRequest n, .loop⟩ =
      (s.pacer A).request e.time n.toNat := by
  have hother : e.kind ≠ .sendPacket := by simp [hk]
  have hnow : sim.now = e.time := (Simulator.next?_eq_some hn).2.1
  have htracks := (h.app.advance hn).tracks
  have hdue : (s.app.advance e sim).sim.due (· = .sendPacket) = s.app.sim.due (· = .sendPacket) :=
    h.app.tracks.due_next_other hn hother
  have hticks : (s.app.advance e sim).ticks = s.app.ticks := s.app.ticks_advance_of_ne hother
  refine (s.app.advance e sim).processSendRequest_cases n ?_ ?_ ?_
  · exact fun hnot => absurd hready hnot
  · intro _ hp
    obtain ⟨a, ha, hka⟩ := htracks.isPending_iff.mp hp
    have hsome : (s.app.advance e sim).sim.due (· = .sendPacket) = some a.time :=
      htracks.due_eq_some_iff.mpr ⟨a, ha, hka, rfl⟩
    rw [State.pacer_loop (by simp), State.pacer_loop (s := s) (by simp [hm])]
    apply Pacer.ext
    · exact hnow
    · simp only [Pacer.request, ← hdue, hsome, Option.getD_some]
    · rfl
    · exact hticks
    · rfl
  · intro _ hp
    have hidle := htracks.quiet_iff.mpr hp
    have hnone : s.app.sim.due (· = .sendPacket) = none := hdue ▸ hidle.due_eq_none
    have hnew : ((s.app.advance e sim).sim.scheduleNow .sendPacket).due (· = .sendPacket) =
        some sim.now :=
      Simulator.Tracks.due_scheduleNow hidle rfl
    rw [State.pacer_loop (by simp), State.pacer_loop (s := s) (by simp [hm])]
    apply Pacer.ext
    · exact hnow
    · simp only [hnew, Pacer.request, hnone, Option.getD_none, hnow]
    · rfl
    · exact hticks
    · rfl

end Tick

/-- Every step between `StartApplication` and `StopApplication` is a move of the sender. -/
theorem State.Armed.refines (h : s.Armed) (hok : Undisturbed s l)
    (hstep : TriggeredSend.step A s l = some s') :
    Pacer.step (A.packetInterval : ℤ) (s.pacer A) (l.move s) = some (s'.pacer A) := by
  cases Step.of_step hstep with
  | @user action hm =>
      have hdispose : action ≠ .dispose := fun hd => hok.1 (congrArg Label.user hd)
      obtain ⟨hdue, hcount⟩ := h.app.due_user hdispose
      obtain ⟨hnow, hattempts, hexecuted⟩ := s.app.user_frame action
      apply h.waits
      apply Pacer.ext
      · exact hnow
      · simp only [State.pacer, hdue, hnow]
      · simp only [State.pacer, hcount]
      · exact congrArg (List.countP _) hexecuted
      · exact hattempts
  | resume hm =>
      apply h.waits
      rw [State.pacer_loop (s := s) (by simp [hm]), State.pacer_loop (by simp)]
  | finish hm =>
      obtain ⟨hidle, -, hcount⟩ := h.trace hm
      apply h.waits
      rw [hidle.pacer_reschedule hcount, ← hm]
  | start _ hn hk =>
      exact absurd (by rw [Label.executes_event _ hn, hk]) hok.2.1
  | stop _ hn hk =>
      exact absurd (by rw [Label.executes_event _ hn, hk]) hok.2.2
  | @request answer e sim n hm hn hk =>
      by_cases hready : s.app.Ready
      · have hmove : (Label.event answer).move s = .request e.time n.toNat := by
          simp only [Label.move_event answer hn, Application.move, hk, hready, if_true]
        rw [hmove, Pacer.step, if_pos (h.canWait hm hn), h.pacer_request hm hn hk hready]
      · have hmove : (Label.event answer).move s = .wait e.time := by
          simp only [Label.move_event answer hn, Application.move, hk, hready, if_false]
        have hdropped : (s.app.advance e sim).processSendRequest n = s.app.advance e sim :=
          if_neg hready
        rw [hmove, Pacer.step, if_pos (h.canWait hm hn), hdropped,
          h.pacer_advance hm hn (by simp [hk]) (by simp)]
  | @sendPacket answer e sim hm hn hk =>
      have hdue : (s.pacer A).due = some e.time := by
        rw [State.pacer_loop (by simp [hm])]
        exact h.app.tracks.due_eq_some_iff.mpr
          ⟨e, (Simulator.mem_of_next? hn).mpr (Or.inl rfl), hk, rfl⟩
      have hidle := h.app.idle_of_next hn hk
      have hmove : (Label.event answer).move s = .tick := by
        simp only [Label.move_event answer hn, Application.move, hk]
      rw [hmove, Pacer.step, hdue, Option.map_some]
      refine congrArg some ?_
      refine h.app.sendPacket_cases hn hk _ ?_ ?_ ?_
      · exact State.fire_attempt hm hn hk
      · intro hcount
        have hattempt : (s.app.advance e sim).attempt.Idle := hidle
        rw [hattempt.pacer_reschedule hcount]
        exact State.fire_attempt hm hn hk hcount
      · exact h.fire_closing hm hn hk
  | @external answer e sim hm hn hk =>
      have hmove : (Label.event answer).move s = .wait e.time := by
        simp only [Label.move_event answer hn, Application.move, hk]
      rw [hmove, Pacer.step, if_pos (h.canWait hm hn),
        h.pacer_advance hm hn (by simp [hk]) (by simp)]

/-- The runs between `StartApplication` and `StopApplication` are runs of the sender. -/
theorem Occurs.refines (h : Occurs A always s) {ok : State → Label → Prop}
    (ok' : Pacer ℤ → Move ℤ → Prop) (hundisturbed : ∀ s l, ok s l → Undisturbed s l)
    (hmove : ∀ s l, ok s l → ok' (s.pacer A) (l.move s))
    (hr : Reach (TriggeredSend.step A) ok s s') :
    Reach (Pacer.step (A.packetInterval : ℤ)) ok' (s.pacer A) (s'.pacer A) := by
  refine hr.simulation (State.pacer A) (fun s l => l.move s) fun t l t' ht hok hstep => ?_
  exact ⟨hmove t l hok, (h.trans ht).armed.refines (hundisturbed t l hok) hstep⟩

/-- The pacing law: in every stretch of a run in which the application is neither started, stopped
nor disposed of, any two consecutive attempts are an interval apart; and where no `SendPacket` is
pending or running, an interval has passed since the last attempt. -/
theorem attempts_spaced (h : Occurs A always s)
    (hr : Reach (step A) Undisturbed s s') :
    ∃ since, s'.app.attempts = s.app.attempts ++ since ∧
      since.IsChain (fun t u : ℤ => t + A.packetInterval ≤ u) ∧
      (s'.main ≠ .trace → s'.app.Idle →
        ∀ t ∈ since.getLast?, t + A.packetInterval ≤ s'.app.sim.now) := by
  obtain ⟨since, hattempts, hchain, hlast⟩ :=
    Pacer.spaced_of_reach (h.refines always (fun _ _ => id) (fun _ _ _ => trivial) hr)
  refine ⟨since, hattempts, hchain, fun hm hidle t ht => ?_⟩
  have hle := hlast t ht
  rw [State.pacer_loop hm, hidle.due_eq_none] at hle
  exact hle

/-- The steps from the start of the application on that send the two packets of `Label.sendRun`, wait
out the interval after the second one, and send a third one. -/
def Label.spacedRun : List Label :=
  [.event .sent, .user (.send 2), .resume, .event .sent, .event .sent, .resume, .event .sent,
    .user (.send 1), .resume, .event .sent, .event .sent, .resume]

/-- The third packet was requested in the trace callback of the second one. -/
theorem attempts_spaced_spacedRun :
    ∃ s s', Occurs exampleClient always s ∧ Reach (step exampleClient) Undisturbed s s' ∧
      s'.app.attempts = [3000000000, 3200000000, 3400000000] ∧
      ∃ since, s'.app.attempts = s.app.attempts ++ since ∧
        since.IsChain (fun t u : ℤ => t + exampleClient.packetInterval ≤ u) := by
  have hrun : (State.after exampleClient always (Label.sendRun.take 4)).any (fun s =>
      (run (guarded Undisturbed (step exampleClient)) s Label.spacedRun).any fun s' =>
        s'.app.attempts = [3000000000, 3200000000, 3400000000]) = true := by decide +kernel
  obtain ⟨s, hs, hp⟩ := (Option.any_eq_true _ _).mp hrun
  obtain ⟨s', hs', hattempts⟩ := (Option.any_eq_true _ _).mp hp
  have hreach : Reach (step exampleClient) Undisturbed s s' := .of_run hs'
  obtain ⟨since, hsince, hchain, -⟩ := attempts_spaced (.of_after hs) hreach
  exact ⟨s, s', .of_after hs, hreach, of_decide_eq_true hattempts, since, hsince, hchain⟩

end Ns3Cosim.TriggeredSend
