import Mathlib.Data.Prod.Lex
import Ns3Cosim.Execution.Leads
import Ns3Cosim.SimpleGateway.Blocked

/-!
# Both programs can always come to their end

The server has a bounded number of steps, the reader thread uses up the bytes of
the server, and the main thread uses up the events of the reader. In this order
the three measures bring a run to its end from every state that the two programs
can get into: there is neither a deadlock nor a loop without a way out.
-/

namespace Ns3Cosim.SimpleGateway

open Words Gateway Mobility Execution

variable {O : Options} {numberOfNodes : UInt16} {ok : State → Label → Prop} {s s' : State}
  {l : Label}

/-- The steps that both programs take by themselves, with every `recv` of the server returning as
much as it can. -/
def Prompt (s : State) : Label → Prop
  | .fail | .reset | .receive _ | .network _ => False
  | .server n _ => n = min responseSize s.inFlight.length
  | .reader _ | .callback | .resume | .drain | .event | .join | .destroy => True

theorem Prompt.undisturbed (h : Prompt s l) : Undisturbed s l := by
  cases l with
  | fail | reset => exact h
  | server | reader | callback | receive | network | resume | drain | event | join | destroy =>
      exact trivial

section Server

/-- How many steps the server is away from its end at most. -/
def Server.remaining (O : Options) (s : Server) : ℕ :=
  match s.pc with
  | .loop => 3 * (O.iterations.toNat - s.i) + 2
  | .recv => 3 * (O.iterations.toNat - s.i) + 1
  | .received => 3 * (O.iterations.toNat - s.i)
  | .finish => 1
  | .exited | .failed _ => 0

theorem Server.Step.remaining_lt {broken : Bool} {result : Option Recv} {server server' : Server}
    {effect : ServerEffect} (horderly : server.Orderly O)
    (hstep : server.Step O broken result server' effect) :
    server'.remaining O < server.remaining O := by
  have hphase := horderly.phase
  unfold Server.Phase at hphase
  cases hstep with
  | ask hpc | askFailed hpc | last hpc | answered hpc | recvFailed hpc | exit hpc =>
      simp only [Server.remaining, hpc]
      omega
  | hungUp hpc | terminate hpc | terminateFailed hpc | move hpc =>
      simp only [hpc] at hphase
      have hlt := hphase.1
      simp only [Server.remaining, hpc]
      omega

/-- On a connection that the server has not closed it can send. -/
theorem State.exists_deliver (hintact : s.gateway.conn.failed = false)
    (hopen : s.gateway.conn.closed = false) (effect : ServerEffect) :
    ∃ conn, s.deliver effect = some conn := by
  unfold State.deliver
  cases effect with
  | silent => exact ⟨_, rfl⟩
  | send bytes =>
      simp only [ServerEffect.action, Connection.act, hintact, hopen]
      split <;> exact ⟨_, rfl⟩
  | close =>
      simp only [ServerEffect.action, Connection.act]
      split <;> exact ⟨_, rfl⟩

/-- A server that has a step comes nearer to its end with it. -/
theorem Sound.serve (hs : Sound O numberOfNodes s) (h : Occurs O numberOfNodes ok s)
    (hserves : s.Serves) : ∃ l s', Prompt s l ∧ step O s l = some s' ∧
      s'.server.remaining O < s.server.remaining O := by
  obtain ⟨hexited, hrecv⟩ := hserves
  have hopen : s.gateway.conn.closed = false := by
    apply Bool.eq_false_iff.mpr
    intro hclosed
    obtain hpc | ⟨e, he⟩ := h.delivered.closed hclosed
    · exact hexited hpc
    · exact hs.serving e he
  let n := min responseSize s.inFlight.length
  obtain ⟨server, effect, hstep⟩ : ∃ server effect, s.server.step O s.gateway.conn.failed (s.recv n)
      (fun _ => (0, 0)) = some (server, effect) := by
    unfold Server.step
    split
    · split <;> exact ⟨_, _, rfl⟩
    · rename_i hpc
      have hpos := List.length_pos_iff.mpr (hrecv hpc)
      have hsize : 0 < responseSize := by decide
      have hn : ¬ n = 0 := by omega
      have hle : n ≤ responseSize ∧ n ≤ s.inFlight.length := by omega
      have hresult : s.recv n = some (.bytes (s.inFlight.take n)) := by
        simp only [State.recv, hn, hle, and_self, if_true, if_false]
      rw [hresult]
      exact ⟨_, _, rfl⟩
    · split <;> exact ⟨_, _, rfl⟩
    · exact ⟨_, _, rfl⟩
    · rename_i hpc
      exact absurd hpc hexited
    · rename_i e hpc
      exact absurd hpc (hs.serving e)
  obtain ⟨conn, hconn⟩ := State.exists_deliver hs.intact hopen effect
  refine ⟨.server n fun _ => (0, 0), { s with server := server, gateway.conn := conn }, rfl, ?_, ?_⟩
  · simp only [SimpleGateway.step, hstep, Option.bind_some, hconn, Option.map_some]
  · exact (Server.Step.of_step hstep).remaining_lt h.delivered.orderly

end Server

section Main

/-- A step of the gateway program, while it runs. -/
theorem State.main_of_alive (halive : s.Alive) {l : Gateway.Label} {gateway : Gateway.State}
    (hact : s.gateway.act defaultDelimiters l = some gateway) :
    s.main l = some { s with gateway := gateway } := by
  simp only [State.main, halive.2, if_true, Gateway.step, halive.1, hact, Option.map_some]

/-- What an event is worth in a program with `n` vehicles: a callback has two actions for each
vehicle and its response. -/
def cost (n : ℕ) : Kind → ℕ
  | .waitForNextUpdate => 0
  | .forwardUp => 6 * n + 6
  | .stop | .unrelated => 2
  | .doInitialize _ | .handleUpdate _ => 6 * n + 5

/-- What the main thread has to do where it is. -/
def mainCost : MainPc → ℕ
  | .user _ => 3
  | .drain | .loop => 2
  | .joining destroying => if destroying then 1 else 3
  | .destroyed => 0

/-- The work that is left for the main thread. -/
def State.pending (n : ℕ) (s : State) : ℕ :=
  s.gateway.core.sim.work (cost n) + (s.gateway.handoff.map fun kind => cost n kind + 1).sum +
    3 * s.script.length + mainCost s.gateway.main

/-- Whether the main thread is on its way to insert what has been handed over. -/
def State.turn (s : State) : ℕ :=
  match s.gateway.main with
  | .drain => 1
  | .loop => if s.gateway.handoff = [] then 0 else 2
  | .user _ | .joining _ | .destroyed => 0

/-- How far the main thread is from having nothing to do. -/
def State.mainRank (n : ℕ) (s : State) : ℕ ×ₗ ℕ ×ₗ ℕ :=
  toLex (s.pending n, toLex (s.gateway.core.waits, s.turn))

theorem State.mainRank_lt {n : ℕ} (h : s'.pending n < s.pending n) :
    s'.mainRank n < s.mainRank n := Prod.Lex.toLex_lt_toLex.mpr (Or.inl h)

/-- With the same work left, what counts are the waits at the front, and then the turn. -/
theorem State.mainRank_lt_of_le {n : ℕ} (h : s'.pending n ≤ s.pending n)
    (hwaits : s'.gateway.core.waits ≤ s.gateway.core.waits)
    (hlt : s'.gateway.core.waits < s.gateway.core.waits ∨ s'.turn < s.turn) :
    s'.mainRank n < s.mainRank n := by
  apply Prod.Lex.toLex_lt_toLex'.mpr
  refine ⟨h, fun _ => Prod.Lex.toLex_lt_toLex'.mpr ⟨hwaits, fun heq => ?_⟩⟩
  exact hlt.resolve_left heq.not_lt

/-- A step of the main thread brings it forward and leaves the server and the reader alone. -/
def Forward (O : Options) (n : ℕ) (s : State) : Prop :=
  ∃ l s', Prompt s l ∧ step O s l = some s' ∧ s'.server = s.server ∧
    s'.gateway.reading = s.gateway.reading ∧ s'.mainRank n < s.mainRank n

theorem length_settings_le (i : ℕ) (vehicles : List Vehicle) (ds : List VehicleData) :
    (settings i vehicles ds).length ≤ 2 * vehicles.length := by
  induction vehicles generalizing i ds with
  | nil => simp [settings]
  | cons vehicle rest ih =>
      cases ds with
      | nil => simp [settings]
      | cons d ds =>
          have hrest := ih (i + 1) ds
          have hfirst : (vehicle.actions i d).length ≤ 2 := by
            unfold Vehicle.actions
            split <;> simp
          rw [settings, List.length_append, List.length_cons]
          omega

/-- A step of the gateway program alone. -/
theorem Forward.of_act (halive : s.Alive) {n : ℕ} {l : Label} {l' : Gateway.Label}
    {gateway : Gateway.State} (hprompt : Prompt s l) (hstep : step O s l = s.main l')
    (hact : s.gateway.act defaultDelimiters l' = some gateway)
    (hreading : gateway.reading = s.gateway.reading)
    (hlt : State.mainRank n { s with gateway := gateway } < s.mainRank n) : Forward O n s :=
  ⟨l, { s with gateway := gateway }, hprompt, hstep.trans (State.main_of_alive halive hact), rfl,
    hreading, hlt⟩

/-- One action of a callback. -/
theorem forward_callback (halive : s.Alive) (n : ℕ) {b : Bool} (hm : s.gateway.main = .user b)
    {action : UserAction} {script : List UserAction}
    (hscript : s.script = action :: script) : Forward O n s := by
  have hwork : (s.gateway.core.user defaultDelimiters (answer s.gateway.conn action)).sim.work
      (cost n) ≤ s.gateway.core.sim.work (cost n) + 2 := Core.work_user_le (cost n) rfl _ _
  generalize hcore : s.gateway.core.user defaultDelimiters (answer s.gateway.conn action) = core
    at hwork
  have hact : s.gateway.act defaultDelimiters (.user (answer s.gateway.conn action)) =
      some { s.gateway with core := core } := by
    simp only [State.act, hm, hcore]
  have hmain := State.main_of_alive (s := { s with script := script }) halive hact
  refine ⟨.callback, { s with script := script, gateway.core := core }, trivial, ?_, rfl, rfl,
    State.mainRank_lt ?_⟩
  · simp only [SimpleGateway.step, hscript]
    exact hmain
  · simp only [State.pending, hscript, List.length_cons]
    omega

/-- The end of user code. -/
theorem forward_resume (halive : s.Alive) (n : ℕ) {b : Bool} (hm : s.gateway.main = .user b)
    (hscript : s.script = []) : Forward O n s := by
  have hact : s.gateway.act defaultDelimiters .resume = some { s.gateway with main := .drain } := by
    simp only [State.act, hm]
  refine Forward.of_act (l := .resume) halive trivial ?_ hact rfl (State.mainRank_lt ?_)
  · simp only [SimpleGateway.step, hscript, if_true]
  · have huser : mainCost s.gateway.main = 3 := by rw [hm]; rfl
    have hdrain : mainCost .drain = 2 := rfl
    simp only [State.pending, huser, hdrain]
    omega

/-- An event that was handed over is inserted, or there is none left. -/
theorem forward_drain (halive : s.Alive) (n : ℕ) (hm : s.gateway.main = .drain) : Forward O n s := by
  cases hh : s.gateway.handoff with
  | cons kind kinds =>
      have hact : s.gateway.act defaultDelimiters .drain =
          some { s.gateway with core.sim := s.gateway.core.sim.scheduleNow kind,
                                handoff := kinds } := by
        simp only [State.act, hm, if_true, hh]
      refine Forward.of_act (l := .drain) halive trivial rfl hact rfl (State.mainRank_lt ?_)
      have hwork := Simulator.work_scheduleNow (cost n) s.gateway.core.sim kind
      simp only [State.pending, hwork, hh, List.map_cons, List.sum_cons]
      omega
  | nil =>
      have hact : s.gateway.act defaultDelimiters .drain = some { s.gateway with main := .loop } := by
        simp only [State.act, hm, if_true, hh]
      refine Forward.of_act (l := .drain) halive trivial rfl hact rfl ?_
      refine State.mainRank_lt_of_le ?_ le_rfl (Or.inr ?_)
      · simp only [State.pending, hm, mainCost, le_refl]
      · simp only [State.turn, hm, hh, if_true]
        exact Nat.zero_lt_one

/-- The end of `join`. -/
theorem forward_join (halive : s.Alive) (n : ℕ) {destroying : Bool}
    (hm : s.gateway.main = .joining destroying) (hx : s.gateway.reader.pc = .exited) :
    Forward O n s := by
  have hact : s.gateway.act defaultDelimiters .join = some (s.gateway.joined destroying) := by
    simp only [State.act, hm, hx, if_true]
  refine Forward.of_act (l := .join) halive trivial rfl hact rfl (State.mainRank_lt ?_)
  have hwork : (s.gateway.joined destroying).core.sim.work (cost n) ≤
      s.gateway.core.sim.work (cost n) := Core.work_cancelEvents_le (cost n) s.gateway.core.join.close
  have hmain : mainCost (s.gateway.joined destroying).main < mainCost s.gateway.main := by
    have hafter : (s.gateway.joined destroying).main = .afterStop destroying := rfl
    rw [hm, hafter]
    cases destroying <;> decide
  have hhandoff : (s.gateway.joined destroying).handoff = s.gateway.handoff := rfl
  simp only [State.pending, hhandoff]
  omega

/-- The call of `Simulator::Destroy`. -/
theorem forward_destroy (halive : s.Alive) (n : ℕ) (hm : s.gateway.main = .loop)
    (hend : s.gateway.core.stopped = true ∨ s.gateway.core.sim.queue = []) : Forward O n s := by
  have hact : s.gateway.act defaultDelimiters .destroy = some s.gateway.destroy := by
    simp only [State.act, hm, hend, and_self, if_true]
  have hframe := s.gateway.destroy_frame
  have hreading : s.gateway.destroy.reading = s.gateway.reading := by
    simp only [Gateway.State.reading, hframe.reader, hframe.conn]
  refine Forward.of_act (l := .destroy) halive trivial rfl hact hreading (State.mainRank_lt ?_)
  obtain ⟨hwork, hhandoff, hmain⟩ : s.gateway.destroy.core.sim.work (cost n) ≤
      s.gateway.core.sim.work (cost n) ∧ s.gateway.destroy.handoff = s.gateway.handoff ∧
        mainCost s.gateway.destroy.main ≤ 1 := by
    refine State.destroy_cases (P := fun g => g.core.sim.work (cost n) ≤
      s.gateway.core.sim.work (cost n) ∧ g.handoff = s.gateway.handoff ∧ mainCost g.main ≤ 1)
      s.gateway ?_ ?_
    · intro _
      obtain ⟨hwork, hhandoff, hstopped⟩ := State.stop_progress (cost n)
        { s.gateway with core.eventDestroy := false } true
      refine ⟨hwork, hhandoff, ?_⟩
      obtain hstopped | hstopped := hstopped
      · rw [hstopped]
        exact le_rfl
      · rw [hstopped]
        exact Nat.zero_le _
    · exact fun _ => ⟨le_rfl, rfl, Nat.zero_le _⟩
  have hloop : mainCost s.gateway.main = 2 := by rw [hm]; rfl
  simp only [State.pending, hhandoff]
  omega

/-- The gateway after an event, before the code of the derived class. -/
abbrev State.executed (s : State) (sim : Simulator Kind) (kind : Kind) : Gateway.State :=
  { s.gateway with core := s.gateway.core.advance sim }.execute defaultDelimiters kind

/-- An event is executed, and the code of the derived class that it calls. -/
theorem step_event (halive : s.Alive) (hm : s.gateway.main = .loop)
    (hs : s.gateway.core.stopped = false) {e : Event Kind} {sim : Simulator Kind}
    (hn : s.gateway.core.sim.next? = some (e, sim)) :
    step O s .event =
      some (State.call { s with gateway := s.executed sim e.kind } e.kind) := by
  have hact : s.gateway.act defaultDelimiters .event = some (s.executed sim e.kind) := by
    rw [State.act, if_pos ⟨hm, hs⟩, hn, Option.map_some]
  simp only [SimpleGateway.step, hn, Option.bind_some, State.main_of_alive halive hact,
    Option.map_some]

/-- An event that schedules less than it was worth. -/
theorem forward_event (halive : s.Alive) {n : ℕ} (hm : s.gateway.main = .loop)
    (hs : s.gateway.core.stopped = false) {e : Event Kind} {sim : Simulator Kind}
    (hn : s.gateway.core.sim.next? = some (e, sim)) {kind : Kind} (hk : e.kind = kind)
    (hreading : (s.executed sim kind).reading = s.gateway.reading)
    (hhandoff : (s.executed sim kind).handoff = s.gateway.handoff)
    (hlt : (s.executed sim kind).core.sim.work (cost n) +
        3 * (State.call { s with gateway := s.executed sim kind } kind).script.length +
          mainCost (s.executed sim kind).main <
      sim.work (cost n) + cost n kind + 3 * s.script.length + 2) : Forward O n s := by
  have hparties := State.call_sameParties { s with gateway := s.executed sim kind } kind
  have hstep := step_event (O := O) halive hm hs hn
  rw [hk] at hstep
  refine ⟨.event, _, trivial, hstep, hparties.server, ?_, State.mainRank_lt ?_⟩
  · rw [hparties.gateway]
    exact hreading
  · have hloop : mainCost s.gateway.main = 2 := by rw [hm]; rfl
    have hwork := Simulator.work_next (cost n) hn
    rw [hk] at hwork
    simp only [State.pending, hparties.gateway, hhandoff, hloop, hwork]
    omega

/-- A callback begins with at most two actions for each vehicle and a response. -/
theorem Sound.length_script (hs : Sound O numberOfNodes s) (h : Occurs O numberOfNodes ok s)
    (hfits : O.Fits) (hsize : numberOfNodes.toNat ≤ O.numberOfNodes.toNat) {e : Event Kind}
    {sim : Simulator Kind} (hn : s.gateway.core.sim.next? = some (e, sim)) {callback : Callback}
    (hcb : callback? e = some callback) (gateway : Gateway.State) :
    (State.begin { s with gateway := gateway }
      (doUpdate s.vehicles callback.data)).script.length ≤ 2 * numberOfNodes.toNat + 1 := by
  have hlog : s.gateway.core.log ++ [callback] <+: s.server.rounds.mapIdx (roundCallback O) := by
    have hcallbacks := h.callbacks_isPrefix hfits
    rw [pendingCallbacks_next hn, hcb, Option.toList_some, ← List.append_assoc] at hcallbacks
    exact (List.prefix_append _ _).trans hcallbacks
  obtain ⟨hk, -, hupdate⟩ := hs.update h hsize hlog
  have hlength := length_settings_le 0 s.vehicles
    (roundData s.server.rounds[s.gateway.core.log.length])
  rw [hs.followed.length] at hlength
  rw [hupdate]
  simp only [State.begin, List.length_append, List.length_singleton]
  exact Nat.succ_le_succ hlength

/-- A callback is worth more than its actions. -/
theorem Sound.forward_call (hs : Sound O numberOfNodes s) (h : Occurs O numberOfNodes ok s)
    (hfits : O.Fits) (hsize : numberOfNodes.toNat ≤ O.numberOfNodes.toNat)
    (hm : s.gateway.main = .loop) (hstopped : s.gateway.core.stopped = false) {e : Event Kind}
    {sim : Simulator Kind} (hn : s.gateway.core.sim.next? = some (e, sim)) {data : List Str}
    (hk : e.kind = .doInitialize data ∨ e.kind = .handleUpdate data) :
    Forward O numberOfNodes.toNat s := by
  obtain hk | hk := hk
  · have hcb : callback? e = some ⟨.doInitialize, data, e.time⟩ := by simp only [callback?, hk]
    have hlength :=
      hs.length_script h hfits hsize hn hcb (s.executed sim (.doInitialize data))
    refine forward_event hs.alive hm hstopped hn hk rfl rfl ?_
    simp only [State.call, doInitialize, State.execute, Core.doInitialize, Core.advance, cost,
      mainCost] at hlength ⊢
    omega
  · have hcb : callback? e = some ⟨.doUpdate, data, e.time⟩ := by simp only [callback?, hk]
    have hlength :=
      hs.length_script h hfits hsize hn hcb (s.executed sim (.handleUpdate data))
    have hwork := Core.work_handleUpdate_le (cost numberOfNodes.toNat) rfl
      (s.gateway.core.advance sim) data
    refine forward_event hs.alive hm hstopped hn hk rfl rfl ?_
    simp only [State.call, State.execute, cost, mainCost, Core.advance] at hlength hwork ⊢
    omega

/-- A wait that goes behind another event, or that hands the turn to what has been handed over. -/
theorem forward_wait (halive : s.Alive) (hh : s.gateway.core.Handled) (n : ℕ)
    (hm : s.gateway.main = .loop) (hs : s.gateway.core.stopped = false) {e : Event Kind}
    {sim : Simulator Kind} (hn : s.gateway.core.sim.next? = some (e, sim))
    (hk : e.kind = .waitForNextUpdate)
    (hready : s.gateway.handoff ≠ [] ∨ s.gateway.core.state = .stopping ∨
      ∃ a ∈ s.gateway.core.sim.queue,
        a.kind ≠ .waitForNextUpdate ∧ a.time = s.gateway.core.sim.now) : Forward O n s := by
  have hstep := step_event (O := O) halive hm hs hn
  rw [hk] at hstep
  refine ⟨.event, _, trivial, hstep, rfl, rfl, State.mainRank_lt_of_le ?_ ?_ ?_⟩
  · have hloop : mainCost s.gateway.main = 2 := by rw [hm]; rfl
    have hdrain : mainCost .drain = 2 := rfl
    have hwork := Simulator.work_next (cost n) hn
    have hle : (s.gateway.core.advance sim).waitForNextUpdate.sim.work (cost n) ≤
        sim.work (cost n) := Core.work_waitForNextUpdate_le (cost n) rfl (s.gateway.core.advance sim)
    simp only [State.pending, State.call, State.execute, hloop, hdrain, hwork]
    omega
  · exact Core.waits_waitForNextUpdate hh hn hk
  · obtain hhandoff | hdue := hready
    · right
      simp only [State.turn, State.call, State.execute, hm, hhandoff, if_false]
      exact Nat.one_lt_two
    · exact Or.inl (Core.waits_waitForNextUpdate_lt hh hn hk hdue)

/-- Whenever the main thread can go on, a step brings it forward. -/
theorem Sound.forward (hs : Sound O numberOfNodes s) (h : Occurs O numberOfNodes ok s)
    (hfits : O.Fits) (hsize : numberOfNodes.toNat ≤ O.numberOfNodes.toNat) (hgoes : s.Goes) :
    Forward O numberOfNodes.toNat s := by
  have halive := hs.alive
  have hh := h.gateway.handoff.handled
  unfold State.Goes at hgoes
  cases hm : s.gateway.main with
  | user b =>
      cases hscript : s.script with
      | nil => exact forward_resume halive _ hm hscript
      | cons action script => exact forward_callback halive _ hm hscript
  | drain => exact forward_drain halive _ hm
  | joining destroying =>
      simp only [hm] at hgoes
      exact forward_join halive _ hm hgoes
  | destroyed =>
      simp only [hm] at hgoes
  | loop =>
      simp only [hm] at hgoes
      have hscript : s.script = [] := hs.script_eq_nil (by simp [hm])
      by_cases hend : s.gateway.core.stopped = true ∨ s.gateway.core.sim.queue = []
      · exact forward_destroy halive _ hm hend
      · obtain ⟨hstopped, hqueue⟩ := not_or.mp hend
        have hstopped := Bool.eq_false_iff.mpr hstopped
        obtain ⟨⟨e, sim⟩, hn⟩ := Simulator.exists_next hqueue
        cases hk : e.kind with
        | waitForNextUpdate =>
            refine forward_wait halive hh _ hm hstopped hn hk ?_
            obtain hruns | hruns | hruns | hruns | hruns | hruns := hgoes
            · exact absurd (Or.inl hruns) hend
            · exact absurd hruns hqueue
            · exact Or.inl hruns
            · exact Or.inr (Or.inl hruns)
            · exact Or.inr (Or.inr hruns)
            · exact absurd hk (hruns e ((Simulator.mem_of_next? hn).mpr (Or.inl rfl)))
        | forwardUp =>
            have hwork := Core.work_forwardUp_le (D := defaultDelimiters) (cost numberOfNodes.toNat)
              (w := 6 * numberOfNodes.toNat + 5) (fun _ => le_rfl) (fun _ => le_rfl)
              (s.gateway.core.advance sim)
            refine forward_event halive hm hstopped hn hk rfl rfl ?_
            simp only [State.call, State.execute, cost, mainCost, Core.advance] at hwork ⊢
            omega
        | stop =>
            obtain ⟨hwork, hhandoff, hmain⟩ := State.stop_progress (cost numberOfNodes.toNat)
              { s.gateway with core := s.gateway.core.advance sim } false
            have hframe := State.stop_frame
              { s.gateway with core := s.gateway.core.advance sim } false
            have hreading : (s.executed sim .stop).reading = s.gateway.reading := by
              simp only [State.execute, Gateway.State.reading, hframe.reader, hframe.conn]
            have hcost : mainCost (s.executed sim .stop).main ≤ 3 := by
              obtain hmain | hmain := hmain
              · exact (congrArg mainCost hmain).le
              · exact (congrArg mainCost hmain).le.trans (Nat.le_succ 2)
            have hstop : cost numberOfNodes.toNat .stop = 2 := rfl
            refine forward_event halive hm hstopped hn hk hreading hhandoff ?_
            simp only [State.call, State.execute, Core.advance] at hwork hcost ⊢
            omega
        | doInitialize data => exact hs.forward_call h hfits hsize hm hstopped hn (Or.inl hk)
        | handleUpdate data => exact hs.forward_call h hfits hsize hm hstopped hn (Or.inr hk)
        | unrelated =>
            refine forward_event halive hm hstopped hn hk rfl rfl ?_
            simp only [State.call, State.execute, cost, mainCost, Core.advance]
            omega

end Main

section Ends

/-- A reader that can go on comes nearer to the end of its bytes with a step. -/
theorem Sound.read (hs : Sound O numberOfNodes s) (hreads : s.gateway.Reads) :
    ∃ l s', Prompt s l ∧ step O s l = some s' ∧ s'.server = s.server ∧
      s'.gateway.reading < s.gateway.reading := by
  obtain ⟨n, gateway, hstep, hlt⟩ :=
    hreads.exists_step (D := defaultDelimiters) hs.alive.1 hs.intact
  refine ⟨.reader n, { s with gateway := gateway }, trivial, ?_, rfl, hlt⟩
  simp only [SimpleGateway.step, State.main, hs.alive.2, if_true, hstep, Option.map_some]

/-- How far both programs are from their end. -/
def State.rank (O : Options) (n : ℕ) (s : State) : ℕ ×ₗ ℕ ×ₗ ℕ ×ₗ ℕ ×ₗ ℕ :=
  toLex (s.server.remaining O, toLex (s.gateway.reading, s.mainRank n))

/-- Both programs come nearer to their end, until they have ended. -/
theorem Occurs.exists_step (h : Occurs O numberOfNodes Undisturbed s) (hfits : O.Fits)
    (hsize : numberOfNodes.toNat ≤ O.numberOfNodes.toNat) : s.Ended ∨ ∃ l s', Prompt s l ∧
      step O s l = some s' ∧ s'.rank O numberOfNodes.toNat < s.rank O numberOfNodes.toNat := by
  have hs := h.sound hfits hsize
  by_cases hserves : s.Serves
  · obtain ⟨l, s', hprompt, hstep, hlt⟩ := hs.serve h hserves
    exact Or.inr ⟨l, s', hprompt, hstep, Prod.Lex.toLex_lt_toLex.mpr (Or.inl hlt)⟩
  by_cases hreads : s.gateway.Reads
  · obtain ⟨l, s', hprompt, hstep, hserver, hlt⟩ := hs.read hreads
    refine Or.inr ⟨l, s', hprompt, hstep, Prod.Lex.toLex_lt_toLex.mpr (Or.inr ⟨?_, ?_⟩)⟩
    · rw [hserver]
    · exact Prod.Lex.toLex_lt_toLex.mpr (Or.inl hlt)
  by_cases hgoes : s.Goes
  · obtain ⟨l, s', hprompt, hstep, hserver, hreading, hlt⟩ := hs.forward h hfits hsize hgoes
    refine Or.inr ⟨l, s', hprompt, hstep, Prod.Lex.toLex_lt_toLex.mpr (Or.inr ⟨?_, ?_⟩)⟩
    · rw [hserver]
    · exact Prod.Lex.toLex_lt_toLex.mpr (Or.inr ⟨hreading, hlt⟩)
  · exact Or.inl (h.ended_of_stuck hfits hsize hserves hreads hgoes)

/-- The callback has come to its response. -/
def State.Sends (s : State) : Prop := ∃ sent script, s.script = .sendResponse sent :: script

/-- Both programs have ended, the gateway program by itself or by the reset. -/
def State.Finished (s : State) : Prop :=
  s.server.pc = .exited ∧ (s.gateway.main = .destroyed ∨ s.aborted = some .brokenPipe)

/-- A response that is answered with a reset ends the gateway program. -/
theorem Sound.reset (hs : Sound O numberOfNodes s) (h : Occurs O numberOfNodes ok s)
    (hsends : s.Sends) (hb : s.PipeBroken) :
    step O s .reset = some { s with aborted := some .brokenPipe } ∧
      State.Finished { s with aborted := some .brokenPipe } := by
  obtain ⟨sent, script, hscript⟩ := hsends
  have hne : s.script ≠ [] := by simp [hscript]
  have hguard : s.Alive ∧ s.gateway.main = .user true ∧ s.gateway.core.state = .connected ∧
      s.PipeBroken := ⟨hs.alive, hs.inCallback hne, hs.connected h hne, hb⟩
  refine ⟨?_, (hs.exited_of_pipeBroken h hb).1, Or.inr rfl⟩
  simp only [SimpleGateway.step, hscript, hguard, and_self, if_true]

end Ends

section Buffer

theorem length_countValue_le (count : UInt16) : (countValue count).length ≤ 5 := by
  have hlt : count.toNat < 10 ^ 5 := (UInt16.toNat_lt count).trans (by decide)
  exact (Nat.length_toDigits_le_iff (by decide) (by decide)).mpr hlt

/-- A count has five digits at most, and two values have a blank between them. -/
theorem length_response_le (counts : List UInt16) :
    (response counts).length ≤ 6 * counts.length + 2 := by
  have hvalues : ∀ (i : ℕ) (text : Str) (counts : List UInt16),
      (appendValues defaultDelimiters i text (counts.map countValue)).length ≤
        text.length + 6 * counts.length := by
    intro i text counts
    induction counts generalizing i text with
    | nil => simp [appendValues]
    | cons count rest ih =>
        have hcount := length_countValue_le count
        refine (ih (i + 1) _).trans ?_
        split <;>
          simp only [List.length_append, List.length_cons, List.length_nil, defaultDelimiters] <;>
          omega
  rw [response, responseMessage, List.length_append]
  exact Nat.add_le_add_right ((hvalues 0 [] counts).trans (by simp)) 2

/-- Every callback finds one count for each vehicle. -/
theorem Occurs.length_of_counts (h : Occurs O numberOfNodes Undisturbed s) (hfits : O.Fits)
    (hsize : numberOfNodes.toNat ≤ O.numberOfNodes.toNat) :
    ∀ found ∈ s.counts, found.length = numberOfNodes.toNat := by
  obtain ⟨sim, hsim, ht, hr⟩ := h
  refine hr.invariant (P := fun s => ∀ found ∈ s.counts, found.length = numberOfNodes.toNat)
    (fun found hfound => by cases hfound) fun s l s' hr hp hok hstep => ?_
  have h : Occurs O numberOfNodes Undisturbed s := ⟨sim, hsim, ht, hr⟩
  have hnext := h.next hok hstep
  have hs := h.sound hfits hsize
  cases Step.of_step hstep with
  | server | plain | callback | reset | receive | lost => exact hp
  | event _ hn hg =>
      obtain heq | ⟨vehicles, actions, -, heq⟩ := hs.event_cases h hfits hsize hn hg hnext
      · rw [heq]
        exact hp
      · rw [heq]
        intro found hfound
        obtain hfound | hfound := List.mem_append.mp hfound
        · exact hp found hfound
        · rw [List.mem_singleton.mp hfound, List.length_map, hs.followed.length]

/-- A server that receives every response whole has at most one response on its way. -/
theorem Occurs.inFlight_le (h : Occurs O numberOfNodes Lossless s) (hfits : O.Fits)
    (hsize : numberOfNodes.toNat ≤ O.numberOfNodes.toNat) :
    s.inFlight.length ≤ 6 * numberOfNodes.toNat + 2 := by
  have hundisturbed := h.mono fun _ _ hl => hl.2
  have htransmitted := (hundisturbed.responds hfits hsize).transmitted_eq
  obtain heq | ⟨reply, heq⟩ := (Exchange.alternates (h.exchange hfits hsize)).outstanding
  · rw [State.inFlight, htransmitted, heq, State.exchange, List.drop_length]
    exact Nat.zero_le _
  · have hmem : reply ∈ s.exchange.answered := by simp [heq]
    obtain ⟨found, hfound, rfl⟩ := List.mem_map.mp hmem
    have hlength := hundisturbed.length_of_counts hfits hsize found (List.mem_of_mem_take hfound)
    have hle := length_response_le found
    rw [hlength] at hle
    rw [State.inFlight, htransmitted, heq, List.flatten_append, List.flatten_singleton]
    exact (congrArg List.length List.drop_left).trans_le hle

/-- A `recv` that returns as much as it can returns a response that fits into the buffer whole. -/
theorem Prompt.whole (h : Prompt s l) (hflight : s.inFlight.length ≤ responseSize) : Whole s l := by
  cases l with
  | server n =>
      have hn : n = min responseSize s.inFlight.length := h
      intro _
      rw [hn, min_eq_right hflight]
  | fail => exact h
  | reader | callback | reset | receive | network | resume | drain | event | join | destroy =>
      exact trivial

/-- Up to 682 vehicles the buffer of the server takes a response whole. So from every state of a run
in lock-step both programs can come to their end in lock-step. -/
theorem lock_step_can_end (h : Occurs O numberOfNodes Whole s) (hfits : O.Fits)
    (hsize : numberOfNodes.toNat ≤ O.numberOfNodes.toNat) (hbuffer : numberOfNodes.toNat ≤ 682) :
    s.inFlight.length ≤ responseSize ∧ Leads (step O) Whole State.Ended s := by
  have hflight : ∀ s, Occurs O numberOfNodes Lossless s → s.inFlight.length ≤ responseSize := by
    intro s h
    have hle := h.inFlight_le hfits hsize
    have hbound : 6 * numberOfNodes.toNat + 2 ≤ responseSize := by
      rw [responseSize]
      omega
    exact hle.trans hbound
  have hlossless := h.lossless hfits hsize
  have hends : Leads (step O) Lossless State.Ended s := by
    refine Leads.of_rank (I := Occurs O numberOfNodes Lossless) (State.rank O numberOfNodes.toNat)
      (fun s hs => ?_) hlossless
    have hundisturbed := hs.mono fun _ _ hl => hl.2
    obtain hended | ⟨l, s', hprompt, hstep, hlt⟩ := hundisturbed.exists_step hfits hsize
    · exact Or.inl hended
    · have hl : Lossless s l := ⟨hprompt.whole (hflight s hs), hprompt.undisturbed⟩
      exact Or.inr ⟨l, s', hl, hstep, Or.inr ⟨hs.next hl hstep, hlt⟩⟩
  obtain ⟨t, hr, hended⟩ := hends
  exact ⟨hflight s hlossless, t, hr.mono fun _ _ hl => hl.1, hended⟩

theorem lock_step_can_end_session :
    ∃ s, State.after sessionOptions Whole 2 Label.firstRound = some s ∧ s.server.pc = .recv ∧
      s.inFlight.length ≤ responseSize ∧ Leads (step sessionOptions) Whole State.Ended s := by
  have hrun : (State.after sessionOptions Whole 2 Label.firstRound).any
      (fun s => s.server.pc = .recv) := by
    decide +kernel
  obtain ⟨s, hs, hp⟩ := (Option.any_eq_true _ _).mp hrun
  have hend := lock_step_can_end (.of_after hs) sessionOptions_fits (by decide) (by decide)
  exact ⟨s, hs, of_decide_eq_true hp, hend⟩

end Buffer

end Ns3Cosim.SimpleGateway
