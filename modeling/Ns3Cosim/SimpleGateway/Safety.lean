import Ns3Cosim.Gateway.Drained
import Ns3Cosim.Gateway.PeerClose
import Ns3Cosim.Gateway.WellFormed
import Ns3Cosim.SimpleGateway.Callbacks
import Ns3Cosim.SimpleGateway.Stream

/-!
# Neither program ends with an error

`Sound` is the invariant of the two programs on a network that does not break
the connection: neither has failed, the vehicles have gone through the messages
handled so far, every callback has answered with the counts it found, and the
gateway stops after the signal to terminate only.

-/

namespace Ns3Cosim.SimpleGateway

open Words Gateway Mobility Execution

variable {O : Options} {numberOfNodes : UInt16} {ok : State → Label → Prop} {s s' : State}
  {l : Label}

/-- The signal to terminate has been sent, or there was nothing to send. -/
def Server.Over (O : Options) (s : Server) : Prop := s.terminated = true ∨ O.iterations.toNat = 0

/-- The invariant. -/
structure Sound (O : Options) (numberOfNodes : UInt16) (s : State) : Prop where
  alive : s.Alive
  intact : s.gateway.conn.failed = false
  serving : ∀ e, s.server.pc ≠ .failed e
  complete : s.server.pc = .finish ∨ s.server.pc = .exited → s.server.Complete O
  inCallback : s.script ≠ [] → s.gateway.main = .user true
  idle : Idle s.gateway
  stopped : s.gateway.core.stopped = true → s.server.terminated = true
  stopping : s.gateway.core.state = .stopping → s.server.Over O
  logged : s.counts.length = s.gateway.core.log.length
  followed : Followed numberOfNodes.toNat (s.server.rounds.take s.gateway.core.log.length) s.vehicles
  answers : Answers numberOfNodes.toNat s.counts s.script s.gateway.core.outbound

section Log

/-- The stream of the server is well formed. -/
theorem stream_wellFormed (hfits : O.Fits) {rounds : List (List ServerNode)}
    (hrounds : rounds.length ≤ O.iterations.toNat) (terminated : Bool) :
    WellFormed defaultDelimiters (stream O rounds terminated) := by
  constructor
  · rw [cut_stream]
    intro body hbody
    obtain hbody | hbody := List.mem_append.mp hbody
    · obtain ⟨i, hi, rfl⟩ := List.mem_mapIdx.mp hbody
      have ht : (timeNow O i).toNat < 2 ^ 31 := by
        rw [timeNow_toNat hfits (by omega)]
        exact hfits i (by omega)
      exact ⟨_, readMessage_roundBody ht _⟩
    · split at hbody
      · rw [List.mem_singleton.mp hbody]
        exact ⟨_, readMessage_terminateBody⟩
      · cases hbody
  · rw [cut_stream, updates_bodies hfits hrounds]
    exact roundUpdates_neverDecreasing hfits hrounds

theorem Occurs.wellFormed (h : Occurs O numberOfNodes ok s) (hfits : O.Fits) :
    WellFormed defaultDelimiters s.gateway.conn.sent :=
  (stream_wellFormed hfits h.delivered.orderly.bounded _).of_isPrefix h.delivered.isPrefix

/-- The callbacks that ran are those of the first messages of the server, at the times since the
first of them. -/
theorem Occurs.log_isPrefix (h : Occurs O numberOfNodes ok s) (hfits : O.Fits) :
    s.gateway.core.log <+: s.server.rounds.mapIdx (roundCallback O) := by
  have hrounds := h.delivered.orderly.bounded
  have hord := (stream_wellFormed hfits hrounds s.server.terminated).ordered
  have hlog := (h.gateway.log_isPrefix le_rfl h.delivered.isPrefix hord).2
  rw [cut_stream, updates_bodies hfits hrounds, expectedLog_roundUpdates hfits hrounds] at hlog
  exact hlog

/-- No event of the simulator ends the gateway program with an error of the gateway. -/
theorem Occurs.fatal_of_event (h : Occurs O numberOfNodes ok s) (hfits : O.Fits)
    {gateway : Gateway.State}
    (hg : Gateway.step defaultDelimiters s.gateway .event = some gateway) :
    gateway.core.fatal = none := by
  refine h.gateway.fatal_eq_none (by simp) hg ?_
  rw [(SameStream.step (by simp) hg).sent]
  exact h.wellFormed hfits

theorem Occurs.log_length_le (h : Occurs O numberOfNodes ok s) (hfits : O.Fits) :
    s.gateway.core.log.length ≤ s.server.rounds.length := by
  have hle := (h.log_isPrefix hfits).length_le
  rwa [List.length_mapIdx] at hle

/-- The latest callback of a log has the data of its message. -/
theorem data_of_log {log : List Callback} {callback : Callback} {rounds : List (List ServerNode)}
    (h : log ++ [callback] <+: rounds.mapIdx (roundCallback O)) :
    ∃ hk : log.length < rounds.length, callback.data = roundFields rounds[log.length] := by
  have hlen := h.length_le
  rw [List.length_append, List.length_singleton, List.length_mapIdx] at hlen
  have hget := h.getElem (i := log.length) (by simp)
  rw [List.getElem_append_right le_rfl, List.getElem_mapIdx] at hget
  simp only [Nat.sub_self, List.getElem_cons_zero] at hget
  exact ⟨hlen, hget ▸ rfl⟩

/-- A callback with no messages to run for does not exist. -/
theorem Occurs.no_callback (h : Occurs O numberOfNodes ok s) (hfits : O.Fits)
    (hrounds : s.server.rounds = []) :
    ∀ e ∈ s.gateway.core.sim.queue, callback? e = none := by
  have hbounded := h.delivered.orderly.bounded
  have hord := (stream_wellFormed hfits hbounded s.server.terminated).ordered
  have haccounted := (h.gateway.log_isPrefix le_rfl h.delivered.isPrefix hord).1
  have hupdates : updates defaultDelimiters s.gateway.core.accepted = [] := by
    have hprefix := updates_isPrefix (D := defaultDelimiters) haccounted.accepted
    rw [cut_stream, updates_bodies hfits hbounded, hrounds] at hprefix
    exact List.prefix_nil.mp hprefix
  have hbook := haccounted.balanced
  rw [hupdates] at hbook
  exact List.filterMap_eq_nil_iff.mp (List.append_eq_nil_iff.mp hbook).2

end Log

section Stop

/-- When a `Stop` event runs, there was nothing to send. -/
theorem Sound.stop_event (hs : Sound O numberOfNodes s) (h : Occurs O numberOfNodes ok s)
    {gateway : Gateway.State}
    (hstep : Gateway.step defaultDelimiters s.gateway .event = some gateway)
    (hx : s.gateway.Executes .event .stop) : s.server.rounds = [] ∧ O.iterations.toNat = 0 := by
  obtain ⟨hclosed, hprocessed⟩ := h.gateway.taken_of_stop hstep hx hs.intact
  have hexited : s.server.pc = .exited := by
    obtain hexited | ⟨e, he⟩ := h.delivered.closed hclosed
    · exact hexited
    · exact absurd he (hs.serving e)
  obtain ⟨hrounds, -, hterminated⟩ := hs.complete (Or.inr hexited)
  rw [h.delivered.sent hs.alive hs.serving, cut_stream] at hprocessed
  have hzero : O.iterations.toNat = 0 := by
    by_contra hne
    have hbody : terminateBody ∈ s.gateway.core.processed := by
      rw [hprocessed, bodies, hterminated.mpr (Nat.pos_of_ne_zero hne)]
      simp
    have hpos := h.gateway.not_terminated_of_stop hstep hx hbody readMessage_terminateBody
    exact absurd hpos (by decide)
  exact ⟨List.length_eq_zero_iff.mp (hrounds.trans hzero), hzero⟩

theorem Sound.stopsIdle (hs : Sound O numberOfNodes s) (h : Occurs O numberOfNodes ok s)
    (hfits : O.Fits) {gateway : Gateway.State} {l : Gateway.Label}
    (hstep : Gateway.step defaultDelimiters s.gateway l = some gateway) :
    StopsIdle s.gateway l := by
  cases l with
  | event =>
      intro p hp hk e he
      have hnext := Option.mem_def.mp hp
      have hx : s.gateway.Executes .event .stop := ⟨rfl, p.1, p.2, hnext, hk⟩
      obtain ⟨hrounds, -⟩ := hs.stop_event h hstep hx
      exact h.no_callback hfits hrounds e ((Simulator.mem_of_next? hnext).mpr (Or.inr he))
  | server | reader | user | resume | drain | join | destroy => exact trivial

/-- The gateway stops after the signal to terminate, or when there was nothing to send. -/
theorem Sound.over_of_stopping (hs : Sound O numberOfNodes s) (h : Occurs O numberOfNodes ok s)
    {gateway : Gateway.State} {l : Gateway.Label}
    (hstep : Gateway.step defaultDelimiters s.gateway l = some gateway)
    (hstopping : gateway.core.state = .stopping) : s.server.Over O := by
  have hconstructed := h.gateway.handoff.constructed
  obtain hold | hx | ⟨rfl, hguard⟩ := stopping_of_step hconstructed hstep hstopping
  · exact hs.stopping hold
  · have hevent : l = .event := hx.1
    subst hevent
    exact Or.inr (hs.stop_event h hstep hx).2
  · cases hstate : s.gateway.core.state with
    | created => exact absurd hstate hconstructed
    | stopping => exact hs.stopping hstate
    | connected =>
        obtain hstopped | hempty := hguard
        · exact Or.inl (hs.stopped hstopped)
        · cases h.gateway.paced.blocked hstate (step_eq_some hstep).1 with
          | waiting he => simp [hempty] at he
          | granted he => simp [hempty] at he

/-- The simulator stops after the signal to terminate. -/
theorem Sound.terminated_of_stopped (hs : Sound O numberOfNodes s)
    (h : Occurs O numberOfNodes ok s) (hfits : O.Fits) {gateway : Gateway.State}
    {l : Gateway.Label} (hl : ∀ action, l = .user action → ∃ delay, action = .schedule delay)
    (hserver : ∀ action, l ≠ .server action)
    (hstep : Gateway.step defaultDelimiters s.gateway l = some gateway)
    (hstopped : gateway.core.stopped = true) : s.server.terminated = true := by
  obtain hold | ⟨message, values, timestamp, hneg, hprocessed, hr⟩ :=
    stopped_of_step hl hstep hstopped
  · exact hs.stopped hold
  · have hprefix := (h.gateway.next trivial hstep).processed_isPrefix
    rw [(SameStream.step hserver hstep).sent, h.delivered.sent hs.alive hs.serving, cut_stream,
      hprocessed] at hprefix
    have hmem : message ∈ bodies O s.server.rounds s.server.terminated :=
      hprefix.subset (List.mem_append_right _ (List.mem_singleton.mpr rfl))
    obtain hmem | hmem := List.mem_append.mp hmem
    · obtain ⟨i, hi, rfl⟩ := List.mem_mapIdx.mp hmem
      have hi' : i < O.iterations.toNat := hi.trans_le h.delivered.orderly.bounded
      have ht : (timeNow O i).toNat < 2 ^ 31 := by
        rw [timeNow_toNat hfits hi']
        exact hfits i hi'
      rw [readMessage_roundBody ht] at hr
      cases hr
      exact absurd hneg (not_lt.mpr (Int.mul_nonneg (Int.natCast_nonneg _) (by decide)))
    · by_contra hterminated
      rw [if_neg hterminated] at hmem
      cases hmem

end Stop

namespace Sound

/-- The server finds neither a broken connection nor a gateway that has hung up. -/
theorem server (hs : Sound O numberOfNodes s) (h : Occurs O numberOfNodes ok s) (hfits : O.Fits)
    {n : ℕ} {server : Server} {effect : ServerEffect} {conn : Connection}
    (hstep : s.server.Step O s.gateway.conn.failed (s.recv n) server effect)
    (hc : s.deliver effect = some conn) :
    Sound O numberOfNodes { s with server := server, gateway.conn := conn } := by
  have horderly := h.delivered.orderly
  have hphase := horderly.phase
  have hafter := (horderly.step hstep).phase
  unfold Server.Phase at hphase hafter
  have hintact := State.deliver_intact hs.intact hc
  have hidle : Idle { s.gateway with conn := conn } := ⟨hs.idle.noCallback, hs.idle.answered⟩
  have hsame : server.rounds = s.server.rounds → server.terminated = s.server.terminated →
      (∀ e, server.pc ≠ .failed e) →
      (server.pc = .finish ∨ server.pc = .exited → server.Complete O) →
      Sound O numberOfNodes { s with server := server, gateway.conn := conn } := by
    intro hrounds hterminated hserving hcomplete
    refine ⟨hs.alive, hintact, hserving, hcomplete, hs.inCallback, hidle, ?_, ?_, hs.logged, ?_,
      hs.answers⟩
    · rw [hterminated]
      exact hs.stopped
    · rw [Server.Over, hterminated]
      exact hs.stopping
    · rw [hrounds]
      exact hs.followed
  cases hstep with
  | ask hpc hi =>
      refine ⟨hs.alive, hintact, by simp, by simp, hs.inCallback, hidle, hs.stopped, hs.stopping,
        hs.logged, ?_, hs.answers⟩
      rw [List.take_append_of_le_length (h.log_length_le hfits)]
      exact hs.followed
  | askFailed _ _ hb | terminateFailed _ _ hb =>
      rw [hs.intact] at hb
      cases hb
  | last hpc hi =>
      simp only [hpc] at hphase
      refine hsame rfl rfl (by simp) fun _ => ?_
      obtain hcomplete | ⟨hlen, -⟩ := hafter
      · exact hcomplete
      · simp only at hlen
        omega
  | answered => exact hsame rfl rfl (by simp) (by simp)
  | hungUp hpc hr =>
      simp only [hpc] at hphase
      have hgone : ¬ s.Alive ∨ 0 < s.gateway.core.closes := by
        unfold State.recv at hr
        split at hr
        · split at hr
          · cases hr
          · split at hr
            · rename_i hguard
              exact hguard.1
            · cases hr
        · split at hr <;> cases hr
      have hcloses := hgone.resolve_left (not_not.mpr hs.alive)
      have hover : s.server.Over O := by
        cases hstate : s.gateway.core.state with
        | created => exact absurd hstate h.gateway.handoff.constructed
        | stopping => exact hs.stopping hstate
        | connected =>
            have hzero := (h.gateway.occursStopping.shutdown.before hstate).2.2.1
            omega
      obtain hterminated | hzero := hover
      · rw [hphase.2.2.2] at hterminated
        cases hterminated
      · omega
  | recvFailed _ hr =>
      unfold State.recv at hr
      rw [hs.intact] at hr
      split at hr
      · split at hr
        · rename_i hfailed
          cases hfailed
        · split at hr <;> cases hr
      · split at hr <;> cases hr
  | terminate hpc hi =>
      exact ⟨hs.alive, hintact, by simp, by simp, hs.inCallback, hidle, fun _ => rfl,
        fun _ => Or.inl rfl, hs.logged, hs.followed, hs.answers⟩
  | move => exact hsame rfl rfl (by simp) (by simp)
  | exit hpc =>
      refine hsame rfl rfl (by simp) fun _ => ?_
      exact hs.complete (Or.inl hpc)

/-- A step of the gateway program that runs no code of the derived class. -/
theorem plain (hs : Sound O numberOfNodes s) (h : Occurs O numberOfNodes ok s) (hfits : O.Fits)
    {l' : Gateway.Label} {gateway : Gateway.State} (hl : l.plain = some l') (hfail : l ≠ .fail)
    (hscript : l = .resume → s.script = [])
    (hnetwork : ∀ delay, l = .network delay → s.gateway.main = .user false)
    (hg : Gateway.step defaultDelimiters s.gateway l' = some gateway) :
    Sound O numberOfNodes { s with gateway := gateway } := by
  have hevent : l' ≠ .event := by
    rintro rfl
    cases l <;> simp [Label.plain] at hl
  have hserver : ∀ action, l' ≠ .server action := by
    rintro action rfl
    cases l <;> simp [Label.plain] at hl hfail
  have huser : ∀ action, l' = .user action → ∃ delay, action = .schedule delay := by
    rintro action rfl
    cases l <;> simp only [Label.plain, Option.some.injEq, reduceCtorEq] at hl
    cases hl
    exact ⟨_, rfl⟩
  have hconn := SameStream.step hserver hg
  have hrecord := sameRecord_of_step hevent huser hg
  have halive : gateway.core.fatal = none := by
    obtain hnone | ⟨e, he, hforward⟩ : gateway.core.fatal = none ∨
        ∃ e : FatalError, gateway.core.fatal = some e ∧ e.OfForwardUp := by
      cases l' with
      | user action =>
          obtain ⟨delay, rfl⟩ := huser action rfl
          cases Gateway.Step.of_step hg with
          | user => exact Or.inl hs.alive.1
      | server | reader | resume | drain | event | join | destroy =>
          exact fatal_of_step (by simp) hg
    · exact hnone
    · refine absurd hforward ((h.gateway.next trivial hg).not_ofForwardUp ?_ he)
      rw [hconn.sent]
      exact h.wellFormed hfits
  refine ⟨⟨halive, hs.alive.2⟩, hconn.failed.trans hs.intact, hs.serving, hs.complete,
    fun hne => ?_, ?_, ?_, ?_, ?_, ?_, ?_⟩
  · have hm := hs.inCallback hne
    cases Gateway.Step.of_step hg with
    | server => exact absurd rfl (hserver _)
    | silent | push | scheduleForwardUp | scheduleStop | user => exact hm
    | resume =>
        have hresume : l = .resume := by
          cases l <;> simp [Label.plain] at hl ⊢
        exact absurd (hscript hresume) hne
    | insert hm' | drained hm' | join hm' | destroy hm' =>
        rw [hm] at hm'
        cases hm'
    | wait | forwardUp | stop | doInitialize | handleUpdate | unrelated => exact absurd rfl hevent
  · refine hs.idle.step h.gateway.handoff ?_ (hs.stopsIdle h hfits hg) hg
    cases l' with
    | user action =>
        obtain ⟨delay, rfl⟩ := huser action rfl
        exact trivial
    | server | reader | resume | drain | event | join | destroy => exact trivial
  · exact hs.terminated_of_stopped h hfits huser hserver hg
  · exact hs.over_of_stopping h hg
  · simp only [hrecord.log]
    exact hs.logged
  · simp only [hrecord.log]
    exact hs.followed
  · simp only [hrecord.outbound]
    exact hs.answers

/-- A gateway that runs a callback is connected. -/
theorem connected (hs : Sound O numberOfNodes s) (h : Occurs O numberOfNodes ok s)
    (hscript : s.script ≠ []) : s.gateway.core.state = .connected := by
  have hm := hs.inCallback hscript
  cases hstate : s.gateway.core.state with
  | created => exact absurd hstate h.gateway.handoff.constructed
  | connected => rfl
  | stopping => exact absurd hm (hs.idle.noCallback hstate (by simp [State.InRun, hm])).2

/-- One action of `DoUpdate`. -/
theorem callback (hs : Sound O numberOfNodes s) (h : Occurs O numberOfNodes ok s) (hfits : O.Fits)
    {action : UserAction} {script : List UserAction} {gateway : Gateway.State}
    (hscript : s.script = action :: script)
    (hg : Gateway.step defaultDelimiters s.gateway (.user (answer s.gateway.conn action)) =
      some gateway) :
    Sound O numberOfNodes { s with script := script, gateway := gateway } := by
  have hanswers := hs.answers
  rw [hscript] at hanswers
  have haction := hanswers.actions action List.mem_cons_self
  have hm := hs.inCallback (by simp [hscript])
  rw [answer_of_ofUpdate hs.intact haction] at hg
  have hconstructed := h.gateway.handoff.constructed
  have hconnected := hs.connected h (by simp [hscript])
  have hidle : Idle gateway := by
    refine hs.idle.step h.gateway.handoff ?_ (hs.stopsIdle h hfits hg) hg
    unfold RespondsInCallbacks
    split
    · exact hm
    · exact trivial
  cases Gateway.Step.of_step hg with
  | user =>
      obtain ⟨hfatal, hstopped, hrest⟩ := hanswers.user rfl hconnected hs.alive.1
      have hbooks := Core.SameBooks.user (D := defaultDelimiters) hconstructed action
      have hlifecycle := Core.user_lifecycle (D := defaultDelimiters) hconstructed action
      simp only [Core.lifecycle, Prod.mk.injEq] at hlifecycle
      refine ⟨⟨hfatal, hs.alive.2⟩, hs.intact, hs.serving, hs.complete, fun _ => hm, hidle, ?_, ?_,
        ?_, ?_, hrest⟩
      · simp only [hstopped]
        exact hs.stopped
      · simp only [hlifecycle.1]
        exact hs.stopping
      · simp only [hbooks.log]
        exact hs.logged
      · simp only [hbooks.log]
        exact hs.followed

/-- A broadcast is received by a vehicle that exists. -/
theorem handleReceive (hs : Sound O numberOfNodes s) {id : ℕ} (hid : id < s.vehicles.length) :
    SimpleGateway.handleReceive s.vehicles (decimal id) =
      .ok (s.vehicles.modify id fun vehicle => { vehicle with count := vehicle.count + 1 }) := by
  have hlt := numberOfNodes.toNat_lt
  refine handleReceive_eq hid ?_
  rw [hs.followed.length]
  omega

/-- The data of a callback has values for every vehicle. -/
theorem update (hs : Sound O numberOfNodes s) (h : Occurs O numberOfNodes ok s)
    (hsize : numberOfNodes.toNat ≤ O.numberOfNodes.toNat) {callback : Callback}
    (hlog : s.gateway.core.log ++ [callback] <+: s.server.rounds.mapIdx (roundCallback O)) :
    ∃ hk : s.gateway.core.log.length < s.server.rounds.length,
      s.vehicles.length ≤ (roundData s.server.rounds[s.gateway.core.log.length]).length ∧
      doUpdate s.vehicles callback.data = .ok
        (List.zipWith Vehicle.update s.vehicles
          (roundData s.server.rounds[s.gateway.core.log.length]),
        settings 0 s.vehicles (roundData s.server.rounds[s.gateway.core.log.length]) ++
          [.sendResponse true]) := by
  obtain ⟨hk, hdata⟩ := data_of_log hlog
  have hwidth := h.delivered.orderly.widths _ (List.getElem_mem hk)
  have hlt := O.numberOfNodes.toNat_lt
  have hcover : s.vehicles.length ≤
      (roundData s.server.rounds[s.gateway.core.log.length]).length := by
    rw [length_roundData, hs.followed.length, hwidth]
    exact hsize
  refine ⟨hk, hcover, ?_⟩
  rw [hdata, roundFields]
  exact doUpdate_eq hcover fun d hd => roundData_inRange (by omega) hd

/-- The simulator runs its events between the callbacks. -/
theorem script_eq_nil (hs : Sound O numberOfNodes s) (hm : s.gateway.main ≠ .user true) :
    s.script = [] := by
  by_contra hne
  exact hm (hs.inCallback hne)

/-- An event that calls no code of the derived class. -/
theorem quiet (hs : Sound O numberOfNodes s) (h : Occurs O numberOfNodes ok s) (hfits : O.Fits)
    {e : Event Kind} {sim : Simulator Kind} {gateway : Gateway.State}
    (hn : s.gateway.core.sim.next? = some (e, sim))
    (hg : Gateway.step defaultDelimiters s.gateway .event = some gateway)
    (hnone : callback? e = none) : Sound O numberOfNodes { s with gateway := gateway } := by
  have hconn := SameStream.step (by simp) hg
  obtain ⟨hlog, houtbound⟩ := record_of_event hn hg
  have hscript : s.script = [] := hs.script_eq_nil (by simp [(loop_of_event hg).1])
  have hresponds : RespondsInCallbacks s.gateway .event := trivial
  rw [hnone, Option.toList_none, List.append_nil] at hlog
  refine ⟨⟨h.fatal_of_event hfits hg, hs.alive.2⟩, hconn.failed.trans hs.intact, hs.serving,
    hs.complete, fun hne => absurd hscript hne,
    hs.idle.step h.gateway.handoff hresponds (hs.stopsIdle h hfits hg) hg,
    hs.terminated_of_stopped h hfits (by simp) (by simp) hg, hs.over_of_stopping h hg, ?_, ?_, ?_⟩
  · simp only [hlog]
    exact hs.logged
  · simp only [hlog]
    exact hs.followed
  · simp only [houtbound]
    exact hs.answers

/-- An event of the simulator, with the code of the derived class that it calls. -/
theorem event (hs : Sound O numberOfNodes s) (h : Occurs O numberOfNodes ok s) (hfits : O.Fits)
    (hsize : numberOfNodes.toNat ≤ O.numberOfNodes.toNat) {e : Event Kind} {sim : Simulator Kind}
    {gateway : Gateway.State} (hn : s.gateway.core.sim.next? = some (e, sim))
    (hg : Gateway.step defaultDelimiters s.gateway .event = some gateway)
    (hnext : Occurs O numberOfNodes ok (State.call { s with gateway := gateway } e.kind)) :
    Sound O numberOfNodes (State.call { s with gateway := gateway } e.kind) := by
  have hconn := SameStream.step (by simp) hg
  obtain ⟨hlog, houtbound⟩ := record_of_event hn hg
  have hfatal := h.fatal_of_event hfits hg
  have hresponds : RespondsInCallbacks s.gateway .event := trivial
  have hidle : Idle gateway :=
    hs.idle.step h.gateway.handoff hresponds (hs.stopsIdle h hfits hg) hg
  have hstopped := hs.terminated_of_stopped h hfits (by simp) (by simp) hg
  have hover := hs.over_of_stopping h hg
  have hscript : s.script = [] := hs.script_eq_nil (by simp [(loop_of_event hg).1])
  have hcallback : ∀ name data, callback? e = some ⟨name, data, e.time⟩ →
      gateway.main = .user true → gateway.core.log <+: s.server.rounds.mapIdx (roundCallback O) →
      Sound O numberOfNodes
        (State.begin { s with gateway := gateway } (doUpdate s.vehicles data)) := by
    intro name data hcb hm hprefix
    rw [hcb, Option.toList_some] at hlog
    rw [hlog] at hprefix
    obtain ⟨hk, hcover, hupdate⟩ := hs.update h hsize hprefix
    simp only at hupdate
    rw [hupdate, State.begin]
    have hanswers := hs.answers
    rw [hscript, ← hs.followed.length] at hanswers
    have hlen : gateway.core.log.length = s.gateway.core.log.length + 1 := by
      rw [hlog, List.length_append, List.length_singleton]
    refine ⟨⟨hfatal, hs.alive.2⟩, hconn.failed.trans hs.intact, hs.serving, hs.complete,
      fun _ => hm, hidle, hstopped, hover, ?_, ?_, ?_⟩
    · simp only [List.length_append, List.length_singleton, hlen, hs.logged]
    · simp only [hlen, List.take_succ_eq_append_getElem hk]
      refine hs.followed.update ?_
      rw [← hs.followed.length, ← length_roundData]
      exact hcover
    · simp only [houtbound]
      rw [← hs.followed.length]
      exact hanswers.begin hcover
  have hparties := State.call_sameParties { s with gateway := gateway } e.kind
  have hprefix : gateway.core.log <+: s.server.rounds.mapIdx (roundCallback O) := by
    have hprefix := hnext.log_isPrefix hfits
    rwa [hparties.gateway, hparties.server] at hprefix
  have hexec := eq_execute_of_event hg hn
  cases hk : e.kind with
  | waitForNextUpdate | forwardUp | stop | unrelated =>
      exact hs.quiet h hfits hn hg (by simp [callback?, hk])
  | doInitialize data =>
      refine hcallback .doInitialize data (by simp [callback?, hk]) ?_ hprefix
      rw [hexec, hk]
      rfl
  | handleUpdate data =>
      refine hcallback .doUpdate data (by simp [callback?, hk]) ?_ hprefix
      rw [hexec, hk]
      rfl

theorem start (O : Options) (numberOfNodes : UInt16) (sim : Simulator Kind) :
    Sound O numberOfNodes (.start O sim numberOfNodes) where
  alive := ⟨rfl, rfl⟩
  intact := rfl
  serving := by simp [State.start, Server.start]
  complete := by simp [State.start, Server.start]
  inCallback := by simp [State.start]
  idle := Idle.of_not_stopping (by simp [State.start, Gateway.State.connected, Core.connect,
    Core.construct, Core.scheduleWait]) (by simp [State.start, Gateway.State.connected,
      Core.connect, Core.construct, Core.scheduleWait])
  stopped := by simp [State.start, Gateway.State.connected, Core.connect, Core.construct,
    Core.scheduleWait]
  stopping := by simp [State.start, Gateway.State.connected, Core.connect, Core.construct,
    Core.scheduleWait]
  logged := rfl
  followed := followed_vehicles _
  answers := answers_construct _

end Sound

/-- On a connection that is neither broken nor reset, with vehicles that the server knows and times
that fit into the header, the invariant holds in every run. -/
theorem Occurs.sound (h : Occurs O numberOfNodes Undisturbed s) (hfits : O.Fits)
    (hsize : numberOfNodes.toNat ≤ O.numberOfNodes.toNat) : Sound O numberOfNodes s := by
  obtain ⟨sim, hsim, ht, hr⟩ := h
  refine hr.invariant (Sound.start O numberOfNodes sim) fun s l s' hr hs hok hstep => ?_
  have h : Occurs O numberOfNodes Undisturbed s := ⟨sim, hsim, ht, hr⟩
  have hnext := h.next hok hstep
  cases Step.of_step hstep with
  | server hr hc => exact hs.server h hfits (Server.Step.of_step hr) hc
  | plain hl hscript hnetwork _ hg =>
      exact hs.plain h hfits hl hok.unbroken.ne_fail hscript hnetwork hg
  | callback hscript _ hg => exact hs.callback h hfits hscript hg
  | reset => exact hok.elim
  | @receive id _ _ hid vehicles hv =>
      rw [hs.handleReceive hid] at hv
      cases hv
      exact ⟨hs.alive, hs.intact, hs.serving, hs.complete, hs.inCallback, hs.idle, hs.stopped,
        hs.stopping, hs.logged, hs.followed.receive id, hs.answers⟩
  | lost _ _ hid hv =>
      rw [hs.handleReceive hid] at hv
      cases hv
  | event _ hn hg => exact hs.event h hfits hsize hn hg hnext

theorem sessionOptions_fits : sessionOptions.Fits := by
  intro i hi
  have hlt : i < 2 := hi
  have hstart : sessionOptions.timeStart.toNat = 5 := rfl
  have hdelta : sessionOptions.timeDelta.toNat = 2 := rfl
  rw [hstart, hdelta]
  omega

/-- Only a server that has come to its end, with responses still under way, breaks the pipe. -/
theorem Sound.exited_of_pipeBroken {ok : State → Label → Prop} (hs : Sound O numberOfNodes s)
    (h : Occurs O numberOfNodes ok s) (hb : s.PipeBroken) :
    s.server.pc = .exited ∧ s.gateway.conn.closed = true ∧ s.inFlight ≠ [] := by
  obtain hfailed | ⟨hclosed, hflight⟩ := hb
  · rw [hs.intact] at hfailed
    cases hfailed
  · refine ⟨?_, hclosed, hflight⟩
    obtain hexited | ⟨e, he⟩ := h.delivered.closed hclosed
    · exact hexited
    · exact absurd he (hs.serving e)

/-- A run on a connection that does not break is one that is not disturbed, and ends when a response
to a server that has closed the connection is answered with a reset. -/
theorem Occurs.undisturbed_or (h : Occurs O numberOfNodes Unbroken s) (hfits : O.Fits)
    (hsize : numberOfNodes.toNat ≤ O.numberOfNodes.toNat) : Occurs O numberOfNodes Undisturbed s ∨
      ∃ t, Occurs O numberOfNodes Undisturbed t ∧ t.PipeBroken ∧
        s = { t with aborted := some .brokenPipe } := by
  obtain ⟨sim, hsim, ht, hr⟩ := h
  refine hr.invariant (P := fun s => Occurs O numberOfNodes Undisturbed s ∨ ∃ t,
    Occurs O numberOfNodes Undisturbed t ∧ t.PipeBroken ∧
      s = { t with aborted := some .brokenPipe }) (Or.inl ⟨sim, hsim, ht, .start⟩)
    fun s l s' _ hs hok hstep => ?_
  obtain hs | ⟨t, ht, hb, rfl⟩ := hs
  · by_cases hl : l = .reset
    · subst hl
      cases Step.of_step hstep with
      | plain hl => cases hl
      | reset _ _ hb => exact Or.inr ⟨s, hs, hb, rfl⟩
    · refine Or.inl (hs.next ?_ hstep)
      cases l with
      | fail => exact hok
      | reset => exact hl rfl
      | _ => exact trivial
  · -- neither of the programs has a step any more
    obtain ⟨hexited, -, -⟩ := (ht.sound hfits hsize).exited_of_pipeBroken ht hb
    cases Step.of_step hstep with
    | server hr => simp only [Server.step, hexited, reduceCtorEq] at hr
    | plain _ _ _ ha | callback _ ha | event ha => cases ha
    | reset _ ha | receive ha | lost ha => cases ha.2

/-- The gateway raises no fatal error, the code of the derived class neither reads beyond the data nor
fails to convert it, and the server finds neither a broken connection nor a gateway that has hung up
too early. Only a server that has closed the connection can end the gateway program. -/
theorem Occurs.outcome (h : Occurs O numberOfNodes Unbroken s) (hfits : O.Fits)
    (hsize : numberOfNodes.toNat ≤ O.numberOfNodes.toNat) :
    s.gateway.core.fatal = none ∧
      (s.aborted = none ∨ s.aborted = some .brokenPipe ∧ s.server.pc = .exited ∧
        s.gateway.conn.closed = true ∧ s.inFlight ≠ []) ∧
      (∀ e, s.server.pc ≠ .failed e) ∧
      (s.server.pc = .finish ∨ s.server.pc = .exited → s.server.Complete O) := by
  obtain h | ⟨t, ht, hb, rfl⟩ := h.undisturbed_or hfits hsize
  · have hs := h.sound hfits hsize
    exact ⟨hs.alive.1, Or.inl hs.alive.2, hs.serving, hs.complete⟩
  · have hs := ht.sound hfits hsize
    exact ⟨hs.alive.1, Or.inr ⟨rfl, hs.exited_of_pipeBroken ht hb⟩, hs.serving, hs.complete⟩

/-- What the vehicles have gone through, after the callbacks that ran: each of them is where the
server put it with the latest message that has been handled, its course changes are those of the
messages, and it has broadcast as often as the messages say. -/
theorem vehicles_follow_server (h : Occurs O numberOfNodes Unbroken s) (hfits : O.Fits)
    (hsize : numberOfNodes.toNat ≤ O.numberOfNodes.toNat) :
    s.gateway.core.log <+: s.server.rounds.mapIdx (roundCallback O) ∧
      s.vehicles.length = numberOfNodes.toNat ∧
      ∀ j vehicle, s.vehicles[j]? = some vehicle →
        vehicle.mobility.current = ((⟨0, j, 0⟩, 0) ::
          course j (s.server.rounds.take s.gateway.core.log.length)).getLast (by simp) ∧
        vehicle.mobility.courseChanges = turns (⟨0, j, 0⟩, 0)
          (course j (s.server.rounds.take s.gateway.core.log.length)) ∧
        vehicle.sends = broadcasts j (s.server.rounds.take s.gateway.core.log.length) := by
  have hfollowed : Followed numberOfNodes.toNat
      (s.server.rounds.take s.gateway.core.log.length) s.vehicles := by
    obtain h | ⟨t, ht, -, rfl⟩ := h.undisturbed_or hfits hsize
    · exact (h.sound hfits hsize).followed
    · exact (ht.sound hfits hsize).followed
  refine ⟨h.log_isPrefix hfits, hfollowed.length, fun j vehicle hv => ?_⟩
  obtain ⟨hmobility, hsends⟩ := hfollowed.each j vehicle hv
  have hconstruct := Vehicle.construct_mobility j
  obtain ⟨hcurrent, hchanges⟩ := (Vehicle.construct j).mobility.perform_positionFirst
    (course j (s.server.rounds.take s.gateway.core.log.length))
  rw [← hmobility] at hcurrent hchanges
  rw [hconstruct.2, hconstruct.1, List.nil_append] at hchanges
  exact ⟨by rw [hcurrent]; simp only [hconstruct.1], hchanges, hsends⟩

theorem vehicles_follow_server_session :
    ∃ s, State.after sessionOptions Unbroken 2 Label.session = some s ∧
      s.gateway.core.log.length = 2 ∧ ∃ vehicle, s.vehicles[1]? = some vehicle ∧
        vehicle.mobility.current = (⟨5, 1, 0⟩, ⟨5, 0, 0⟩) := by
  have hrun : (State.after sessionOptions Unbroken 2 Label.session).any
      (fun s => s.gateway.core.log.length = 2 ∧ s.vehicles[1]?.isSome = true ∧
        ((⟨0, 1, 0⟩, 0) :: course 1 (s.server.rounds.take s.gateway.core.log.length)).getLast?  =
          some (⟨5, 1, 0⟩, ⟨5, 0, 0⟩)) := by
    decide +kernel
  obtain ⟨s, hs, hp⟩ := (Option.any_eq_true _ _).mp hrun
  obtain ⟨hlog, hsome, hlast⟩ := of_decide_eq_true hp
  obtain ⟨vehicle, hv⟩ := Option.isSome_iff_exists.mp hsome
  obtain ⟨-, -, hfollow⟩ := vehicles_follow_server (.of_after hs) sessionOptions_fits (by decide)
  obtain ⟨hcurrent, -, -⟩ := hfollow 1 vehicle hv
  refine ⟨s, hs, hlog, vehicle, hv, ?_⟩
  rw [hcurrent]
  exact List.getLast_of_getLast?_eq_some hlast

end Ns3Cosim.SimpleGateway
