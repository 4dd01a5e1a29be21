import Ns3Cosim.Gateway.Increasing
import Ns3Cosim.Gateway.Progress
import Ns3Cosim.SimpleGateway.LockStep

/-!
# The two programs never wait for each other

The server waits for a response, the reader thread for bytes, and the main
thread for a message or for the reader. When all three have nothing to do, both
programs have ended.
-/

namespace Ns3Cosim.SimpleGateway

open Words Gateway Mobility Execution

variable {O : Options} {numberOfNodes : UInt16} {ok : State → Label → Prop} {s s' : State}
  {l : Label}

section Received

/-- The server has received a beginning of what was transmitted, and while it waits for a response it
has received no byte of it. -/
structure Received (s : State) : Prop where
  isPrefix : s.server.responses.flatten <+: s.gateway.core.outbound.transmitted
  waiting : s.server.pc = .recv → s.server.responses.flatten.length ≤
    ((s.counts.take (s.server.rounds.length - 1)).map response).flatten.length

theorem length_flatten_take_le {counts counts' : List (List UInt16)} (h : counts <+: counts')
    {m n : ℕ} (hmn : m ≤ n) :
    ((counts.take m).map response).flatten.length ≤
      ((counts'.take n).map response).flatten.length := by
  have hprefix : counts.take m <+: counts'.take n :=
    (h.take m).trans (List.take_isPrefix_take.mpr (Or.inl hmn))
  obtain ⟨rest, hrest⟩ := hprefix
  rw [← hrest, List.map_append, List.flatten_append, List.length_append]
  exact Nat.le_add_right _ _

/-- More is transmitted, and more callbacks begin. -/
theorem Received.of_isPrefix (h : Received s) (hserver : s'.server = s.server)
    (houtbound : s.gateway.core.outbound.transmitted <+: s'.gateway.core.outbound.transmitted)
    (hcounts : s.counts <+: s'.counts) : Received s' where
  isPrefix := by
    rw [hserver]
    exact h.isPrefix.trans houtbound
  waiting := by
    rw [hserver]
    exact fun hpc => (h.waiting hpc).trans (length_flatten_take_le hcounts le_rfl)

theorem transmitted_isPrefix_user {c : Core} (hc : c.state ≠ .created) (action : UserAction) :
    c.outbound.transmitted <+: (c.user defaultDelimiters action).outbound.transmitted := by
  cases action with
  | schedule | simulatorStop => exact List.prefix_rfl
  | setValue index value =>
      simp only [Core.user]
      split
      · exact List.prefix_rfl
      · rename_i o hset
        obtain ⟨-, -, -, rfl⟩ := setValue_eq_ok hset
        exact List.prefix_rfl
  | sendResponse sent =>
      simp only [Core.user]
      split
      · exact List.prefix_rfl
      · unfold sendResponse
        split
        · exact List.prefix_append _ _
        · exact List.prefix_rfl
  | connect outcome =>
      rw [Core.user, Core.connect_of_ne hc]
      exact List.prefix_rfl

theorem State.counts_isPrefix_call (s : State) (kind : Kind) : s.counts <+: (s.call kind).counts := by
  have hbegin : ∀ result, s.counts <+: (s.begin result).counts := by
    intro result
    unfold State.begin
    split
    · exact List.prefix_append _ _
    · exact List.prefix_rfl
  cases kind with
  | doInitialize | handleUpdate => exact hbegin _
  | waitForNextUpdate | forwardUp | stop | unrelated => exact List.prefix_rfl

theorem Occurs.received (h : Occurs O numberOfNodes Undisturbed s) (hfits : O.Fits)
    (hsize : numberOfNodes.toNat ≤ O.numberOfNodes.toNat) : Received s := by
  refine h.induct (fun sim _ _ => ⟨List.nil_prefix, by simp [State.start, Server.start]⟩)
    fun s l s' h hp _ hstep => ?_
  have hs := h.sound hfits hsize
  have hresponds := h.responds hfits hsize
  cases hstep with
  | @server n rand server effect conn hr hc =>
      cases Server.Step.of_step hr with
      | ask hpc hi =>
          refine ⟨hp.isPrefix, fun _ => ?_⟩
          have hle := hp.isPrefix.length_le
          rw [hresponds.transmitted] at hle
          refine hle.trans (length_flatten_take_le List.prefix_rfl ?_)
          have hlog := h.log_length_le hfits
          have hlogged := hs.logged
          simp only [List.length_append, List.length_singleton, State.answered]
          split <;> omega
      | @answered chunk hpc hrecv =>
          refine ⟨?_, fun hpc' => by cases hpc'⟩
          obtain ⟨n, rfl⟩ : ∃ n, chunk = s.inFlight.take n := by
            unfold State.recv at hrecv
            split at hrecv
            · split at hrecv
              · cases hrecv
              · split at hrecv <;> cases hrecv
            · split at hrecv
              · cases hrecv
                exact ⟨_, rfl⟩
              · cases hrecv
          obtain ⟨rest, hrest⟩ := hp.isPrefix
          have hflight : s.inFlight = rest := by rw [State.inFlight, ← hrest, List.drop_left]
          rw [hflight, List.flatten_append, List.flatten_singleton, ← hrest]
          exact (List.prefix_append_right_inj _).mpr (List.take_prefix _ _)
      | askFailed _ _ hb | terminateFailed _ _ hb =>
          rw [hs.intact] at hb
          cases hb
      | last | hungUp | recvFailed | terminate | move | exit =>
          exact ⟨hp.isPrefix, fun hpc => by cases hpc⟩
  | plain hl _ _ _ hg =>
      refine hp.of_isPrefix rfl ?_ List.prefix_rfl
      simp only [(sameRecord_of_plain hl hg).outbound]
      exact List.prefix_rfl
  | callback _ _ hg =>
      refine hp.of_isPrefix rfl ?_ List.prefix_rfl
      cases Gateway.Step.of_step hg with
      | user => exact transmitted_isPrefix_user h.gateway.handoff.constructed _
  | reset | receive | lost => exact hp.of_isPrefix rfl List.prefix_rfl List.prefix_rfl
  | @event e sim gateway _ hn hg =>
      have hparties := State.call_sameParties { s with gateway := gateway } e.kind
      have hcounts := State.counts_isPrefix_call { s with gateway := gateway } e.kind
      have houtbound := (record_of_event hn hg).2
      refine hp.of_isPrefix hparties.server ?_ hcounts
      rw [hparties.gateway]
      simp only [houtbound]
      exact List.prefix_rfl

/-- The end of a callback leaves something on its way to a server that waits. -/
theorem Received.inFlight_ne (hp : Received s) (hresponds : Responds s)
    (hpc : s.server.pc = .recv) (hscript : s.script = [])
    (hcounts : s.counts.length = s.server.rounds.length) (hrounds : s.server.rounds ≠ []) :
    s.inFlight ≠ [] := by
  have hwaiting := hp.waiting hpc
  have htransmitted := hresponds.transmitted
  have hne : s.counts ≠ [] := by
    intro hnil
    rw [hnil, List.length_nil] at hcounts
    exact hrounds (List.length_eq_zero_iff.mp hcounts.symm)
  rw [← hcounts, ← List.dropLast_eq_take] at hwaiting
  rw [State.answered, if_pos hscript, List.take_length, ← List.dropLast_append_getLast hne,
    List.map_append, List.flatten_append] at htransmitted
  intro hempty
  have hle := List.drop_eq_nil_iff.mp hempty
  rw [htransmitted, List.length_append] at hle
  have hlast : 0 < (List.map response [s.counts.getLast hne]).flatten.length := by
    simp [response, responseMessage, defaultDelimiters]
  omega

end Received

section Closed

/-- A server that has ended has closed the connection. -/
theorem Occurs.closed_of_exited (h : Occurs O numberOfNodes Undisturbed s) (hfits : O.Fits)
    (hsize : numberOfNodes.toNat ≤ O.numberOfNodes.toNat) :
    s.server.pc = .exited → s.gateway.conn.closed = true := by
  refine h.induct (P := fun s => s.server.pc = .exited → s.gateway.conn.closed = true)
    (fun sim _ _ hpc => by cases hpc) fun s l s' h hp hok hstep => ?_
  have hs := h.sound hfits hsize
  cases hstep with
  | @server n rand server effect conn hr hc =>
      cases Server.Step.of_step hr with
      | exit =>
          intro _
          simp only [State.deliver, ServerEffect.action, hs.alive, if_true, Connection.act,
            Option.some.injEq] at hc
          rw [← hc]
      | ask | last | answered | hungUp | terminate | move => exact fun hpc => by cases hpc
      | askFailed | recvFailed | terminateFailed => exact fun hpc => by cases hpc
  | @plain _ l' gateway hl _ _ _ hg =>
      intro hpc
      have hserver : ∀ action, l' ≠ .server action := by
        rintro action rfl
        cases l <;> simp [Label.plain] at hl
        exact hok
      have hclosed := (SameStream.step hserver hg).closed
      simp only [hclosed]
      exact hp hpc
  | callback _ _ hg =>
      intro hpc
      have hclosed := (SameStream.step (by simp) hg).closed
      simp only [hclosed]
      exact hp hpc
  | reset | receive | lost => exact hp
  | @event e sim gateway _ _ hg =>
      have hparties := State.call_sameParties { s with gateway := gateway } e.kind
      rw [hparties.gateway, hparties.server]
      intro hpc
      have hclosed := (SameStream.step (by simp) hg).closed
      simp only [hclosed]
      exact hp hpc

end Closed

section Paused

theorem roundUpdates_increasing (hfits : O.Fits) (hdelta : 0 < O.timeDelta.toNat)
    {rounds : List (List ServerNode)} (hrounds : rounds.length ≤ O.iterations.toNat) :
    Increasing (roundUpdates O rounds) := by
  apply List.pairwise_iff_getElem.mpr
  intro i j hi hj hij
  simp only [roundUpdates, List.length_mapIdx] at hi hj
  simp only [roundUpdates, List.getElem_mapIdx, timeNow_toNat hfits (hi.trans_le hrounds),
    timeNow_toNat hfits (hj.trans_le hrounds), nanosecondsPerSecond]
  have hmul : O.timeDelta.toNat * i < O.timeDelta.toNat * j := Nat.mul_lt_mul_of_pos_left hij hdelta
  omega

/-- The callbacks that ran and those that are pending are those of the first messages. -/
theorem Occurs.callbacks_isPrefix (h : Occurs O numberOfNodes ok s) (hfits : O.Fits) :
    s.gateway.core.log ++ pendingCallbacks s.gateway.core.sim <+:
      s.server.rounds.mapIdx (roundCallback O) := by
  have hrounds := h.delivered.orderly.bounded
  have hord := (stream_wellFormed hfits hrounds s.server.terminated).ordered
  have haccounted := (h.gateway.log_isPrefix le_rfl h.delivered.isPrefix hord).1
  have hupdates := updates_isPrefix (D := defaultDelimiters) haccounted.accepted
  rw [cut_stream, updates_bodies hfits hrounds] at hupdates
  rw [haccounted.balanced, ← expectedLog_roundUpdates hfits hrounds]
  exact expectedLog_isPrefix 0 hupdates

/-- While a wait holds simulation time, a callback is pending only if it is due now. -/
theorem Occurs.due_of_wait (h : Occurs O numberOfNodes ok s) (hfits : O.Fits) {w e : Event Kind}
    (hw : w ∈ s.gateway.core.sim.queue) (hwait : w.kind = .waitForNextUpdate)
    (he : e ∈ s.gateway.core.sim.queue) (hcb : callback? e ≠ none) :
    e.time = s.gateway.core.sim.now := by
  have hhandled := h.gateway.handoff.handled
  have hrounds := h.delivered.orderly.bounded
  cases hk : e.kind with
  | doInitialize data => exact hhandled.immediate e he (by simp [hk, Kind.Immediate])
  | handleUpdate data =>
      obtain hzero | hdelta := Nat.eq_zero_or_pos O.timeDelta.toNat
      · -- all the messages have the same time
        have hmem : (⟨.doUpdate, data, e.time⟩ : Callback) ∈
            s.server.rounds.mapIdx (roundCallback O) := by
          apply (h.callbacks_isPrefix hfits).subset
          apply List.mem_append_right
          exact List.mem_filterMap.mpr ⟨e, he, by simp [callback?, hk]⟩
        obtain ⟨i, hi, hround⟩ := List.mem_mapIdx.mp hmem
        have htime : e.time = 0 := by
          calc e.time = (roundCallback O i s.server.rounds[i]).time := by rw [hround]
            _ = 0 := by simp [roundCallback, hzero]
        have hstart := h.gateway.paced.start_le
        have hnotPast := s.gateway.core.sim.notPast e he
        omega
      · have hinc : Increasing (updates defaultDelimiters
            (cut defaultDelimiters.delimiterMessage s.gateway.conn.sent).1) := by
          have hupdates := updates_isPrefix (D := defaultDelimiters)
            (cut_isPrefix defaultDelimiters.message_ne h.delivered.isPrefix)
          rw [cut_stream, updates_bodies hfits hrounds] at hupdates
          exact (roundUpdates_increasing hfits hdelta hrounds).of_isPrefix hupdates
        obtain hquiet | hquiet := (h.gateway.exclusive le_rfl hinc).alone
        · exact absurd hwait (hquiet w hw)
        · exact absurd (by simp [hk, Kind.isHandleUpdate]) (hquiet e he)
  | waitForNextUpdate | forwardUp | stop | unrelated => simp [callback?, hk] at hcb

end Paused

section Stuck

/-- The server has a step: it has not ended, and in `recv` there is something to return. -/
def State.Serves (s : State) : Prop :=
  s.server.pc ≠ .exited ∧ (s.server.pc = .recv → s.inFlight ≠ [])

/-- The simulator has something to do other than to wait for a message. -/
def State.Runs (s : State) : Prop :=
  s.gateway.core.stopped = true ∨ s.gateway.core.sim.queue = [] ∨ s.gateway.handoff ≠ [] ∨
    s.gateway.core.state = .stopping ∨
    (∃ e ∈ s.gateway.core.sim.queue,
      e.kind ≠ .waitForNextUpdate ∧ e.time = s.gateway.core.sim.now) ∨
    ∀ w ∈ s.gateway.core.sim.queue, w.kind ≠ .waitForNextUpdate

/-- The main thread has a step that brings it forward. -/
def State.Goes (s : State) : Prop :=
  match s.gateway.main with
  | .user _ | .drain => True
  | .loop => s.Runs
  | .joining _ => s.gateway.reader.pc = .exited
  | .destroyed => False

/-- Both programs have come to their end. -/
def State.Ended (s : State) : Prop := s.gateway.main = .destroyed ∧ s.server.pc = .exited

instance (s : State) : Decidable s.Ended := inferInstanceAs (Decidable (_ ∧ _))

/-- A server that waits for a response has sent no signal to terminate. -/
theorem Sound.not_over_of_recv (h : Occurs O numberOfNodes ok s) (hpc : s.server.pc = .recv) :
    ¬ s.server.Over O := by
  have hphase := h.delivered.orderly.phase
  simp only [Server.Phase, hpc] at hphase
  obtain ⟨hlt, -, -, hterminated⟩ := hphase
  rintro (hover | hzero)
  · rw [hterminated] at hover
    cases hover
  · omega

/-- While the simulator waits, and the reader and the server as well, the gateway is connected and
the response to the latest message is on its way. -/
theorem Occurs.serves_of_paused (h : Occurs O numberOfNodes Undisturbed s) (hfits : O.Fits)
    (hsize : numberOfNodes.toNat ≤ O.numberOfNodes.toNat) (hm : s.gateway.main = .loop)
    (hruns : ¬ s.Runs) (hreads : ¬ s.gateway.Reads) : s.Serves := by
  have hs := h.sound hfits hsize
  have hinv := h.gateway.handoff
  simp only [State.Runs, not_or, not_exists, not_and, not_forall, not_not] at hruns
  obtain ⟨-, -, hhandoff, hstate, hdue, w, hw, hwait⟩ := hruns
  have hconnected : s.gateway.core.state = .connected := by
    cases hc : s.gateway.core.state with
    | created => exact absurd hc hinv.constructed
    | connected => rfl
    | stopping => exact absurd hc hstate
  have hquiet : ∀ e ∈ s.gateway.core.sim.queue, e.kind.Immediate → e.kind = .waitForNextUpdate := by
    intro e he hi
    by_contra hk
    exact hdue e he hk (hinv.handled.immediate e he hi)
  have hexited : s.gateway.reader.pc ≠ .exited := by
    intro hpc
    obtain hin | ⟨e, he, hk⟩ := h.gateway.stopPending hpc hconnected
    · rw [hhandoff] at hin
      cases hin
    · have hk' := hquiet e he (by simp [hk, Kind.Immediate])
      rw [hk] at hk'
      cases hk'
  obtain ⟨receivedData, hpc, havailable, hopen⟩ : ∃ receivedData,
      s.gateway.reader.pc = .recv receivedData ∧ s.gateway.conn.available = [] ∧
        s.gateway.conn.closed ≠ true := by
    simp only [Gateway.State.Reads, not_and, not_forall, not_or, not_not] at hreads
    obtain ⟨receivedData, hpc, havailable, hopen⟩ := hreads hexited
    exact ⟨receivedData, hpc, havailable, hopen⟩
  refine ⟨fun hpc' => hopen (h.closed_of_exited hfits hsize hpc'), fun hrecv => ?_⟩
  have hphase := h.delivered.orderly.phase
  simp only [Server.Phase, hrecv] at hphase
  obtain ⟨hlt, hrounds, -, hterminated⟩ := hphase
  -- every message has been cut off, pushed, handed over and taken
  have hsent := h.delivered.sent hs.alive hs.serving
  have hpushed : s.gateway.pushed = bodies O s.server.rounds s.server.terminated :=
    h.gateway.pushed_of_waiting hpc havailable (by rw [hsent, cut_stream])
  have hqueue : s.gateway.core.messageQueue = [] := by
    have hcount := hinv.count
    have hzero : forwardUps s.gateway.core.sim = 0 := by
      apply forwardUps_eq_zero_iff.mpr
      intro e he hk
      have hk' := hquiet e he (by simp [hk, Kind.Immediate])
      rw [hk] at hk'
      cases hk'
    simp only [State.scheduled, hzero, hhandoff, List.countP_nil, Reader.betweenPushAndSchedule,
      hpc] at hcount
    exact List.length_eq_zero_iff.mp hcount
  have hprocessed : s.gateway.core.processed = bodies O s.server.rounds s.server.terminated := by
    have hhistory := hinv.history
    rwa [hqueue, List.append_nil, hpushed] at hhistory
  -- so every callback has run
  have hbounded := h.delivered.orderly.bounded
  have hord := (stream_wellFormed hfits hbounded s.server.terminated).ordered
  have hbook := (h.gateway.log_isPrefix le_rfl h.delivered.isPrefix hord).1.balanced
  have hpending : pendingCallbacks s.gateway.core.sim = [] := by
    apply List.filterMap_eq_nil_iff.mpr
    intro e he
    by_contra hcb
    have htime := h.due_of_wait hfits hw hwait he hcb
    refine hdue e he (fun hk => ?_) htime
    simp [callback?, hk] at hcb
  rw [hpending, List.append_nil, Core.accepted_of_none hs.alive.1, hprocessed,
    updates_bodies hfits hbounded, expectedLog_roundUpdates hfits hbounded] at hbook
  have hlog : s.counts.length = s.server.rounds.length := by
    rw [hs.logged, hbook, List.length_mapIdx]
  refine (h.received hfits hsize).inFlight_ne (h.responds hfits hsize) hrecv
    (hs.script_eq_nil (by simp [hm])) hlog ?_
  intro hnil
  rw [hnil] at hrounds
  cases hrounds

/-- When neither the server nor the reader nor the main thread can go on, both programs have ended. -/
theorem Occurs.ended_of_stuck (h : Occurs O numberOfNodes Undisturbed s) (hfits : O.Fits)
    (hsize : numberOfNodes.toNat ≤ O.numberOfNodes.toNat) (hserves : ¬ s.Serves)
    (hreads : ¬ s.gateway.Reads) (hgoes : ¬ s.Goes) : s.Ended := by
  have hs := h.sound hfits hsize
  have hshutdown := h.gateway.occursStopping.shutdown
  have hexited : s.gateway.core.state = .stopping → s.server.pc = .exited := by
    intro hstopping
    by_contra hne
    simp only [State.Serves, not_and, not_forall, not_not] at hserves
    obtain ⟨hrecv, -⟩ := hserves hne
    exact Sound.not_over_of_recv h hrecv (hs.stopping hstopping)
  cases hm : s.gateway.main with
  | user | drain => simp [State.Goes, hm] at hgoes
  | loop =>
      have hruns : ¬ s.Runs := by simpa [State.Goes, hm] using hgoes
      exact absurd (h.serves_of_paused hfits hsize hm hruns hreads) hserves
  | joining destroying =>
      have hpc := hexited (hshutdown.during destroying hm).1
      have hclosed := h.closed_of_exited hfits hsize hpc
      have hreader : s.gateway.reader.pc ≠ .exited := by simpa [State.Goes, hm] using hgoes
      exact absurd ⟨hreader, fun _ _ => Or.inr hclosed⟩ hreads
  | destroyed => exact ⟨hm, hexited (h.gateway.stopping_of_destroyed hm)⟩

end Stuck

end Ns3Cosim.SimpleGateway
