import Ns3Cosim.Execution.Exchange
import Ns3Cosim.SimpleGateway.Safety

/-!
# The two programs advance in lock-step

A server that receives every response whole sends the next message after the
response to the one before. Seen from outside, the two programs are then an
exchange in which the server asks and the gateway answers: each callback runs
between a message and the next one, and when the signal to terminate is sent the
gateway has handled every message.

-/

namespace Ns3Cosim.SimpleGateway

open Words Gateway Mobility Execution

variable {O : Options} {numberOfNodes : UInt16} {ok : State → Label → Prop} {s s' : State}
  {l : Label}

/-- The connection does not break, and a `recv` of the server returns every byte that is on its
way. -/
def Whole (s : State) : Label → Prop
  | .fail => False
  | .server n _ => s.server.pc = .recv → s.inFlight.length ≤ n
  | _ => True

instance (s : State) (l : Label) : Decidable (Whole s l) :=
  match l with
  | .fail => .isFalse id
  | .server n _ => inferInstanceAs (Decidable (s.server.pc = .recv → s.inFlight.length ≤ n))
  | .reader _ | .callback | .reset | .receive _ | .network _ | .resume | .drain | .event | .join
  | .destroy => .isTrue trivial

theorem Whole.unbroken (h : Whole s l) : Unbroken s l := by
  cases l with
  | fail => exact h
  | _ => exact trivial

/-- Nor does a response reach a closed server. -/
def Lossless (s : State) (l : Label) : Prop := Whole s l ∧ Undisturbed s l

/-- The callbacks that have sent their response. -/
def State.answered (s : State) : ℕ := if s.script = [] then s.counts.length else s.counts.length - 1

/-- The response is the last action of a callback, and one response has been sent for each callback
that has come to its end. -/
structure Responds (s : State) : Prop where
  last : s.script = [] ∨ ∃ actions, s.script = actions ++ [.sendResponse true] ∧
    ∀ sent, .sendResponse sent ∉ actions
  begun : s.script ≠ [] → s.counts ≠ []
  transmitted : s.gateway.core.outbound.transmitted =
    ((s.counts.take s.answered).map response).flatten

theorem sendResponse_not_mem_settings (i : ℕ) (vehicles : List Vehicle) (ds : List VehicleData)
    (sent : Bool) : .sendResponse sent ∉ settings i vehicles ds := by
  induction vehicles generalizing i ds with
  | nil => simp [settings]
  | cons vehicle rest ih =>
      cases ds with
      | nil => simp [settings]
      | cons d ds =>
          rw [settings, List.mem_append, not_or]
          refine ⟨?_, ih (i + 1) ds⟩
          unfold Vehicle.actions
          split <;> simp

namespace Responds

theorem start (O : Options) (sim : Simulator Kind) (numberOfNodes : UInt16) :
    Responds (.start O sim numberOfNodes) where
  last := Or.inl rfl
  begun := fun hne => absurd rfl hne
  transmitted := rfl

/-- Steps that leave the callback alone. -/
theorem of_same (h : Responds s) (hscript : s'.script = s.script) (hcounts : s'.counts = s.counts)
    (houtbound : s'.gateway.core.outbound = s.gateway.core.outbound) : Responds s' where
  last := hscript ▸ h.last
  begun := by
    rw [hscript, hcounts]
    exact h.begun
  transmitted := by
    rw [houtbound, State.answered, hscript, hcounts]
    exact h.transmitted

/-- An action of a callback is its response exactly when it is the last one. -/
theorem cases_cons (h : Responds s) {action : UserAction} {script : List UserAction}
    (hs : s.script = action :: script) :
    script = [] ∧ action = .sendResponse true ∨
      script ≠ [] ∧ (∀ sent, action ≠ .sendResponse sent) ∧
        ∃ actions, script = actions ++ [.sendResponse true] ∧
          ∀ sent, .sendResponse sent ∉ actions := by
  obtain hnil | ⟨actions, hlast, hnot⟩ := h.last
  · rw [hs] at hnil
    cases hnil
  · rw [hs] at hlast
    cases actions with
    | nil =>
        obtain ⟨rfl, rfl⟩ := List.cons.inj hlast
        exact Or.inl ⟨rfl, rfl⟩
    | cons a actions =>
        obtain ⟨rfl, rfl⟩ := List.cons.inj hlast
        refine Or.inr ⟨by simp, ?_, actions, rfl, ?_⟩
        · rintro sent rfl
          exact hnot sent List.mem_cons_self
        · exact fun sent hin => hnot sent (List.mem_cons_of_mem _ hin)

/-- An action that is not the response. -/
theorem quiet (h : Responds s) {action : UserAction} {script : List UserAction}
    (hs : s.script = action :: script) (hne : script ≠ [])
    (hlast : ∃ actions, script = actions ++ [.sendResponse true] ∧
      ∀ sent, .sendResponse sent ∉ actions) {gateway : Gateway.State}
    (htransmitted : gateway.core.outbound.transmitted = s.gateway.core.outbound.transmitted) :
    Responds { s with script := script, gateway := gateway } where
  last := Or.inr hlast
  begun := fun _ => h.begun (by simp [hs])
  transmitted := by
    have hbefore := h.transmitted
    have hcons : s.script ≠ [] := by simp [hs]
    rw [State.answered, if_neg hcons] at hbefore
    simp only [State.answered, if_neg hne, htransmitted]
    exact hbefore

/-- A callback that begins has sent no response yet. -/
theorem begin (h : Responds s) (hs : s.script = []) {gateway : Gateway.State}
    (houtbound : gateway.core.outbound = s.gateway.core.outbound) {vehicles : List Vehicle}
    {actions : List UserAction} (hnot : ∀ sent, .sendResponse sent ∉ actions)
    (counts : List UInt16) :
    Responds { s with gateway := gateway, vehicles := vehicles,
                      script := actions ++ [.sendResponse true],
                      counts := s.counts ++ [counts] } where
  last := Or.inr ⟨actions, rfl, hnot⟩
  begun := by simp
  transmitted := by
    have hbefore := h.transmitted
    rw [State.answered, if_pos hs, List.take_length] at hbefore
    have hlen : (s.counts ++ [counts]).length - 1 = s.counts.length := by simp
    rw [State.answered, if_neg (by simp), hlen, List.take_left']
    · simp only [houtbound]
      exact hbefore
    · rfl

end Responds

/-- The action of a callback changes what has been transmitted only if it is a response. -/
theorem transmitted_user {c : Core} {action : UserAction} (haction : OfUpdate action)
    (hnot : ∀ sent, action ≠ .sendResponse sent) :
    (c.user defaultDelimiters action).outbound.transmitted = c.outbound.transmitted := by
  cases action with
  | schedule => rfl
  | setValue index value =>
      simp only [Core.user]
      split
      · rfl
      · rename_i o hset
        obtain ⟨-, -, -, rfl⟩ := setValue_eq_ok hset
        rfl
  | sendResponse sent => exact absurd rfl (hnot sent)
  | simulatorStop | connect => exact absurd haction id

/-- A plain step runs no callback and touches no response. -/
theorem sameRecord_of_plain {l' : Gateway.Label} {gateway : Gateway.State} (hl : l.plain = some l')
    (hg : Gateway.step defaultDelimiters s.gateway l' = some gateway) :
    s.gateway.core.SameRecord gateway.core := by
  refine sameRecord_of_step ?_ ?_ hg
  · rintro rfl
    cases l <;> simp [Label.plain] at hl
  · rintro action rfl
    cases l <;> simp only [Label.plain, Option.some.injEq, reduceCtorEq] at hl
    cases hl
    exact ⟨_, rfl⟩

/-- What an event does to the callback: nothing, or a callback begins. -/
theorem Sound.event_cases (hs : Sound O numberOfNodes s) (h : Occurs O numberOfNodes ok s)
    (hfits : O.Fits) (hsize : numberOfNodes.toNat ≤ O.numberOfNodes.toNat) {e : Event Kind}
    {sim : Simulator Kind} {gateway : Gateway.State}
    (hn : s.gateway.core.sim.next? = some (e, sim))
    (hg : Gateway.step defaultDelimiters s.gateway .event = some gateway)
    (hnext : Occurs O numberOfNodes ok (State.call { s with gateway := gateway } e.kind)) :
    State.call { s with gateway := gateway } e.kind = { s with gateway := gateway } ∨
      ∃ vehicles actions, (∀ sent, .sendResponse sent ∉ actions) ∧
        State.call { s with gateway := gateway } e.kind =
          { s with gateway := gateway, vehicles := vehicles,
                   script := actions ++ [.sendResponse true],
                   counts := s.counts ++ [s.vehicles.map Vehicle.count] } := by
  have hlog := (record_of_event hn hg).1
  have hparties := State.call_sameParties { s with gateway := gateway } e.kind
  have hprefix := hnext.log_isPrefix hfits
  rw [hparties.gateway, hparties.server] at hprefix
  simp only at hprefix
  rw [hlog] at hprefix
  have hbegin : ∀ callback : Callback, callback? e = some callback →
      ∃ vehicles actions, (∀ sent, .sendResponse sent ∉ actions) ∧
        State.begin { s with gateway := gateway } (doUpdate s.vehicles callback.data) =
          { s with gateway := gateway, vehicles := vehicles,
                   script := actions ++ [.sendResponse true],
                   counts := s.counts ++ [s.vehicles.map Vehicle.count] } := by
    intro callback hcb
    rw [hcb, Option.toList_some] at hprefix
    obtain ⟨hk, -, hupdate⟩ := hs.update h hsize hprefix
    exact ⟨_, _, sendResponse_not_mem_settings _ _ _, by rw [hupdate]; rfl⟩
  cases hk : e.kind with
  | waitForNextUpdate | forwardUp | stop | unrelated => exact Or.inl rfl
  | doInitialize data =>
      exact Or.inr (hbegin ⟨.doInitialize, data, e.time⟩ (by simp [callback?, hk]))
  | handleUpdate data =>
      exact Or.inr (hbegin ⟨.doUpdate, data, e.time⟩ (by simp [callback?, hk]))

theorem Occurs.responds (h : Occurs O numberOfNodes Undisturbed s) (hfits : O.Fits)
    (hsize : numberOfNodes.toNat ≤ O.numberOfNodes.toNat) : Responds s := by
  obtain ⟨sim, hsim, ht, hr⟩ := h
  refine hr.invariant (Responds.start O sim numberOfNodes) fun s l s' hr hp hok hstep => ?_
  have h : Occurs O numberOfNodes Undisturbed s := ⟨sim, hsim, ht, hr⟩
  have hnext := h.next hok hstep
  have hs := h.sound hfits hsize
  cases Step.of_step hstep with
  | server | reset | receive | lost => exact hp.of_same rfl rfl rfl
  | plain hl _ _ _ hg => exact hp.of_same rfl rfl (sameRecord_of_plain hl hg).outbound
  | @callback action script gateway hscript _ hg =>
      have haction := hs.answers.actions action (by simp [hscript])
      rw [answer_of_ofUpdate hs.intact haction] at hg
      obtain ⟨rfl, -⟩ | ⟨hne, hnot, hlast⟩ := hp.cases_cons hscript
      · obtain ⟨data, -, hperform⟩ := (hnext.sound hfits hsize).answers.outcome
        refine ⟨Or.inl rfl, fun hne => absurd rfl hne, ?_⟩
        have houtbound := Except.ok.inj hperform
        rw [houtbound, State.answered, if_pos rfl, List.take_length]
      · refine hp.quiet hscript hne hlast ?_
        cases Gateway.Step.of_step hg with
        | user => exact transmitted_user haction hnot
  | @event e sim gateway _ hn hg =>
      have hscript : s.script = [] := hs.script_eq_nil (by simp [(loop_of_event hg).1])
      have houtbound := (record_of_event hn hg).2
      obtain heq | ⟨vehicles, actions, hnot, heq⟩ := hs.event_cases h hfits hsize hn hg hnext
      · rw [heq]
        exact hp.of_same rfl rfl houtbound
      · rw [heq]
        exact hp.begin hscript houtbound hnot _

/-- The messages, the responses sent, and the responses received. -/
def State.exchange (s : State) : Exchange (List ServerNode) Str where
  asked := s.server.rounds
  answered := (s.counts.take s.answered).map response
  received := s.server.responses

theorem Responds.transmitted_eq (h : Responds s) :
    s.gateway.core.outbound.transmitted = s.exchange.answered.flatten := h.transmitted

/-- The `recv` of a server that receives every response whole returns the next response. -/
theorem recv_whole (hp : Responds s) (hx : s.exchange.Alternates) {n : ℕ} {chunk : Str}
    (hrecv : s.recv n = some (.bytes chunk)) (hn : s.inFlight.length ≤ n) :
    s.exchange.answered[s.exchange.received.length]? = some chunk := by
  obtain ⟨hpos, hchunk⟩ : 0 < s.inFlight.length ∧ chunk = s.inFlight := by
    unfold State.recv at hrecv
    split at hrecv
    · split at hrecv
      · cases hrecv
      · split at hrecv <;> cases hrecv
    · rename_i hne
      split at hrecv
      · rename_i hguard
        cases hrecv
        exact ⟨by omega, List.take_of_length_le hn⟩
      · cases hrecv
  have hflight : s.inFlight =
      s.exchange.answered.flatten.drop s.exchange.received.flatten.length := by
    rw [State.inFlight, hp.transmitted_eq]
    rfl
  obtain heq | ⟨reply, heq⟩ := hx.outstanding
  · rw [heq, List.drop_length] at hflight
    rw [hflight] at hpos
    cases hpos
  · rw [heq, List.flatten_append, List.drop_left, List.flatten_singleton] at hflight
    rw [heq, List.getElem?_append_right le_rfl, Nat.sub_self, hchunk, hflight]
    rfl

/-- The two programs refine the exchange: a message is a question, the end of a callback is an
answer, and a `recv` receives it. -/
theorem Occurs.exchange (h : Occurs O numberOfNodes Lossless s) (hfits : O.Fits)
    (hsize : numberOfNodes.toNat ≤ O.numberOfNodes.toNat) :
    Reach Exchange.step always Exchange.start s.exchange := by
  obtain ⟨sim, hsim, ht, hr⟩ := h
  refine hr.stuttering State.exchange fun s l s' hr hx hok hstep => ?_
  have hlossless : Occurs O numberOfNodes Lossless s := ⟨sim, hsim, ht, hr⟩
  have h := hlossless.mono fun _ _ hl => hl.2
  have hnext := h.next hok.2 hstep
  have hs := h.sound hfits hsize
  have hp := h.responds hfits hsize
  have halternates := Exchange.alternates hx
  have hphase := h.delivered.orderly.phase
  unfold Server.Phase at hphase
  cases Step.of_step hstep with
  | @server n rand server effect conn hr hc =>
      cases Server.Step.of_step hr with
      | ask hpc hi =>
          simp only [hpc] at hphase
          refine Or.inr ⟨.ask s.server.nodes, trivial, ?_⟩
          have hlen : s.exchange.received.length = s.exchange.asked.length :=
            hphase.2.2.1.trans hphase.2.1.symm
          rw [Exchange.step, if_pos hlen]
          rfl
      | answered hpc hrecv =>
          refine Or.inr ⟨.receive, trivial, ?_⟩
          rw [Exchange.step, recv_whole hp halternates hrecv (hok.1 hpc), Option.map_some]
          rfl
      | askFailed _ _ hb | terminateFailed _ _ hb =>
          rw [hs.intact] at hb
          cases hb
      | last | hungUp | recvFailed | terminate | move | exit => exact Or.inl rfl
  | plain | reset | receive | lost => exact Or.inl rfl
  | @callback action script gateway hscript _ hg =>
      obtain ⟨rfl, -⟩ | ⟨hne, -⟩ := hp.cases_cons hscript
      · have hcons : s.script ≠ [] := by simp [hscript]
        have hbegun := hp.begun hcons
        have hpos := List.length_pos_iff.mpr hbegun
        have hlast : s.counts = s.counts.take s.answered ++ [s.counts.getLast hbegun] := by
          rw [State.answered, if_neg hcons, ← List.dropLast_eq_take, List.dropLast_append_getLast]
        refine Or.inr ⟨.answer (response (s.counts.getLast hbegun)), trivial, ?_⟩
        have hlt : s.exchange.answered.length < s.exchange.asked.length := by
          have hle := h.log_length_le hfits
          rw [← hs.logged] at hle
          simp only [State.exchange, List.length_map, List.length_take, State.answered, if_neg hcons]
          omega
        have hanswers : s.counts.map response = (s.counts.take s.answered).map response ++
            [response (s.counts.getLast hbegun)] := by
          rw [← List.map_singleton, ← List.map_append, ← hlast]
        rw [Exchange.step, if_pos hlt]
        simp only [State.exchange, State.answered, if_true, List.take_length, hanswers]
      · left
        have hcons : s.script ≠ [] := by simp [hscript]
        simp only [State.exchange, State.answered, if_neg hne, if_neg hcons]
  | @event e sim gateway _ hn hg =>
      have hscript : s.script = [] := hs.script_eq_nil (by simp [(loop_of_event hg).1])
      left
      obtain heq | ⟨vehicles, actions, hnot, heq⟩ := hs.event_cases h hfits hsize hn hg hnext
      · rw [heq]
        rfl
      · rw [heq]
        simp [State.exchange, State.answered, hscript]

section Completion

/-- The server sends the signal to terminate when it has had every response. -/
theorem Sound.complete_of_over (hs : Sound O numberOfNodes s) (h : Occurs O numberOfNodes ok s)
    (hover : s.server.Over O) :
    s.server.rounds.length = O.iterations.toNat ∧ s.server.responses.length = O.iterations.toNat := by
  have hbounded := h.delivered.orderly.bounded
  have hphase := h.delivered.orderly.phase
  unfold Server.Phase at hphase
  cases hpc : s.server.pc with
  | loop =>
      simp only [hpc] at hphase
      obtain ⟨hle, hrounds, hresponses, hterminated⟩ := hphase
      obtain hover | hzero := hover
      · have hi := (hterminated.mp hover).1
        exact ⟨hrounds.trans hi, hresponses.trans hi⟩
      · omega
  | recv | received =>
      simp only [hpc] at hphase
      obtain ⟨hlt, -, -, hterminated⟩ := hphase
      obtain hover | hzero := hover
      · rw [hterminated] at hover
        cases hover
      · omega
  | finish =>
      obtain ⟨hrounds, hresponses, -⟩ := hs.complete (Or.inl hpc)
      exact ⟨hrounds, hresponses⟩
  | exited =>
      obtain ⟨hrounds, hresponses, -⟩ := hs.complete (Or.inr hpc)
      exact ⟨hrounds, hresponses⟩
  | failed e => exact absurd hpc (hs.serving e)

/-- The gateway or the simulator has stopped, or the server is done. -/
def State.Stops (O : Options) (s : State) : Prop :=
  s.gateway.core.stopped = true ∨ s.gateway.core.state = .stopping ∨ s.server.Over O ∨
    s.server.pc = .exited

instance (O : Options) (s : State) : Decidable (s.Stops O) :=
  inferInstanceAs (Decidable (_ ∨ _ ∨ (_ ∨ _) ∨ _))

theorem Sound.over_of_stops (hs : Sound O numberOfNodes s) (h : s.Stops O) : s.server.Over O := by
  obtain hstopped | hstopping | hover | hexited := h
  · exact Or.inl (hs.stopped hstopped)
  · exact hs.stopping hstopping
  · exact hover
  · obtain ⟨-, -, hterminated⟩ := hs.complete (Or.inr hexited)
    obtain hzero | hpos := Nat.eq_zero_or_pos O.iterations.toNat
    · exact Or.inr hzero
    · exact Or.inl (hterminated.mpr hpos)

/-- By the time that either program stops, the server has had every response, and the callbacks of all
messages have run to their end. -/
theorem Occurs.complete_of_stops (h : Occurs O numberOfNodes Lossless s) (hfits : O.Fits)
    (hsize : numberOfNodes.toNat ≤ O.numberOfNodes.toNat) (hstops : s.Stops O) :
    s.server.rounds.length = O.iterations.toNat ∧
      s.gateway.core.log = s.server.rounds.mapIdx (roundCallback O) ∧ s.script = [] ∧
      s.server.responses = s.counts.map response ∧ s.counts.length = O.iterations.toNat ∧
      s.inFlight = [] := by
  have hundisturbed := h.mono fun _ _ hl => hl.2
  have hs := hundisturbed.sound hfits hsize
  have hp := hundisturbed.responds hfits hsize
  obtain ⟨hrounds, hresponses⟩ := hs.complete_of_over h (hs.over_of_stops hstops)
  have hanswered : s.exchange.answered = s.server.responses :=
    (Exchange.alternates (h.exchange hfits hsize)).eq_of_received (hrounds.trans hresponses.symm)
  have hlog := hundisturbed.log_length_le hfits
  have hlen : min s.answered s.counts.length = O.iterations.toNat := by
    have hlen := congrArg List.length hanswered
    rwa [State.exchange, List.length_map, List.length_take, hresponses] at hlen
  have hcounts : s.counts.length = O.iterations.toNat := by
    have hle := min_le_right s.answered s.counts.length
    have hlogged := hs.logged
    omega
  have hscript : s.script = [] := by
    by_contra hne
    have hpos := List.length_pos_iff.mpr (hp.begun hne)
    rw [State.answered, if_neg hne] at hlen
    omega
  have hall : s.server.responses = s.counts.map response := by
    rw [← hanswered, State.exchange, State.answered, if_pos hscript, List.take_length]
  refine ⟨hrounds, ?_, hscript, hall, hcounts, ?_⟩
  · refine (hundisturbed.log_isPrefix hfits).eq_of_length ?_
    rw [List.length_mapIdx, hrounds, ← hcounts, hs.logged]
  · rw [State.inFlight, hp.transmitted_eq, hanswered, List.drop_length]

end Completion

/-- A server that has had every response whole closes a connection on which nothing is under way. -/
theorem Occurs.lossless (h : Occurs O numberOfNodes Whole s) (hfits : O.Fits)
    (hsize : numberOfNodes.toNat ≤ O.numberOfNodes.toNat) : Occurs O numberOfNodes Lossless s := by
  obtain ⟨sim, hsim, ht, hr⟩ := h
  refine hr.invariant (P := Occurs O numberOfNodes Lossless) ⟨sim, hsim, ht, .start⟩
    fun s l s' _ h hok hstep => h.next ⟨hok, ?_⟩ hstep
  cases l with
  | fail => exact hok
  | reset =>
      have hs := (h.mono fun _ _ hl => hl.2).sound hfits hsize
      cases Step.of_step hstep with
      | plain hl => cases hl
      | reset _ _ hb =>
          obtain ⟨hexited, -, hflight⟩ := hs.exited_of_pipeBroken h hb
          have hstops : s.Stops O := Or.inr (Or.inr (Or.inr hexited))
          exact hflight (h.complete_of_stops hfits hsize hstops).2.2.2.2.2
  | server | reader | callback | receive | network | resume | drain | event | join | destroy =>
      exact trivial

/-- Every message is answered before the next one is sent, with the counts that its callback found,
and no callback runs ahead of its message. -/
theorem lock_step (h : Occurs O numberOfNodes Whole s) (hfits : O.Fits)
    (hsize : numberOfNodes.toNat ≤ O.numberOfNodes.toNat) :
    Reach Exchange.step always Exchange.start s.exchange ∧
      s.server.responses = (s.counts.take s.server.responses.length).map response ∧
      s.server.responses.length ≤ s.gateway.core.log.length ∧
      s.gateway.core.log.length ≤ s.server.rounds.length ∧
      s.server.rounds.length ≤ s.server.responses.length + 1 := by
  have hlossless := h.lossless hfits hsize
  have hundisturbed := hlossless.mono fun _ _ hl => hl.2
  have hx := hlossless.exchange hfits hsize
  obtain ⟨hreceived, -, hasked⟩ := Exchange.alternates hx
  have hle : s.server.responses.length ≤ s.answered ⊓ s.counts.length := by
    have hle := hreceived.length_le
    rwa [State.exchange, List.length_map, List.length_take] at hle
  refine ⟨hx, ?_, ?_, hundisturbed.log_length_le hfits, hasked⟩
  · have hprefix := List.prefix_iff_eq_take.mp hreceived
    simp only [State.exchange, ← List.map_take, List.take_take] at hprefix
    rwa [min_eq_left (hle.trans inf_le_left)] at hprefix
  · rw [← (hundisturbed.sound hfits hsize).logged]
    exact hle.trans inf_le_right

theorem lock_step_session :
    ∃ s, State.after sessionOptions Whole 2 (Label.firstRound ++ Label.secondRound) = some s ∧
      s.server.rounds.length = 2 ∧ s.gateway.core.log.length = 2 ∧
      s.server.responses = [response [0, 1]] := by
  have hrun : (State.after sessionOptions Whole 2 (Label.firstRound ++ Label.secondRound)).any
      (fun s => s.server.rounds.length = 2 ∧ s.gateway.core.log.length = 2 ∧
        s.server.responses.length = 1 ∧ s.counts.take 1 = [[0, 1]]) := by
    decide +kernel
  obtain ⟨s, hs, hp⟩ := (Option.any_eq_true _ _).mp hrun
  obtain ⟨hrounds, hlog, hlen, hcounts⟩ := of_decide_eq_true hp
  obtain ⟨-, hresponses, -⟩ := lock_step (.of_after hs) sessionOptions_fits (by decide)
  rw [hlen, hcounts] at hresponses
  exact ⟨s, hs, hrounds, hlog, hresponses⟩

/-- Nothing is lost at the end: by the time that either program stops, the server has had every
response, and the callbacks of all messages have run to their end at the times of the messages. -/
theorem complete_when_stopped (h : Occurs O numberOfNodes Whole s) (hfits : O.Fits)
    (hsize : numberOfNodes.toNat ≤ O.numberOfNodes.toNat) (hstops : s.Stops O) :
    s.server.rounds.length = O.iterations.toNat ∧
      s.gateway.core.log = s.server.rounds.mapIdx (roundCallback O) ∧ s.script = [] ∧
      s.server.responses = s.counts.map response ∧ s.counts.length = O.iterations.toNat ∧
      s.inFlight = [] :=
  (h.lossless hfits hsize).complete_of_stops hfits hsize hstops

theorem complete_when_stopped_session :
    ∃ s, State.after sessionOptions Whole 2 Label.session = some s ∧ s.Stops sessionOptions ∧
      s.server.rounds.length = 2 ∧ s.gateway.core.log.length = 2 ∧ s.inFlight = [] := by
  have hrun : (State.after sessionOptions Whole 2 Label.session).any
      (fun s => s.Stops sessionOptions ∧ s.gateway.core.log.length = 2) := by
    decide +kernel
  obtain ⟨s, hs, hp⟩ := (Option.any_eq_true _ _).mp hrun
  obtain ⟨hstops, hlog⟩ := of_decide_eq_true hp
  obtain ⟨hrounds, -, -, -, -, hflight⟩ :=
    complete_when_stopped (.of_after hs) sessionOptions_fits (by decide) hstops
  exact ⟨s, hs, hstops, hrounds, hlog, hflight⟩

end Ns3Cosim.SimpleGateway
