import Ns3Cosim.SimpleGateway.System

/-!
# What a step of the two programs can do

A step moves the server, or the gateway program, or the code of the derived
class. The gateway of a run of the two programs is a gateway of `Gateway.Occurs`,
so everything proved of every gateway holds of this one.
-/

namespace Ns3Cosim.SimpleGateway

open Gateway Execution

/-- The step of the gateway program that runs no code of the derived class. -/
def Label.plain : Label → Option Gateway.Label
  | .fail => some (.server .fail)
  | .reader n => some (.reader n)
  | .network delay => some (.user (.schedule delay))
  | .resume => some .resume
  | .drain => some .drain
  | .join => some .join
  | .destroy => some .destroy
  | .server _ _ | .callback | .reset | .receive _ | .event => none

/-- Everything that one step can do, with the guards under which it does it. -/
inductive Step (O : Options) (s : State) : Label → State → Prop
  | server {n : ℕ} {rand : ℕ → ℕ × ℕ} {server : Server} {effect : ServerEffect} {conn : Connection}
      (hr : s.server.step O s.gateway.conn.failed (s.recv n) rand = some (server, effect))
      (hc : s.deliver effect = some conn) :
      Step O s (.server n rand) { s with server := server, gateway.conn := conn }
  | plain {l : Label} {l' : Gateway.Label} {gateway : Gateway.State} (hl : l.plain = some l')
      (hscript : l = .resume → s.script = [])
      (hnetwork : ∀ delay, l = .network delay → s.gateway.main = .user false)
      (ha : s.aborted = none)
      (hg : Gateway.step defaultDelimiters s.gateway l' = some gateway) :
      Step O s l { s with gateway := gateway }
  | callback {action : UserAction} {script : List UserAction} {gateway : Gateway.State}
      (hs : s.script = action :: script) (ha : s.aborted = none)
      (hg : Gateway.step defaultDelimiters s.gateway (.user (answer s.gateway.conn action)) =
        some gateway) :
      Step O s .callback { s with script := script, gateway := gateway }
  | reset {sent : Bool} {script : List UserAction} (hs : s.script = .sendResponse sent :: script)
      (ha : s.Alive) (hb : s.PipeBroken) :
      Step O s .reset { s with aborted := some .brokenPipe }
  | receive {id : ℕ} (ha : s.Alive) (hm : s.gateway.main = .user false)
      (hid : id < s.vehicles.length) {vehicles : List Vehicle}
      (hv : handleReceive s.vehicles (decimal id) = .ok vehicles) :
      Step O s (.receive id) { s with vehicles := vehicles }
  | lost {id : ℕ} (ha : s.Alive) (hm : s.gateway.main = .user false)
      (hid : id < s.vehicles.length) {e : UpdateError}
      (hv : handleReceive s.vehicles (decimal id) = .error e) :
      Step O s (.receive id) { s with aborted := some e }
  | event {e : Event Kind} {sim : Simulator Kind} {gateway : Gateway.State}
      (ha : s.aborted = none) (hn : s.gateway.core.sim.next? = some (e, sim))
      (hg : Gateway.step defaultDelimiters s.gateway .event = some gateway) :
      Step O s .event (State.call { s with gateway := gateway } e.kind)

variable {O : Options} {s s' : State} {l : Label}

theorem State.main_eq_some {l : Gateway.Label} (h : s.main l = some s') :
    s.aborted = none ∧ ∃ gateway,
      Gateway.step defaultDelimiters s.gateway l = some gateway ∧
        s' = { s with gateway := gateway } := by
  unfold State.main at h
  split at h
  · rename_i ha
    obtain ⟨gateway, hg, rfl⟩ := Option.map_eq_some_iff.mp h
    exact ⟨ha, gateway, hg, rfl⟩
  · cases h

theorem Step.of_main {l' : Gateway.Label} (hl : l.plain = some l')
    (hscript : l = .resume → s.script = [])
    (hnetwork : ∀ delay, l = .network delay → s.gateway.main = .user false)
    (h : s.main l' = some s') : Step O s l s' := by
  obtain ⟨ha, gateway, hg, rfl⟩ := State.main_eq_some h
  exact Step.plain hl hscript hnetwork ha hg

/-- Every step has one of the forms of `Step`. -/
theorem Step.of_step (h : step O s l = some s') : Step O s l s' := by
  cases l with
  | server n rand =>
      obtain ⟨⟨server, effect⟩, hr, h⟩ := Option.bind_eq_some_iff.mp h
      obtain ⟨conn, hc, rfl⟩ := Option.map_eq_some_iff.mp h
      exact Step.server hr hc
  | fail | reader | drain | join | destroy => exact Step.of_main rfl (by simp) (by simp) h
  | callback =>
      simp only [SimpleGateway.step] at h
      split at h
      · cases h
      · rename_i action script hs
        obtain ⟨ha, gateway, hg, rfl⟩ := State.main_eq_some h
        exact Step.callback hs ha hg
  | reset =>
      simp only [SimpleGateway.step] at h
      split at h
      · rename_i hs
        split at h
        · rename_i hguard
          obtain ⟨ha, -, -, hb⟩ := hguard
          cases h
          exact Step.reset hs ha hb
        · cases h
      · cases h
  | receive id =>
      simp only [SimpleGateway.step] at h
      split at h
      · rename_i hguard
        obtain ⟨ha, hm, hid⟩ := hguard
        split at h
        · rename_i vehicles hv
          cases h
          exact Step.receive ha hm hid hv
        · rename_i e hv
          cases h
          exact Step.lost ha hm hid hv
      · cases h
  | network delay =>
      simp only [SimpleGateway.step] at h
      split at h
      · rename_i hm
        exact Step.of_main rfl (by simp) (fun _ _ => hm) h
      · cases h
  | resume =>
      simp only [SimpleGateway.step] at h
      split at h
      · rename_i hs
        exact Step.of_main rfl (fun _ => hs) (by simp) h
      · cases h
  | event =>
      obtain ⟨⟨e, sim⟩, hn, h⟩ := Option.bind_eq_some_iff.mp h
      obtain ⟨t, ht, rfl⟩ := Option.map_eq_some_iff.mp h
      obtain ⟨ha, gateway, hg, rfl⟩ := State.main_eq_some ht
      exact Step.event ha hn hg

/-- Without a failure of the network only the other forms of a step occur. -/
theorem Unbroken.ne_fail (h : Unbroken s l) : l ≠ .fail := by
  rintro rfl
  exact h

theorem Undisturbed.unbroken (h : Undisturbed s l) : Unbroken s l := by
  cases l with
  | fail => exact h
  | _ => exact trivial

/-- The code of the derived class leaves the gateway and the server to their own steps. -/
structure State.SameParties (s s' : State) : Prop where
  gateway : s'.gateway = s.gateway
  server : s'.server = s.server

theorem State.begin_sameParties (s : State)
    (result : Except UpdateError (List Vehicle × List UserAction)) :
    s.SameParties (s.begin result) := by
  unfold State.begin
  split <;> exact ⟨rfl, rfl⟩

theorem State.call_sameParties (s : State) (kind : Kind) : s.SameParties (s.call kind) := by
  cases kind with
  | doInitialize | handleUpdate => exact s.begin_sameParties _
  | waitForNextUpdate | forwardUp | stop | unrelated => exact ⟨rfl, rfl⟩

/-- A step of the server is one of the gateway's connection, or nothing for the gateway. -/
theorem State.deliver_cases {effect : ServerEffect} {conn : Connection}
    (h : s.deliver effect = some conn) :
    conn = s.gateway.conn ∨
      ∃ action, effect.action = some action ∧ s.Alive ∧ s.gateway.conn.act action = some conn := by
  unfold State.deliver at h
  split at h
  · cases h
    exact Or.inl rfl
  · rename_i action haction
    split at h
    · rename_i halive
      exact Or.inr ⟨action, haction, halive, h⟩
    · cases h
      exact Or.inl rfl

/-- The server does not break a connection. -/
theorem State.deliver_intact {effect : ServerEffect} {conn : Connection}
    (hintact : s.gateway.conn.failed = false) (h : s.deliver effect = some conn) :
    conn.failed = false := by
  obtain rfl | ⟨action, haction, -, hact⟩ := State.deliver_cases h
  · exact hintact
  · cases effect with
    | silent => cases haction
    | send bytes =>
        cases haction
        simp only [Connection.act] at hact
        split at hact
        · cases hact
        · cases hact
          exact hintact
    | close =>
        cases haction
        cases hact
        exact hintact

/-- To the gateway, a step of the two programs is one step or none. -/
theorem Step.gateway (h : Step O s l s') : s'.gateway = s.gateway ∨
    ∃ l', Gateway.step defaultDelimiters s.gateway l' = some s'.gateway := by
  cases h with
  | @server n rand server effect conn _ hc =>
      obtain rfl | ⟨action, -, halive, hact⟩ := State.deliver_cases hc
      · exact Or.inl rfl
      · refine Or.inr ⟨.server action, ?_⟩
        simp only [Gateway.step, halive.1, if_true, State.act, hact, Option.map_some]
  | plain _ _ _ _ hg => exact Or.inr ⟨_, hg⟩
  | callback _ _ hg => exact Or.inr ⟨_, hg⟩
  | reset | receive | lost => exact Or.inl rfl
  | event _ _ hg =>
      rw [(State.call_sameParties _ _).gateway]
      exact Or.inr ⟨_, hg⟩

/-- What only the server and the network change of a connection. -/
structure SameStream (c c' : Connection) : Prop where
  sent : c'.sent = c.sent
  closed : c'.closed = c.closed
  failed : c'.failed = c.failed

theorem SameStream.refl (c : Connection) : SameStream c c := ⟨rfl, rfl, rfl⟩

theorem SameStream.input {g : Gateway.State} {n : ℕ} {i : Option Recv × Connection}
    (h : g.input n = some i) : SameStream g.conn i.2 := by
  unfold State.input at h
  split at h
  · obtain ⟨⟨result, conn⟩, hrecv, rfl⟩ := Option.map_eq_some_iff.mp h
    unfold Connection.recv at hrecv
    split at hrecv
    · split at hrecv
      · cases hrecv
        exact refl _
      · split at hrecv
        · cases hrecv
          exact refl _
        · cases hrecv
    · split at hrecv
      · cases hrecv
        exact ⟨rfl, rfl, rfl⟩
      · cases hrecv
  · cases h
    exact refl _

/-- The gateway program leaves the stream of the server alone. -/
theorem SameStream.step {g g' : Gateway.State} {l : Gateway.Label}
    (hl : ∀ action, l ≠ .server action) (h : Gateway.step defaultDelimiters g l = some g') :
    SameStream g.conn g'.conn := by
  cases Gateway.Step.of_step h with
  | server => exact absurd rfl (hl _)
  | silent hi => exact input hi
  | push | scheduleForwardUp | scheduleStop | user | resume | insert | drained | wait | forwardUp
  | doInitialize | handleUpdate | unrelated | join => exact refl _
  | stop =>
      rw [(Gateway.State.stop_frame _ _).conn]
      exact refl _
  | destroy =>
      rw [g.destroy_frame.conn]
      exact refl _

section Session

/-- The state after the given steps, all of which meet `ok`, in a simulator without other events. -/
def State.after (O : Options) (ok : State → Label → Prop) [∀ s l, Decidable (ok s l)]
    (numberOfNodes : UInt16) (labels : List Label) : Option State :=
  run (guarded ok (SimpleGateway.step O)) (.start O (.empty 0) numberOfNodes) labels

instance (s : State) (l : Label) : Decidable (Unbroken s l) :=
  match l with
  | .fail => .isFalse id
  | .server _ _ | .reader _ | .callback | .reset | .receive _ | .network _ | .resume | .drain
  | .event | .join | .destroy => .isTrue trivial

/-- Two iterations with two nodes, from the fifth second on. -/
def sessionOptions : Options := ⟨5, 2, 2, 2, 25, by decide⟩

/-- The next step of the server, after which a `recv` has returned `n` bytes. -/
def Label.serve (n : ℕ) : Label := .server n fun i => (i + 3, i)

/-- The server sends a message of `n` bytes, and the reader hands it over. -/
def Label.message (n : ℕ) : List Label :=
  [serve 0, .reader 0, .reader 0, .reader n, .reader 0, .reader 0, .reader 0]

/-- A vehicle receives a broadcast before the first message is handled. -/
def Label.firstRound : List Label := message 33 ++
  [.network 0, .resume, .drain, .drain, .event, .drain, .event, .receive 1, .resume, .drain, .event,
    .drain, .event, .drain, .event, .callback, .callback, .callback, .resume, .drain]

/-- The second message lets the first node broadcast. -/
def Label.secondRound : List Label := [serve 5, serve 0] ++ message 33 ++
  [.event, .drain, .drain, .event, .drain, .event, .drain, .event, .callback, .callback, .callback,
    .callback]

/-- The signal to terminate ends both programs. -/
def Label.lastRound : List Label := [serve 5] ++ message 6 ++
  [.resume, .drain, .drain, .event, .drain, .event, .resume, .drain, .event, .drain, serve 0,
    serve 0, .reader 0, .reader 0, .reader 0, .destroy, .reader 0, .join]

/-- Everything that the two programs do. -/
def Label.session : List Label := firstRound ++ secondRound ++ lastRound

end Session

variable {numberOfNodes : UInt16} {ok : State → Label → Prop}

namespace Occurs

theorem next (h : Occurs O numberOfNodes ok s) (hok : ok s l) (hstep : step O s l = some s') :
    Occurs O numberOfNodes ok s' := by
  obtain ⟨sim, hsim, ht, hr⟩ := h
  exact ⟨sim, hsim, ht, hr.next hok hstep⟩

theorem mono {ok' : State → Label → Prop} (hok : ∀ s l, ok s l → ok' s l)
    (h : Occurs O numberOfNodes ok s) : Occurs O numberOfNodes ok' s := by
  obtain ⟨sim, hsim, ht, hr⟩ := h
  exact ⟨sim, hsim, ht, hr.mono hok⟩

/-- Induction over runs, with what is known of the states before. -/
theorem induct {P : State → Prop}
    (start : ∀ sim, (∀ e ∈ sim.queue, e.kind = .unrelated) → sim.now = 0 →
      P (.start O sim numberOfNodes))
    (step : ∀ s l s', Occurs O numberOfNodes ok s → P s → ok s l → Step O s l s' → P s')
    (h : Occurs O numberOfNodes ok s) : P s := by
  obtain ⟨sim, hsim, ht, hr⟩ := h
  refine hr.invariant (start sim hsim ht) fun s l s' hr hs hok hstep => ?_
  exact step s l s' ⟨sim, hsim, ht, hr⟩ hs hok (Step.of_step hstep)

theorem of_after {labels : List Label} [∀ s l, Decidable (ok s l)]
    (h : State.after O ok numberOfNodes labels = some s) : Occurs O numberOfNodes ok s :=
  ⟨.empty 0, by simp [Simulator.empty], rfl, .of_run h⟩

/-- The gateway occurs in a run of the gateway with its reader thread and some server. -/
theorem gateway (h : Occurs O numberOfNodes ok s) :
    Gateway.Occurs defaultDelimiters always 0 s.gateway := by
  obtain ⟨sim, hsim, ht, hr⟩ := h
  refine ⟨sim, .construct numberOfNodes.toNat, hsim, ht, ?_⟩
  refine hr.stuttering State.gateway fun s l s' _ _ _ hstep => ?_
  obtain heq | ⟨l', hg⟩ := (Step.of_step hstep).gateway
  · exact Or.inl heq
  · exact Or.inr ⟨l', trivial, hg⟩

end Occurs

end Ns3Cosim.SimpleGateway
