import Ns3Cosim.Gateway.Int64
import Ns3Cosim.Gateway.Runs

/-!
# The system with 64-bit times

`ForwardUp` and `HandleUpdate` with the arithmetic of `Time`, a signed 64-bit
number of nanoseconds. Everything else that a gateway does, it does without
arithmetic on times, so that the other steps are those of `step`.

## Implementation notes

`sim.now` is the time stamp under which the scheduler keeps its events, and
`Simulator::Now()` is what the 64 bits of a `Time` keep of it.
-/

namespace Ns3Cosim.Gateway

open Execution

variable {D : Delimiters}

/-- The header and the values of a message: `Seconds(s) + NanoSeconds(ns)` is a sum of two `Time`s.
The seconds are 32 bits wide, so their product does not wrap. -/
def readMessage64 (D : Delimiters) (message : Str) : Except FatalError (ℤ × List Str) :=
  match splitMessage D message with
  | seconds :: nanoseconds :: values =>
      match stoi seconds, stol nanoseconds with
      | some s, some ns => .ok (wrap64 (s * nanosecondsPerSecond + ns), values)
      | _, _ => .error .invalidHeader
  | _ => .error .invalidHeader

/-- The timestamp and the values of a message, unless its header is invalid or it is taken for the
signal to terminate. -/
def update64? (D : Delimiters) (message : Str) : Option (ℤ × List Str) :=
  match readMessage64 D message with
  | .ok (timestamp, values) => if timestamp < 0 then none else some (timestamp, values)
  | .error _ => none

/-- `Simulator::Now()`. -/
def Core.now64 (c : Core) : ℤ := wrap64 c.sim.now

/-- The last branch of `ForwardUp`. -/
def Core.grant64 (c : Core) (timestamp : ℤ) (values : List Str) : Core :=
  let c := c.cancelWait
  let c := { c with timePause := wrap64 (timestamp - c.timeStart) }
  let timeDelta := wrap64 (c.timePause - c.now64)
  if timeDelta < 0 then c.fail .timestampsNotIncreasing
  else { c with sim := c.sim.schedule timeDelta.toNat (.handleUpdate values) }

/-- The second half of `ForwardUp`. -/
def Core.process64 (c : Core) (timestamp : ℤ) (values : List Str) : Core :=
  if timestamp < 0 then { c with stopped := true }
  else if c.timeStart < 0 then
    { c with timeStart := timestamp, sim := c.sim.scheduleNow (.doInitialize values) }
  else c.grant64 timestamp values

/-- `Gateway::ForwardUp`. -/
def Core.forwardUp64 (D : Delimiters) (c : Core) : Core :=
  match c.messageQueue with
  | [] => c.fail .noQueuedMessage
  | message :: messages =>
      match readMessage64 D message with
      | .error e => (c.pop message messages).fail e
      | .ok (timestamp, values) => (c.pop message messages).process64 timestamp values

/-- `Gateway::HandleUpdate` up to the user code of `DoUpdate`. -/
def Core.handleUpdate64 (c : Core) (data : List Str) : Core :=
  let c := if c.now64 = c.timePause then c.scheduleWait else c
  { c with log := c.log ++ [⟨.doUpdate, data, c.sim.now⟩] }

/-- The function of an event. -/
def State.execute64 (D : Delimiters) (s : State) : Kind → State
  | .forwardUp => { s with core := s.core.forwardUp64 D, main := .drain }
  | .handleUpdate data => { s with core := s.core.handleUpdate64 data, main := .user true }
  | kind => s.execute D kind

/-- What the label does to a system that runs. -/
def State.act64 (D : Delimiters) (s : State) : Label → Option State
  | .event =>
      if s.main = .loop ∧ s.core.stopped = false then
        s.core.sim.next?.map fun p => { s with core := s.core.advance p.2 }.execute64 D p.1.kind
      else none
  | label => s.act D label

/-- One step of the system with 64-bit times. -/
def step64 (D : Delimiters) (s : State) (l : Label) : Option State :=
  if s.core.fatal = none then s.act64 D l else none

/-- The state occurs in a run, with steps that all meet `ok`, of the system with 64-bit times. The
time of `Connect` is a `Time`, too. -/
def Occurs64 (D : Delimiters) (ok : State → Label → Prop) (t₀ : ℤ) (s : State) : Prop :=
  ∃ (sim : Simulator Kind) (outbound : Outbound),
    (∀ e ∈ sim.queue, e.kind = .unrelated) ∧ sim.now = t₀ ∧ InInt64 t₀ ∧
      Reach (step64 D) ok (.connected sim outbound) s

/-- The state after the given steps, as `State.after` has it. -/
def State.after64 (D : Delimiters) (ok : State → Label → Prop) [∀ s l, Decidable (ok s l)] (t₀ : ℤ)
    (n : ℕ) (labels : List Label) : Option State :=
  run (guarded ok (step64 D)) (.connected (.empty t₀) (.construct n)) labels

/-- The sum is the only part of the header that 64 bits bound. -/
theorem readMessage64_eq (D : Delimiters) (message : Str) :
    readMessage64 D message = (readMessage D message).map fun u => (wrap64 u.1, u.2) := by
  unfold readMessage64 readMessage
  cases splitMessage D message with
  | nil => rfl
  | cons seconds fields =>
      cases fields with
      | nil => rfl
      | cons nanoseconds values =>
          dsimp only
          cases stoi seconds <;> cases stol nanoseconds <;> rfl

/-- A timestamp is a `Time`. -/
theorem readMessage64_inInt64 {message : Str} {u : ℤ × List Str}
    (h : readMessage64 D message = .ok u) : InInt64 u.1 := by
  rw [readMessage64_eq] at h
  cases hr : readMessage D message with
  | error e =>
      rw [hr] at h
      cases h
  | ok v =>
      rw [hr] at h
      cases h
      exact wrap64_inInt64 _

theorem update64?_of_nonneg {message : Str} {u : ℤ × List Str}
    (hr : readMessage64 D message = .ok u) (hpos : 0 ≤ u.1) : update64? D message = some u := by
  obtain ⟨timestamp, values⟩ := u
  simp only [update64?, hr, if_neg (not_lt.mpr hpos)]

/-- `timeDelta` is what 64 bits keep of the exact distance. -/
theorem Core.grant64_eq (c : Core) (timestamp : ℤ) (values : List Str) :
    c.grant64 timestamp values =
      let timeDelta := wrap64 (timestamp - c.timeStart - c.sim.now)
      let granted : Core := { c with timePause := wrap64 (timestamp - c.timeStart),
                                     sim := c.sim.cancel c.eventWait }
      if timeDelta < 0 then granted.fail .timestampsNotIncreasing
      else { granted with sim := granted.sim.schedule timeDelta.toNat (.handleUpdate values) } := by
  simp only [Core.grant64, c.cancelWait_eq, Core.now64, Simulator.cancel_now, wrap64_sub_wrap64]

/-- An update is granted as without bounds when the distances fit. -/
theorem Core.grant64_of_inInt64 {c : Core} {timestamp : ℤ} (values : List Str)
    (hpause : InInt64 (timestamp - c.timeStart))
    (hdelta : InInt64 (timestamp - c.timeStart - c.sim.now)) :
    c.grant64 timestamp values = c.grant timestamp values := by
  simp only [Core.grant64_eq, wrap64_of_inInt64 hpause, wrap64_of_inInt64 hdelta, Core.grant,
    c.cancelWait_eq, Simulator.cancel_now]

/-- `HandleUpdate` finds the granted time as without bounds when the current time fits. -/
theorem Core.handleUpdate64_of_inInt64 {c : Core} (data : List Str) (h : InInt64 c.sim.now) :
    c.handleUpdate64 data = c.handleUpdate data := by
  simp only [Core.handleUpdate64, Core.now64, wrap64_of_inInt64 h, Core.handleUpdate]

/-- Every step is a step of the system without bounds, or it executes one of the two functions that
calculate with times. -/
inductive Step64 (D : Delimiters) (s : State) : Label → State → Prop
  | same {l : Label} {s' : State} (hstep : step D s l = some s')
      (hforward : ¬ s.Executes l .forwardUp)
      (hupdate : ∀ data, ¬ s.Executes l (.handleUpdate data)) : Step64 D s l s'
  | forwardUp {e : Event Kind} {sim : Simulator Kind} (hm : s.main = .loop)
      (hs : s.core.stopped = false) (hn : s.core.sim.next? = some (e, sim))
      (hk : e.kind = .forwardUp) :
      Step64 D s .event { s with core := (s.core.advance sim).forwardUp64 D, main := .drain }
  | handleUpdate {e : Event Kind} {sim : Simulator Kind} {data : List Str} (hm : s.main = .loop)
      (hs : s.core.stopped = false) (hn : s.core.sim.next? = some (e, sim))
      (hk : e.kind = .handleUpdate data) :
      Step64 D s .event
        { s with core := (s.core.advance sim).handleUpdate64 data, main := .user true }

variable {s s' : State} {l : Label}

theorem step64_eq_some (h : step64 D s l = some s') :
    s.core.fatal = none ∧ s.act64 D l = some s' := by
  unfold step64 at h
  split at h
  · exact ⟨‹_›, h⟩
  · cases h

theorem Step64.of_step64 (h : step64 D s l = some s') : Step64 D s l s' := by
  obtain ⟨hf, hact⟩ := step64_eq_some h
  by_cases hl : l = .event
  · subst hl
    simp only [State.act64] at hact
    split at hact
    · rename_i hg
      obtain ⟨⟨e, sim⟩, hn, rfl⟩ := Option.map_eq_some_iff.mp hact
      have hsame (hkind : { s with core := s.core.advance sim }.execute64 D e.kind =
            { s with core := s.core.advance sim }.execute D e.kind)
          (hforward : e.kind ≠ .forwardUp) (hupdate : ∀ data, e.kind ≠ .handleUpdate data) :
          Step64 D s .event ({ s with core := s.core.advance sim }.execute64 D e.kind) := by
        refine Step64.same ?_ (fun hx => hforward ((State.executes_iff hn).mp hx))
          fun data hx => hupdate data ((State.executes_iff hn).mp hx)
        rw [step, if_pos hf, State.act, if_pos hg, hn, Option.map_some, hkind]
      cases hk : e.kind with
      | forwardUp => exact Step64.forwardUp hg.1 hg.2 hn hk
      | handleUpdate data => exact Step64.handleUpdate hg.1 hg.2 hn hk
      | waitForNextUpdate | stop | doInitialize | unrelated =>
          rw [← hk]
          exact hsame (by rw [hk]; rfl) (by simp [hk]) (by simp [hk])
    · cases hact
  · have heq : s.act64 D l = s.act D l := by
      cases l with
      | event => exact absurd rfl hl
      | server | reader | user | resume | drain | join | destroy => rfl
    refine Step64.same ?_ (fun hx => hl hx.1) fun _ hx => hl hx.1
    rw [step, if_pos hf, ← heq]
    exact hact

namespace Occurs64

variable {ok : State → Label → Prop} {t₀ : ℤ}

theorem of_after64 {n : ℕ} {labels : List Label} [∀ s l, Decidable (ok s l)] (ht : InInt64 t₀)
    (h : State.after64 D ok t₀ n labels = some s) : Occurs64 D ok t₀ s :=
  ⟨.empty t₀, .construct n, by simp [Simulator.empty], rfl, ht, .of_run h⟩

/-- Induction over runs, with what is known of the states before. -/
theorem induct {P : State → Prop}
    (start : ∀ sim outbound, (∀ e ∈ sim.queue, e.kind = .unrelated) → sim.now = t₀ → InInt64 t₀ →
      P (.connected sim outbound))
    (step : ∀ s l s', P s → ok s l → step64 D s l = some s' → P s')
    (h : Occurs64 D ok t₀ s) : P s := by
  obtain ⟨sim, outbound, hsim, ht, hfits, hr⟩ := h
  exact hr.invariant (start sim outbound hsim ht hfits) fun s l s' _ hs hok hstep =>
    step s l s' hs hok hstep

end Occurs64

end Ns3Cosim.Gateway
