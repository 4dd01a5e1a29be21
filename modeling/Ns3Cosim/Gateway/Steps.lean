import Ns3Cosim.Gateway.System

/-!
# What a step of the system can do

`Step` lists the forms of a step, one for each function that an event calls and
one for each place of the reader thread from which something leaves it. Every
invariant is a case analysis over `Step`; none unfolds `step`.
-/

namespace Ns3Cosim.Gateway

open Execution

/-- Everything that one step can do, with the guards under which it does it. -/
inductive Step (D : Delimiters) (s : State) : Label → State → Prop
  | server {action : ServerAction} {conn : Connection} (h : s.conn.act action = some conn) :
      Step D s (.server action) { s with conn := conn }
  | silent {n : ℕ} {i : Option Recv × Connection} {r : Reader} (hi : s.input n = some i)
      (hr : s.reader.step D s.core.state i.1 = some (r, .silent)) :
      Step D s (.reader n) { s with reader := r, conn := i.2 }
  | push {n : ℕ} {message : Str} (hpc : s.reader.pc = .push message) :
      Step D s (.reader n)
        { s with reader.pc := .schedule,
                 core.messageQueue := s.core.messageQueue ++ [message],
                 pushed := s.pushed ++ [message] }
  | scheduleForwardUp {n : ℕ} (hpc : s.reader.pc = .schedule) :
      Step D s (.reader n)
        { s with reader.pc := .test, handoff := s.handoff ++ [.forwardUp] }
  | scheduleStop {n : ℕ} (hpc : s.reader.pc = .failed) :
      Step D s (.reader n)
        { s with reader.pc := .exited, handoff := s.handoff ++ [.stop] }
  | user {action : UserAction} {callback : Bool} (hm : s.main = .user callback) :
      Step D s (.user action) { s with core := s.core.user D action }
  | resume {callback : Bool} (hm : s.main = .user callback) :
      Step D s .resume { s with main := .drain }
  | insert {kind : Kind} {kinds : List Kind} (hm : s.main = .drain)
      (hh : s.handoff = kind :: kinds) :
      Step D s .drain { s with core.sim := s.core.sim.scheduleNow kind, handoff := kinds }
  | drained (hm : s.main = .drain) (hh : s.handoff = []) :
      Step D s .drain { s with main := .loop }
  | wait {e : Event Kind} {sim : Simulator Kind} (hm : s.main = .loop)
      (hs : s.core.stopped = false) (hn : s.core.sim.next? = some (e, sim))
      (hk : e.kind = .waitForNextUpdate) :
      Step D s .event { s with core := (s.core.advance sim).waitForNextUpdate, main := .drain }
  | forwardUp {e : Event Kind} {sim : Simulator Kind} (hm : s.main = .loop)
      (hs : s.core.stopped = false) (hn : s.core.sim.next? = some (e, sim))
      (hk : e.kind = .forwardUp) :
      Step D s .event { s with core := (s.core.advance sim).forwardUp D, main := .drain }
  | stop {e : Event Kind} {sim : Simulator Kind} (hm : s.main = .loop)
      (hs : s.core.stopped = false) (hn : s.core.sim.next? = some (e, sim))
      (hk : e.kind = .stop) :
      Step D s .event ({ s with core := s.core.advance sim }.stop false)
  | doInitialize {e : Event Kind} {sim : Simulator Kind} {data : List Str} (hm : s.main = .loop)
      (hs : s.core.stopped = false) (hn : s.core.sim.next? = some (e, sim))
      (hk : e.kind = .doInitialize data) :
      Step D s .event
        { s with core := (s.core.advance sim).doInitialize data, main := .user true }
  | handleUpdate {e : Event Kind} {sim : Simulator Kind} {data : List Str} (hm : s.main = .loop)
      (hs : s.core.stopped = false) (hn : s.core.sim.next? = some (e, sim))
      (hk : e.kind = .handleUpdate data) :
      Step D s .event
        { s with core := (s.core.advance sim).handleUpdate data, main := .user true }
  | unrelated {e : Event Kind} {sim : Simulator Kind} (hm : s.main = .loop)
      (hs : s.core.stopped = false) (hn : s.core.sim.next? = some (e, sim))
      (hk : e.kind = .unrelated) :
      Step D s .event { s with core := s.core.advance sim, main := .user false }
  | join {destroying : Bool} (hm : s.main = .joining destroying) (hx : s.reader.pc = .exited) :
      Step D s .join (s.joined destroying)
  | destroy (hm : s.main = .loop) (hs : s.core.stopped = true ∨ s.core.sim.queue = []) :
      Step D s .destroy s.destroy

variable {D : Delimiters} {s s' : State} {l : Label}

/-- Only a system without a fatal error has a step. -/
theorem step_eq_some (h : step D s l = some s') : s.core.fatal = none ∧ s.act D l = some s' := by
  unfold step at h
  split at h
  · exact ⟨‹_›, h⟩
  · cases h

/-- The simulator executes events in its loop only, and only until it is stopped. -/
theorem loop_of_event (h : step D s .event = some s') : s.main = .loop ∧ s.core.stopped = false := by
  have hact := (step_eq_some h).2
  simp only [State.act] at hact
  split at hact
  · assumption
  · cases hact

/-- An event step executes the event that runs next. -/
theorem eq_execute_of_event (h : step D s .event = some s') {e : Event Kind} {sim : Simulator Kind}
    (hn : s.core.sim.next? = some (e, sim)) :
    s' = { s with core := s.core.advance sim }.execute D e.kind := by
  have hact := (step_eq_some h).2
  rw [State.act, if_pos (loop_of_event h), hn] at hact
  exact (Option.some.inj hact).symm

/-- A reader step outside the three places that act on the system is silent. -/
theorem Step.of_readerStep {n : ℕ} (h : s.readerStep D n = some s') :
    Step D s (.reader n) s' := by
  obtain ⟨i, hi, h⟩ := Option.bind_eq_some_iff.mp h
  obtain ⟨⟨r, effect⟩, hr, rfl⟩ := Option.map_eq_some_iff.mp h
  clear h
  cases hpc : s.reader.pc with
  | push message =>
      simp only [State.input, hpc, Option.some.injEq] at hi
      subst hi
      simp only [Reader.step, hpc, Option.some.injEq, Prod.mk.injEq] at hr
      obtain ⟨rfl, rfl⟩ := hr
      exact Step.push hpc
  | schedule =>
      simp only [State.input, hpc, Option.some.injEq] at hi
      subst hi
      simp only [Reader.step, hpc, Option.some.injEq, Prod.mk.injEq] at hr
      obtain ⟨rfl, rfl⟩ := hr
      exact Step.scheduleForwardUp hpc
  | failed =>
      simp only [State.input, hpc, Option.some.injEq] at hi
      subst hi
      simp only [Reader.step, hpc, Option.some.injEq, Prod.mk.injEq] at hr
      obtain ⟨rfl, rfl⟩ := hr
      exact Step.scheduleStop hpc
  | exited => simp only [Reader.step, hpc, reduceCtorEq] at hr
  | test | search | recv =>
      have hsilent : effect = .silent := by
        simp only [Reader.step, hpc] at hr
        split at hr <;> simp_all
      subst hsilent
      exact Step.silent hi hr

/-- Every step of the system has one of the forms of `Step`. -/
theorem Step.of_step (h : step D s l = some s') : Step D s l s' := by
  have hact := (step_eq_some h).2
  clear h
  cases l with
  | server action =>
      obtain ⟨conn, hc, rfl⟩ := Option.map_eq_some_iff.mp hact
      exact Step.server hc
  | reader n => exact Step.of_readerStep hact
  | user action =>
      simp only [State.act] at hact
      split at hact
      · rename_i hm
        cases hact
        exact Step.user hm
      · cases hact
  | resume =>
      simp only [State.act] at hact
      split at hact
      · rename_i hm
        cases hact
        exact Step.resume hm
      · cases hact
  | drain =>
      simp only [State.act] at hact
      split at hact
      · rename_i hm
        split at hact
        · rename_i hh
          cases hact
          exact Step.insert hm hh
        · rename_i hh
          cases hact
          exact Step.drained hm hh
      · cases hact
  | event =>
      simp only [State.act] at hact
      split at hact
      · rename_i hg
        obtain ⟨⟨e, sim⟩, hn, rfl⟩ := Option.map_eq_some_iff.mp hact
        cases hk : e.kind with
        | waitForNextUpdate => exact Step.wait hg.1 hg.2 hn hk
        | forwardUp => exact Step.forwardUp hg.1 hg.2 hn hk
        | stop => exact Step.stop hg.1 hg.2 hn hk
        | doInitialize data => exact Step.doInitialize hg.1 hg.2 hn hk
        | handleUpdate data => exact Step.handleUpdate hg.1 hg.2 hn hk
        | unrelated => exact Step.unrelated hg.1 hg.2 hn hk
      · cases hact
  | join =>
      simp only [State.act] at hact
      split at hact
      · rename_i hm
        split at hact
        · rename_i hx
          cases hact
          exact Step.join hm hx
        · cases hact
      · cases hact
  | destroy =>
      simp only [State.act] at hact
      split at hact
      · rename_i hg
        cases hact
        exact Step.destroy hg.1 hg.2
      · cases hact

/-- `Gateway::Stop` waits for the reader thread, or it closes the socket at once, or it finds no
connection. -/
@[elab_as_elim]
theorem State.stop_cases {P : State → Prop} (s : State) (destroying : Bool)
    (waits : s.core.state = .connected → s.core.threadJoinable = true →
      P { s with core.state := .stopping, main := .joining destroying })
    (closes : P { s with core := (Core.close { s.core with state := .stopping }).cancelEvents,
                         main := .afterStop destroying })
    (ends : P { s with core := Core.cancelEvents { s.core with state := .stopping },
                       main := .afterStop destroying }) :
    P (s.stop destroying) := by
  simp only [State.stop]
  split
  · rename_i hconnected
    split
    · rename_i hthread
      exact waits hconnected hthread
    · exact closes
  · exact ends

/-- `Simulator::Destroy` calls `Gateway::Stop` if its event is still there. -/
@[elab_as_elim]
theorem State.destroy_cases {P : State → Prop} (s : State)
    (stops : s.core.eventDestroy = true → P ({ s with core.eventDestroy := false }.stop true))
    (ends : s.core.eventDestroy = false → P { s with main := .destroyed }) : P s.destroy := by
  simp only [State.destroy]
  split
  · rename_i hdestroy
    exact stops hdestroy
  · rename_i hdestroy
    exact ends (Bool.eq_false_iff.mpr hdestroy)

/-- What neither `Gateway::Stop` nor `Simulator::Destroy` touches. -/
structure State.Frame (s s' : State) : Prop where
  reader : s'.reader = s.reader
  conn : s'.conn = s.conn
  pushed : s'.pushed = s.pushed
  processed : s'.core.processed = s.core.processed
  fatal : s'.core.fatal = s.core.fatal

theorem State.stop_frame (s : State) (destroying : Bool) : s.Frame (s.stop destroying) := by
  refine State.stop_cases s destroying ?_ ?_ ?_
  · intro _ _
    exact ⟨rfl, rfl, rfl, rfl, rfl⟩
  · rw [Core.cancelEvents_eq]
    exact ⟨rfl, rfl, rfl, rfl, rfl⟩
  · rw [Core.cancelEvents_eq]
    exact ⟨rfl, rfl, rfl, rfl, rfl⟩

theorem State.destroy_frame (s : State) : s.Frame s.destroy := by
  refine State.destroy_cases s ?_ ?_
  · intro _
    obtain ⟨hreader, hconn, hpushed, hprocessed, hfatal⟩ :=
      State.stop_frame { s with core.eventDestroy := false } true
    exact ⟨hreader, hconn, hpushed, hprocessed, hfatal⟩
  · intro _
    exact ⟨rfl, rfl, rfl, rfl, rfl⟩

/-- The step executes an event of this kind. -/
def State.Executes (s : State) (l : Label) (kind : Kind) : Prop :=
  l = .event ∧ ∃ e sim, s.core.sim.next? = some (e, sim) ∧ e.kind = kind

theorem State.executes_iff {e : Event Kind} {sim : Simulator Kind} {kind : Kind}
    (hn : s.core.sim.next? = some (e, sim)) : s.Executes .event kind ↔ e.kind = kind := by
  constructor
  · rintro ⟨-, a, sim', ha, rfl⟩
    rw [hn] at ha
    cases ha
    rfl
  · intro hk
    exact ⟨rfl, e, sim, hn, hk⟩

end Ns3Cosim.Gateway
