import Ns3Cosim.Words.Leftmost
import Ns3Cosim.Gateway.CallbackLog

/-!
# The data of a callback is the rest of a message

`ForwardUp` splits a message in the only leftmost way, and hands over that list
without the two values of the header: to one new callback, unless the message
is the signal to terminate or in the past. So the callbacks of a run, those
that ran and those that are pending, carry the data of the messages accepted,
each once.
-/

namespace Ns3Cosim.Gateway

open Words Execution

variable {D : Delimiters}

/-- The data that a list of messages has for callbacks, in their order. -/
def handed (D : Delimiters) (messages : List Str) : List (List Str) :=
  messages.filterMap fun message =>
    (update? D message).map fun _ => (splitMessage D message).drop 2

/-- What `ForwardUp` makes of a timestamp and values that it has read: it stops the simulator, or it
sets the reference time and has the values handed to `DoInitialize` now, or it grants the time up to
the timestamp and has them handed to `DoUpdate` then, or it finds the timestamp in the past. -/
inductive Core.HandsOver (c c' : Core) (timestamp : ℤ) (values : List Str) : Prop
  | terminate (hneg : timestamp < 0) (hstopped : c'.stopped = true)
      (hcallbacks : c'.callbacks = c.callbacks)
  | first (hpos : 0 ≤ timestamp) (hstart : c.timeStart < 0) (hset : c'.timeStart = timestamp)
      (hcallbacks : c'.callbacks.Perm (c.callbacks ++ [⟨.doInitialize, values, c.sim.now⟩]))
  | update (hpos : 0 ≤ timestamp) (hstart : 0 ≤ c.timeStart)
      (hle : c.sim.now ≤ timestamp - c.timeStart)
      (hpause : c'.timePause = timestamp - c.timeStart)
      (hcallbacks : c'.callbacks.Perm
        (c.callbacks ++ [⟨.doUpdate, values, timestamp - c.timeStart⟩]))
  | past (hpos : 0 ≤ timestamp) (hstart : 0 ≤ c.timeStart)
      (hlt : timestamp - c.timeStart < c.sim.now)
      (hfatal : c'.fatal = some .timestampsNotIncreasing)
      (hcallbacks : c'.callbacks = c.callbacks)

section ForwardUp

variable {c c' : Core} {message : Str} {messages : List Str} {timestamp : ℤ} {values : List Str}

/-- A callback is scheduled among those that are pending. -/
theorem Core.callbacks_schedule {sim : Simulator Kind} {delay : ℕ} {kind : Kind}
    {callback : Callback} (hlog : c'.log = c.log) (hsim : c'.sim = sim.schedule delay kind)
    (hsame : pendingCallbacks sim = pendingCallbacks c.sim)
    (hcb : callback? ⟨sim.now + delay, sim.nextUid, kind⟩ = some callback) :
    c'.callbacks.Perm (c.callbacks ++ [callback]) := by
  have hperm := pendingCallbacks_schedule sim delay hcb
  rw [hsame] at hperm
  rw [Core.callbacks, Core.callbacks, hlog, hsim, List.append_assoc]
  exact hperm.append_left c.log

theorem Core.forwardUp_handsOver (hh : c.Handled) (hq : c.messageQueue = message :: messages)
    (hr : readMessage D message = .ok (timestamp, values)) :
    c.HandsOver (c.forwardUp D) timestamp values := by
  rw [Core.forwardUp_of_ok hq hr]
  have hcancel : pendingCallbacks (c.sim.cancel c.eventWait) = pendingCallbacks c.sim :=
    pendingCallbacks_cancel hh
  refine Core.process_cases _ timestamp values ?_ ?_ ?_ ?_
  · intro hneg
    exact .terminate hneg rfl rfl
  · intro hpos hstart
    refine .first hpos hstart rfl (Core.callbacks_schedule rfl rfl rfl ?_)
    simp [callback?, Core.pop]
  · intro hpos hstart hle
    refine .update hpos hstart hle rfl (Core.callbacks_schedule rfl rfl hcancel ?_)
    have hle : c.sim.now ≤ timestamp - c.timeStart := hle
    simp only [callback?, Simulator.cancel_now, Core.pop, Option.some.injEq, Callback.mk.injEq,
      true_and]
    omega
  · intro hpos hstart hlt
    exact .past hpos hstart hlt rfl (congrArg (c.log ++ ·) hcancel)

/-- Every accepted message could be read, and each callback, run or pending, carries the data of one
of them. -/
structure Core.Balanced (D : Delimiters) (c : Core) : Prop where
  readable : ∀ message ∈ c.accepted, ∃ u, readMessage D message = .ok u
  handed : (c.callbacks.map Callback.data).Perm ((updates D c.accepted).map Prod.snd)

namespace Core.Balanced

theorem carries (h : c.Balanced D) (hf : c.fatal = none) (hc : c.Carries c') : c'.Balanced D where
  readable := by
    rw [hc.accepted hf]
    exact h.readable
  handed := by
    rw [hc.accepted hf, hc.callbacks]
    exact h.handed

/-- A message is accepted, with the callback that it calls for. -/
theorem accept (h : c.Balanced D) (hf : c.fatal = none)
    (hr : readMessage D message = .ok (timestamp, values)) (hf' : c'.fatal = none)
    (hprocessed : c'.processed = c.processed ++ [message])
    (hcallbacks : (c'.callbacks.map Callback.data).Perm
      (c.callbacks.map Callback.data ++ (update? D message).toList.map Prod.snd)) :
    c'.Balanced D := by
  obtain ⟨hreadable, hhanded⟩ := h
  rw [Core.accepted_of_none hf] at hreadable hhanded
  constructor
  · rw [Core.accepted_of_none hf', hprocessed]
    intro m hm
    obtain hm | hm := List.mem_append.mp hm
    · exact hreadable m hm
    · rw [List.mem_singleton.mp hm]
      exact ⟨_, hr⟩
  · rw [Core.accepted_of_none hf', hprocessed, updates_append, List.map_append]
    exact hcallbacks.trans (hhanded.append_right _)

/-- A message whose `ForwardUp` fails is not accepted. -/
theorem reject (h : c.Balanced D) (hf : c.fatal = none)
    (hprocessed : c'.processed = c.processed ++ [message])
    (hf' : c'.fatal = some .invalidHeader ∨ c'.fatal = some .timestampsNotIncreasing)
    (hcallbacks : c'.callbacks = c.callbacks) : c'.Balanced D := by
  have haccepted : c'.accepted = c.accepted :=
    (Core.accepted_of_fatal hprocessed hf').trans (Core.accepted_of_none hf).symm
  constructor
  · rw [haccepted]
    exact h.readable
  · rw [haccepted, hcallbacks]
    exact h.handed

theorem forwardUp (h : c.Balanced D) (hh : c.Handled) (hf : c.fatal = none)
    (hne : c.messageQueue ≠ []) : (c.forwardUp D).Balanced D := by
  refine Core.forwardUp_cases (P := Core.Balanced D) fun c' hc' => ?_
  cases hc' with
  | empty hq => exact absurd hq hne
  | invalid hq hr => exact h.reject hf rfl (Or.inl (congrArg some (readMessage_error hr))) rfl
  | terminate hq hr hneg =>
      refine h.accept hf hr hf rfl ?_
      rw [update?_of_neg hr hneg, Option.toList_none, List.map_nil, List.append_nil]
      exact List.Perm.refl _
  | @first message messages timestamp values hq hr hpos =>
      refine h.accept hf hr hf rfl ?_
      rw [update?_of_nonneg hr hpos]
      have hnew : List.Perm (Core.callbacks { c.pop message messages with
            timeStart := timestamp, sim := c.sim.scheduleNow (.doInitialize values) })
          (c.callbacks ++ [⟨.doInitialize, values, c.sim.now + (0 : ℕ)⟩]) :=
        Core.callbacks_schedule rfl rfl rfl rfl
      exact (hnew.map Callback.data).trans (List.Perm.of_eq List.map_append)
  | @update message messages timestamp values hq hr hpos =>
      refine h.accept hf hr hf rfl ?_
      rw [update?_of_nonneg hr hpos]
      have hnew : List.Perm (Core.callbacks { c.pop message messages with
            timePause := timestamp - c.timeStart,
            sim := (c.sim.cancel c.eventWait).schedule
              (timestamp - c.timeStart - c.sim.now).toNat (.handleUpdate values) })
          (c.callbacks ++ [⟨.doUpdate, values,
            c.sim.now + ((timestamp - c.timeStart - c.sim.now).toNat : ℤ)⟩]) :=
        Core.callbacks_schedule rfl rfl (pendingCallbacks_cancel hh) rfl
      exact (hnew.map Callback.data).trans (List.Perm.of_eq List.map_append)
  | past hq hr =>
      exact h.reject hf rfl (Or.inr rfl) (congrArg (c.log ++ ·) (pendingCallbacks_cancel hh))

end Core.Balanced

end ForwardUp

variable {ok : State → Label → Prop} {t₀ : ℤ} {s s' : State} {l : Label}

theorem Core.Balanced.step (h : s.core.Balanced D) (hinv : Handoff s)
    (hstep : Gateway.step D s l = some s') : s'.core.Balanced D := by
  have hf := (step_eq_some hstep).1
  by_cases hx : s.Executes l .forwardUp
  · obtain ⟨rfl, e, sim, hn, hk⟩ := hx
    obtain ⟨message, messages, hq, -⟩ := hinv.take hn hk
    have hadvance := h.carries hf (Core.SameBooks.advance hn (by simp [callback?, hk])).carries
    rw [eq_execute_of_event hstep hn, hk]
    exact hadvance.forwardUp (hinv.handled.advance hn) hf (by simp [Core.advance, hq])
  · exact h.carries hf (hinv.carries hstep hx)

theorem Occurs.balanced (h : Occurs D ok t₀ s) : s.core.Balanced D := by
  refine h.induct (P := fun s => s.core.Balanced D) (fun sim outbound hsim _ => ?_)
    fun _ _ _ hs hinv _ hstep => hinv.step hs.handoff hstep
  constructor
  · intro message hm
    cases hm
  · rw [State.connected_callbacks hsim outbound]
    exact List.Perm.refl _

/-- An executed `ForwardUp` takes the first message of the queue and hands over what it reads. -/
theorem Occurs.forwardUp_handsOver (h : Occurs D ok t₀ s) {e : Event Kind} {sim : Simulator Kind}
    (hn : s.core.sim.next? = some (e, sim)) (hk : e.kind = .forwardUp)
    (hstep : step D s .event = some s') :
    ∃ message, s.core.messageQueue.head? = some message ∧
      s'.core.processed = s.core.processed ++ [message] ∧
      ∀ timestamp values, readMessage D message = .ok (timestamp, values) →
        (s.core.advance sim).HandsOver s'.core timestamp values := by
  obtain ⟨message, messages, hq, -⟩ := h.handoff.take hn hk
  obtain ⟨message', hmessage, hprocessed⟩ :=
    h.handoff.executes_forwardUp hstep ⟨rfl, e, sim, hn, hk⟩
  rw [← h.handoff.history, hq, List.getElem?_append_right le_rfl, Nat.sub_self] at hmessage
  obtain rfl : message = message' := Option.some.inj hmessage
  refine ⟨message, by rw [hq]; rfl, hprocessed, fun timestamp values hr => ?_⟩
  rw [eq_execute_of_event hstep hn, hk]
  exact Core.forwardUp_handsOver (c := s.core.advance sim) (h.handoff.handled.advance hn) hq hr

/-- Up to the second `ForwardUp` of two messages with one value each. -/
def valuesRun : List Label :=
  [.server (.send ['0', ' ', '0', ' ', 'a', '\r', '\n', '6', ' ', '0', ' ', 'b', '\r', '\n'])] ++
    Label.receive 14 ++ Label.received ++ [.resume, .drain, .drain, .drain, .event, .drain, .event,
      .drain]

end Ns3Cosim.Gateway
