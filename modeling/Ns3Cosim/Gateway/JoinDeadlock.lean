import Ns3Cosim.Gateway.Lifecycle
import Ns3Cosim.Gateway.Timestamps

/-!
# Whether the main thread gets out of `join`

`Stop` waits for the reader thread, and the reader thread tests `m_state` only
between two messages. Nothing wakes it up in `recv`: the socket is closed after
the `join`. So the join ends when the reader gets out of its inner loop with
what the server has already done, and may wait for ever when it does not.
-/

namespace Ns3Cosim.Gateway

open Words Execution

variable {D : Delimiters} {s s' : State} {l : Label}

/-- The main thread waits for a reader that waits for a silent server. -/
def Deadlocked (s : State) : Prop :=
  (∃ destroying, s.main = .joining destroying) ∧ (∃ receivedData, s.reader.pc = .recv receivedData) ∧
    s.conn.available = [] ∧ s.conn.closed = false ∧ s.conn.failed = false

/-- The reader gets out of its inner loop with what the server has done so far: the connection has
ended, or the reader is not in the loop, or the rest of a message has been sent. -/
def Escapes (D : Delimiters) (r : Reader) (conn : Connection) : Prop :=
  conn.closed = true ∨ conn.failed = true ∨
    match r.pc with
    | .search receivedData => find D.delimiterMessage (receivedData ++ conn.available) ≠ none
    | .recv receivedData => find D.delimiterMessage (receivedData ++ conn.available) ≠ none
    | _ => True

instance (r : Reader) (conn : Connection) : Decidable (Escapes D r conn) := by
  unfold Escapes
  have : Decidable (match r.pc with
      | .search receivedData => find D.delimiterMessage (receivedData ++ conn.available) ≠ none
      | .recv receivedData => find D.delimiterMessage (receivedData ++ conn.available) ≠ none
      | _ => True) := by
    split <;> infer_instance
  infer_instance

/-- When `Simulator::Destroy` calls `Stop`, the reader gets out of its inner loop. -/
def DestroysFree (D : Delimiters) (s : State) : Label → Prop
  | .destroy => s.core.eventDestroy = true → Escapes D s.reader s.conn
  | _ => True

instance (s : State) (l : Label) : Decidable (DestroysFree D s l) :=
  match l with
  | .destroy => by unfold DestroysFree; infer_instance
  | .server _ | .reader _ | .user _ | .resume | .drain | .event | .join => .isTrue trivial

namespace Escapes

variable {r r' : Reader} {conn conn' : Connection}

/-- Whatever the server does next, the reader still gets out. -/
theorem server (h : Escapes D r conn) {action : ServerAction}
    (hc : conn.act action = some conn') : Escapes D r conn' := by
  cases action with
  | send bytes =>
      simp only [Connection.act] at hc
      split at hc
      · cases hc
      · cases hc
        have hmore : ∀ receivedData, find D.delimiterMessage (receivedData ++ conn.available) ≠ none →
            find D.delimiterMessage (receivedData ++ (conn.available ++ bytes)) ≠ none := by
          intro receivedData hfound
          obtain ⟨k, hk⟩ := Option.ne_none_iff_exists'.mp hfound
          rw [← List.append_assoc, find_append_of_some hk bytes]
          simp
        obtain h | h | h := h
        · exact Or.inl h
        · exact Or.inr (Or.inl h)
        · right
          right
          split
          · rename_i hpc
            rw [hpc] at h
            exact hmore _ h
          · rename_i hpc
            rw [hpc] at h
            exact hmore _ h
          · trivial
  | close =>
      cases hc
      exact Or.inl rfl
  | fail =>
      cases hc
      exact Or.inr (Or.inl rfl)

theorem of_running_out (hpc : ∀ receivedData, r.pc ≠ .search receivedData ∧ r.pc ≠ .recv receivedData)
    (conn : Connection) : Escapes D r conn := by
  right
  right
  split
  · rename_i heq
    exact absurd heq (hpc _).1
  · rename_i heq
    exact absurd heq (hpc _).2
  · trivial

end Escapes

/-- What `recv` takes from the connection, it adds to the received data. -/
theorem Connection.recv_bytes {conn conn' : Connection} {n : ℕ} {chunk : Str}
    (h : conn.recv n = some (.bytes chunk, conn')) :
    conn.available = chunk ++ conn'.available ∧ conn'.closed = conn.closed ∧
      conn'.failed = conn.failed := by
  unfold Connection.recv at h
  split at h
  · split at h
    · cases h
    · split at h <;> cases h
  · split at h
    · cases h
      simp
    · cases h

/-- A step of the reader of a stopping gateway leads it further out. -/
theorem Escapes.reader (h : Escapes D s.reader s.conn) {n : ℕ} {i : Option Recv × Connection}
    {r : Reader} (hi : s.input n = some i)
    (hr : s.reader.step D .stopping i.1 = some (r, .silent)) : Escapes D r i.2 := by
  cases hpc : s.reader.pc with
  | test =>
      simp only [Reader.step, hpc, reduceCtorEq, if_false, Option.some.injEq, Prod.mk.injEq,
        and_true] at hr
      subst hr
      exact Escapes.of_running_out (by simp) _
  | search receivedData =>
      simp only [State.input, hpc, Option.some.injEq] at hi
      subst hi
      simp only [Reader.step, hpc] at hr
      split at hr
      · simp only [Option.some.injEq, Prod.mk.injEq, and_true] at hr
        subst hr
        simpa only [Escapes, hpc] using h
      · simp only [Option.some.injEq, Prod.mk.injEq, and_true] at hr
        subst hr
        exact Escapes.of_running_out (by simp) _
  | recv receivedData =>
      simp only [State.input, hpc] at hi
      obtain ⟨⟨result, conn⟩, hrecv, rfl⟩ := Option.map_eq_some_iff.mp hi
      cases result with
      | bytes chunk =>
          obtain ⟨havailable, hclosed, hfailed⟩ := Connection.recv_bytes hrecv
          simp only [Reader.step, hpc, Option.some.injEq, Prod.mk.injEq, and_true] at hr
          subst hr
          simpa only [Escapes, hpc, hclosed, hfailed, havailable, List.append_assoc] using h
      | closed | error =>
          simp only [Reader.step, hpc, Option.some.injEq, Prod.mk.injEq, and_true] at hr
          subst hr
          exact Escapes.of_running_out (by simp) _
  | failed | push | schedule | exited => simp [Reader.step, hpc] at hr

/-- While the main thread waits in `join`, the reader is on its way out. -/
def Joinable (D : Delimiters) (s : State) : Prop :=
  ∀ destroying, s.main = .joining destroying →
    s.core.state = .stopping ∧ s.core.fatal = none ∧ Escapes D s.reader s.conn

namespace Joinable

theorem not_deadlocked (h : Joinable D s) (hframed : Framed D s) : ¬ Deadlocked s := by
  rintro ⟨⟨destroying, hm⟩, ⟨receivedData, hpc⟩, havailable, hclosed, hfailed⟩
  obtain ⟨-, -, hescapes⟩ := h destroying hm
  simp only [Escapes, hpc, hclosed, hfailed, havailable, List.append_nil, Bool.false_eq_true,
    false_or] at hescapes
  exact hescapes (hframed.searched receivedData hpc)

/-- A `Stop` that begins to wait while the reader gets out. -/
theorem stop (hf : s.core.fatal = none)
    (hescapes : Escapes D s.reader s.conn) (destroying : Bool) :
    Joinable D (s.stop destroying) := by
  have hframe := s.stop_frame destroying
  refine fun b hb => ⟨State.stop_joinsStopping s destroying b hb, ?_, ?_⟩
  · rw [hframe.fatal]
    exact hf
  · rw [hframe.reader, hframe.conn]
    exact hescapes

/-- The main thread does not wait. -/
theorem of_main (hm : ∀ destroying, s.main ≠ .joining destroying) : Joinable D s :=
  fun destroying hj => absurd hj (hm destroying)

/-- Every step but the call of `Stop` in `Simulator::Destroy`, which needs the reader on its way. -/
theorem step (h : Joinable D s) (hinv : Handoff s) (hok : DestroysFree D s l)
    (hstep : Gateway.step D s l = some s') : Joinable D s' := by
  have hf := (step_eq_some hstep).1
  cases Step.of_step hstep with
  | server hc =>
      intro destroying hm
      obtain ⟨hstate, hfatal, hescapes⟩ := h destroying hm
      exact ⟨hstate, hfatal, hescapes.server hc⟩
  | silent hi hr =>
      intro destroying hm
      obtain ⟨hstate, hfatal, hescapes⟩ := h destroying hm
      rw [hstate] at hr
      exact ⟨hstate, hfatal, hescapes.reader hi hr⟩
  | push | scheduleForwardUp | scheduleStop =>
      intro destroying hm
      obtain ⟨hstate, hfatal, -⟩ := h destroying hm
      exact ⟨hstate, hfatal, Escapes.of_running_out (by simp) _⟩
  | user hm | insert hm => exact of_main (by simp [hm])
  | resume | drained | wait | forwardUp | doInitialize | handleUpdate | unrelated =>
      exact of_main (by simp)
  | @stop e sim _ _ hn hk =>
      have hexited := (hinv.scheduled_eq_zero_of_stop hn hk).1
      exact Joinable.stop (s := { s with core := s.core.advance sim }) hf
        (Escapes.of_running_out (by simp [hexited]) _) false
  | join => exact of_main (MainPc.afterStop_ne_joining _)
  | destroy =>
      refine State.destroy_cases s ?_ ?_
      · intro hdestroy
        exact Joinable.stop (s := { s with core.eventDestroy := false }) hf (hok hdestroy) true
      · intro _
        exact of_main (by simp)

end Joinable

variable {ok : State → Label → Prop} {t₀ : ℤ}

theorem Occurs.joinable (h : Occurs D (DestroysFree D) t₀ s) : Joinable D s := by
  refine h.induct (fun sim outbound _ _ => ?_) fun _ _ _ hs hinv hok hstep =>
    hinv.step hs.handoff hok hstep
  exact Joinable.of_main (by simp [State.connected])

/-- A list of steps of the reader thread alone. -/
def ReaderOnly (labels : List Label) : Prop := ∀ l ∈ labels, ∃ n, l = .reader n

/-- How many steps a stopping reader is away from its exit at most. -/
def Reader.distance (r : Reader) (available : Str) : ℕ :=
  match r.pc with
  | .exited => 0
  | .test => 1
  | .failed => 1
  | .schedule => 2
  | .push _ => 3
  | .recv _ => 2 * available.length + 4
  | .search _ => 2 * available.length + 5

theorem ReaderOnly.nil : ReaderOnly [] := by
  intro l hl
  cases hl

theorem ReaderOnly.cons {labels : List Label} (h : ReaderOnly labels) (n : ℕ) :
    ReaderOnly (.reader n :: labels) := by
  intro l hl
  obtain rfl | hl := List.mem_cons.mp hl
  · exact ⟨n, rfl⟩
  · exact h l hl

/-- Outside of `recv`, a stopping reader comes nearer to its exit with every step. -/
theorem Reader.exists_step_stopping {r : Reader} (hrecv : ∀ receivedData, r.pc ≠ .recv receivedData)
    (hpc : r.pc ≠ .exited) (available : Str) :
    ∃ r' effect, r.step D .stopping none = some (r', effect) ∧
      r'.distance available < r.distance available := by
  obtain ⟨pc, messageBuffer⟩ := r
  cases pc with
  | exited => exact absurd rfl hpc
  | recv receivedData => exact absurd rfl (hrecv receivedData)
  | test => exact ⟨⟨.exited, messageBuffer⟩, .silent, rfl, by simp [distance]⟩
  | failed => exact ⟨⟨.exited, messageBuffer⟩, .schedule .stop, rfl, by simp [distance]⟩
  | push message => exact ⟨⟨.schedule, messageBuffer⟩, .push message, rfl, by simp [distance]⟩
  | schedule => exact ⟨⟨.test, messageBuffer⟩, .schedule .forwardUp, rfl, by simp [distance]⟩
  | search receivedData =>
      cases hfind : find D.delimiterMessage receivedData with
      | none =>
          refine ⟨⟨.recv receivedData, messageBuffer⟩, .silent, ?_, by simp [distance]⟩
          simp [step, hfind]
      | some messageSize =>
          refine ⟨⟨.push (receivedData.take messageSize),
            receivedData.drop (messageSize + D.delimiterMessage.length)⟩, .silent, ?_,
            by simp [distance]⟩
          simp [step, hfind]

/-- A reader in `recv` that gets out is given a byte, the end of the stream or an error. -/
theorem Escapes.exists_recv (h : Escapes D s.reader s.conn) (hsearched : Searched D s.reader)
    {receivedData : Str} (hpc : s.reader.pc = .recv receivedData) :
    ∃ n result conn, s.conn.recv n = some (result, conn) ∧
      ((∃ c, result = .bytes [c] ∧ s.conn.available = c :: conn.available) ∨
        ((result = .closed ∨ result = .error) ∧ conn = s.conn)) := by
  cases havailable : s.conn.available with
  | nil =>
      -- nothing more to come from an open connection would leave the delimiter unfound
      have hended : s.conn.closed = true ∨ s.conn.failed = true := by
        obtain h | h | h := h
        · exact Or.inl h
        · exact Or.inr h
        · simp only [hpc, havailable, List.append_nil] at h
          exact absurd (hsearched receivedData hpc) h
      by_cases hfailed : s.conn.failed = true
      · refine ⟨0, .error, s.conn, ?_, Or.inr ⟨Or.inr rfl, rfl⟩⟩
        simp [Connection.recv, hfailed]
      · have hclosed := hended.resolve_right hfailed
        refine ⟨0, .closed, s.conn, ?_, Or.inr ⟨Or.inl rfl, rfl⟩⟩
        simp [Connection.recv, hfailed, hclosed, havailable]
  | cons c rest =>
      refine ⟨1, .bytes [c], { s.conn with available := rest }, ?_, Or.inl ⟨c, rfl, rfl⟩⟩
      simp [Connection.recv, havailable, bufferSize]

/-- A reader that gets out has a step that brings it nearer to its exit. -/
theorem Escapes.exists_step (h : Escapes D s.reader s.conn) (hsearched : Searched D s.reader)
    (hpc : s.reader.pc ≠ .exited) :
    ∃ n i r effect, s.input n = some i ∧ s.reader.step D .stopping i.1 = some (r, effect) ∧
      r.distance i.2.available < s.reader.distance s.conn.available := by
  by_cases hrecv : ∃ receivedData, s.reader.pc = .recv receivedData
  · obtain ⟨receivedData, hp⟩ := hrecv
    obtain ⟨n, result, conn, hresult, hcases⟩ := h.exists_recv hsearched hp
    have hinput : s.input n = some (some result, conn) := by simp [State.input, hp, hresult]
    obtain ⟨c, rfl, havailable⟩ | ⟨hended, rfl⟩ := hcases
    · refine ⟨n, _, { s.reader with pc := .search (receivedData ++ [c]) }, .silent, hinput, ?_, ?_⟩
      · simp [Reader.step, hp]
      · simp only [Reader.distance, hp, havailable, List.length_cons]
        omega
    · refine ⟨n, _, { s.reader with pc := .failed }, .silent, hinput, ?_, ?_⟩
      · obtain rfl | rfl := hended <;> simp [Reader.step, hp]
      · simp [Reader.distance, hp]
  · have hrecv : ∀ receivedData, s.reader.pc ≠ .recv receivedData :=
      fun receivedData hp => hrecv ⟨receivedData, hp⟩
    obtain ⟨r, effect, hstep, hlt⟩ :=
      Reader.exists_step_stopping (D := D) hrecv hpc s.conn.available
    refine ⟨0, (none, s.conn), r, effect, ?_, hstep, hlt⟩
    unfold State.input
    split
    · rename_i hp
      exact absurd hp (hrecv _)
    · rfl

theorem State.apply_eq (s : State) (effect : Effect) :
    (s.apply effect).main = s.main ∧ (s.apply effect).reader = s.reader ∧
      (s.apply effect).conn = s.conn ∧ (s.apply effect).core.fatal = s.core.fatal := by
  cases effect <;> simp [State.apply]

/-- Without anything from the server, the reader gets to its exit while the main thread waits. -/
theorem Joinable.exists_exit (h : Joinable D s) (hinv : Handoff s) (hframed : Framed D s)
    {destroying : Bool} (hm : s.main = .joining destroying) :
    ∃ labels s', ReaderOnly labels ∧ run (Gateway.step D) s labels = some s' ∧
      s'.main = .joining destroying ∧ s'.reader.pc = .exited := by
  generalize hd : s.reader.distance s.conn.available = d
  induction d using Nat.strong_induction_on generalizing s with
  | _ d ih =>
      by_cases hpc : s.reader.pc = .exited
      · exact ⟨[], s, .nil, rfl, hm, hpc⟩
      · obtain ⟨hstate, hfatal, hescapes⟩ := h destroying hm
        obtain ⟨n, i, r, effect, hi, hr, hlt⟩ := hescapes.exists_step hframed.searched hpc
        obtain ⟨hmain, hreader, hconn, -⟩ :=
          State.apply_eq { s with reader := r, conn := i.2 } effect
        have hstep : Gateway.step D s (.reader n) =
            some ({ s with reader := r, conn := i.2 }.apply effect) := by
          rw [← hstate] at hr
          simp [Gateway.step, hfatal, State.act, State.readerStep, hi, hr]
        obtain ⟨labels, s', honly, hrun, hm', hpc'⟩ := ih _ (by
          rw [← hd, hreader, hconn]
          exact hlt) (h.step (l := .reader n) hinv trivial hstep) (hinv.step hstep)
          (hframed.step hstep) (hmain.trans hm) rfl
        exact ⟨.reader n :: labels, s', honly.cons n, run_cons hstep hrun, hm', hpc'⟩

/-- A waiting reader takes what is there, and then waits for ever. -/
theorem exists_deadlock_of_recv {destroying : Bool} (hm : s.main = .joining destroying)
    (hf : s.core.fatal = none) (hclosed : s.conn.closed = false) (hfailed : s.conn.failed = false)
    {receivedData available : Str} (hpc : s.reader.pc = .recv receivedData)
    (havailable : s.conn.available = available)
    (hfind : find D.delimiterMessage (receivedData ++ available) = none) :
    ∃ labels s', ReaderOnly labels ∧ run (Gateway.step D) s labels = some s' ∧ Deadlocked s' := by
  induction available generalizing s receivedData with
  | nil =>
      refine ⟨[], s, .nil, rfl, ?_⟩
      exact ⟨⟨destroying, hm⟩, ⟨receivedData, hpc⟩, havailable, hclosed, hfailed⟩
  | cons c rest ih =>
      have hprefix : find D.delimiterMessage (receivedData ++ [c]) = none := by
        rw [find_eq_none_iff] at hfind ⊢
        intro hin
        refine hfind (hin.trans ?_)
        exact (List.prefix_append (receivedData ++ [c]) rest).isInfix.trans (by simp)
      obtain ⟨labels, s', honly, hrun, hdead⟩ := ih
        (s := { s with reader.pc := .recv (receivedData ++ [c]), conn.available := rest })
        hm hf hclosed hfailed rfl rfl (by simpa using hfind)
      have htake : Gateway.step D s (.reader 1) = some { s with
          reader.pc := .search (receivedData ++ [c]), conn.available := rest } := by
        simp [Gateway.step, hf, State.act, State.readerStep, State.input, hpc, Connection.recv,
          havailable, bufferSize, Reader.step, State.apply]
      have hsearch : Gateway.step D { s with
          reader.pc := .search (receivedData ++ [c]), conn.available := rest } (.reader 0) =
          some { s with reader.pc := .recv (receivedData ++ [c]), conn.available := rest } := by
        simp [Gateway.step, hf, State.act, State.readerStep, State.input, Reader.step, hprefix,
          State.apply]
      exact ⟨.reader 1 :: .reader 0 :: labels, s', (honly.cons 0).cons 1,
        run_cons htake (run_cons hsearch hrun), hdead⟩

/-- A reader that does not get out deadlocks a waiting main thread by its own steps. -/
theorem exists_deadlock {destroying : Bool} (hm : s.main = .joining destroying)
    (hf : s.core.fatal = none) (h : ¬ Escapes D s.reader s.conn) :
    ∃ labels s', ReaderOnly labels ∧ run (Gateway.step D) s labels = some s' ∧ Deadlocked s' := by
  have hclosed : s.conn.closed = false := by
    by_contra hc
    exact h (Or.inl (by simpa using hc))
  have hfailed : s.conn.failed = false := by
    by_contra hc
    exact h (Or.inr (Or.inl (by simpa using hc)))
  cases hpc : s.reader.pc with
  | recv receivedData =>
      apply exists_deadlock_of_recv hm hf hclosed hfailed hpc rfl
      by_contra hfind
      exact h (Or.inr (Or.inr (by simpa only [hpc] using hfind)))
  | search receivedData =>
      have hfind : find D.delimiterMessage (receivedData ++ s.conn.available) = none := by
        by_contra hfind
        exact h (Or.inr (Or.inr (by simpa only [hpc] using hfind)))
      have hnone : find D.delimiterMessage receivedData = none := by
        rw [find_eq_none_iff] at hfind ⊢
        exact fun hin => hfind (hin.trans (List.prefix_append _ _).isInfix)
      obtain ⟨labels, s', honly, hrun, hdead⟩ := exists_deadlock_of_recv
        (s := { s with reader.pc := .recv receivedData }) hm hf hclosed hfailed rfl rfl hfind
      have hstep : Gateway.step D s (.reader 0) =
          some { s with reader.pc := .recv receivedData } := by
        simp [Gateway.step, hf, State.act, State.readerStep, State.input, hpc, Reader.step, hnone,
          State.apply]
      exact ⟨.reader 0 :: labels, s', honly.cons 0, run_cons hstep hrun, hdead⟩
  | test | failed | push | schedule | exited =>
      exact absurd (Escapes.of_running_out (by simp [hpc]) _) h

/-- While the destroy event is pending and nobody waits, the gateway is connected and its thread
has not been joined. -/
def Armed (s : State) : Prop :=
  s.core.eventDestroy = true → (∀ destroying, s.main ≠ .joining destroying) →
    s.core.state = .connected ∧ s.core.threadJoinable = true

theorem Shutdown.armed (h : Shutdown s) : Armed s := by
  intro hdestroy hm
  cases hstate : s.core.state with
  | created => exact absurd hstate h.constructed
  | connected => exact ⟨rfl, (h.before hstate).1⟩
  | stopping =>
      obtain ⟨-, -, -, hnone, -⟩ := h.after hstate hm
      cases hdestroy.symm.trans hnone

theorem Occurs.armed (h : Occurs D ok t₀ s) : Armed s := h.occursStopping.shutdown.armed

theorem main_of_destroy (h : step D s .destroy = some s') : s.main = .loop ∧ s' = s.destroy := by
  have hact := (step_eq_some h).2
  simp only [State.act] at hact
  split at hact
  · rename_i hg
    exact ⟨hg.1, (Option.some.inj hact).symm⟩
  · cases hact

/-- A `Simulator::Destroy` that finds the reader stuck waits for it. -/
theorem Occurs.destroy_waits (h : Occurs D ok t₀ s) (hstep : step D s .destroy = some s')
    (hstuck : ¬ DestroysFree D s .destroy) :
    s'.main = .joining true ∧ s'.core.fatal = none ∧ ¬ Escapes D s'.reader s'.conn := by
  obtain ⟨hdestroy, hescapes⟩ := Classical.not_imp.mp hstuck
  obtain ⟨hm, rfl⟩ := main_of_destroy hstep
  obtain ⟨hconnected, hthread⟩ := h.armed hdestroy (by simp [hm])
  have hf := (step_eq_some hstep).1
  have hstop : s.destroy =
      { s with core.eventDestroy := false, core.state := .stopping, main := .joining true } := by
    unfold State.destroy State.stop
    rw [if_pos hdestroy, if_pos hconnected, if_pos hthread]
  rw [hstop]
  exact ⟨rfl, hf, hescapes⟩

/-- A run whose calls of `Simulator::Destroy` find the reader on its way out never deadlocks, and
while the main thread waits the reader gets to its exit without the server. After a call that
finds it otherwise, the reader's own steps lead to a deadlock. -/
theorem join_ends_iff (h : Occurs D always t₀ s) :
    (Occurs D (DestroysFree D) t₀ s → ¬ Deadlocked s ∧
      ∀ destroying, s.main = .joining destroying → ∃ labels s', ReaderOnly labels ∧
        run (step D) s labels = some s' ∧ s'.main = .joining destroying ∧
          s'.reader.pc = .exited) ∧
    ∀ s', step D s .destroy = some s' → ¬ DestroysFree D s .destroy →
      ∃ labels s'', ReaderOnly labels ∧ run (step D) s' labels = some s'' ∧ Deadlocked s'' := by
  refine ⟨fun hfree => ⟨hfree.joinable.not_deadlocked h.framed, fun destroying hm => ?_⟩,
    fun s' hstep hstuck => ?_⟩
  · exact hfree.joinable.exists_exit h.handoff h.framed hm
  · obtain ⟨hm, hf, hescapes⟩ := h.destroy_waits hstep hstuck
    exact exists_deadlock hm hf hescapes

/-- The server sends `0 0` and `-1 0` and closes its connection; then the program ends. -/
def closedDestroyRun : List Label :=
  [.server (.send ['0', ' ', '0', '\r', '\n', '-', '1', ' ', '0', '\r', '\n'])] ++
    Label.receive 11 ++ Label.received ++ [.resume, .drain, .drain, .drain, .event, .drain, .event,
      .drain, .event, .drain, .server .close, .reader 0, .reader 0, .destroy]

theorem join_ends_iff_closedDestroyRun :
    ∃ s, State.after defaultDelimiters (DestroysFree defaultDelimiters) 0 1 closedDestroyRun =
        some s ∧
      s.main = .joining true ∧ s.reader.pc = .recv [] ∧ ¬ Deadlocked s ∧
      ∃ labels s', ReaderOnly labels ∧ run (step defaultDelimiters) s labels = some s' ∧
        s'.main = .joining true ∧ s'.reader.pc = .exited := by
  have hrun : (State.after defaultDelimiters (DestroysFree defaultDelimiters) 0 1
      closedDestroyRun).any (fun s => s.main = .joining true ∧ s.reader.pc = .recv []) := by
    decide +kernel
  obtain ⟨s, hs, hp⟩ := (Option.any_eq_true _ _).mp hrun
  obtain ⟨hm, hpc⟩ := of_decide_eq_true hp
  have h := Occurs.of_after hs
  obtain ⟨hfree, hexit⟩ := (join_ends_iff (h.mono fun _ _ _ => trivial)).1 h
  exact ⟨s, hs, hm, hpc, hfree, hexit true hm⟩

/-- The server sends the signal to terminate and keeps its connection open. -/
def terminateRun : List Label :=
  [.server (.send ['-', '1', ' ', '0', '\r', '\n'])] ++ Label.receive 6 ++
    [.resume, .drain, .drain, .event, .drain, .event, .drain, .reader 0, .reader 0, .destroy]

/-- The end of the program waits for a reader that waits for the server. -/
theorem deadlocked_terminateRun :
    ∃ s, State.after defaultDelimiters always 0 1 terminateRun = some s ∧ Deadlocked s := by
  have hrun : (State.after defaultDelimiters always 0 1 terminateRun).any (fun s =>
      s.main = .joining true ∧ s.reader.pc = .recv [] ∧ s.conn.available = [] ∧
        s.conn.closed = false ∧ s.conn.failed = false) := by
    decide +kernel
  obtain ⟨s, hs, hp⟩ := (Option.any_eq_true _ _).mp hrun
  obtain ⟨hm, hpc, hrest⟩ := of_decide_eq_true hp
  exact ⟨s, hs, ⟨true, hm⟩, ⟨[], hpc⟩, hrest⟩

end Ns3Cosim.Gateway
