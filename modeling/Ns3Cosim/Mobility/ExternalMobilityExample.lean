import Mathlib.Algebra.Order.Ring.Int
import Mathlib.Data.List.Iterate
import Mathlib.Logic.Function.Basic
import Ns3Cosim.Execution.EventQueue
import Ns3Cosim.Execution.Leads
import Ns3Cosim.Mobility.ExternalMobilityModel

/-!
# The external mobility example

`UpdateMobility` moves the nodes of a group by a fixed step and schedules itself
again, for each group with its own period, until `Simulator::Stop` ends the
simulation at a given time. `main` schedules the first updates before the stop,
so at the stop time only a first update still runs.

## Implementation notes

Any type with an addition whose values can be compared does for the vectors.
`times` is history, the times at which the updates of a group ran; the numbers
of groups, their nodes and their steps are those that `main` chooses.

-/

namespace Ns3Cosim.Mobility.Example

open Execution

/-- A group of nodes with the arguments of its `UpdateMobility`. -/
structure Group (V : Type*) where
  nodes : List (ExternalMobilityModel V)
  positionDelta : V
  velocityDelta : V
  timeDelta : ℕ
  times : List ℤ
  deriving DecidableEq

/-- What the simulator calls. -/
inductive Kind
  | updateMobility (group : ℕ)
  | stop
  deriving DecidableEq

/-- A state of the simulation. -/
structure State (V : Type*) where
  sim : Simulator Kind
  groups : List (Group V)
  stopped : Bool

variable {V : Type*} [Add V] [DecidableEq V]

/-- One round of the loop of `UpdateMobility`. -/
def Group.updateNode (g : Group V) (mobility : ExternalMobilityModel V) : ExternalMobilityModel V :=
  let mobility := mobility.doSetPosition (mobility.doGetPosition + g.positionDelta)
  mobility.setVelocity (mobility.doGetVelocity + g.velocityDelta)

/-- The loop of `UpdateMobility`. -/
def Group.update (g : Group V) (now : ℤ) : Group V :=
  { g with nodes := g.nodes.map g.updateNode, times := g.times ++ [now] }

/-- The function of an event. -/
def State.execute (s : State V) : Kind → State V
  | .updateMobility i =>
      match s.groups[i]? with
      | none => s
      | some g =>
          { s with groups := s.groups.set i (g.update s.sim.now),
                   sim := s.sim.schedule g.timeDelta (.updateMobility i) }
  | .stop => { s with stopped := true }

/-- One round of `Simulator::Run`. -/
def step (s : State V) (_ : Unit) : Option (State V) :=
  if s.stopped then none
  else s.sim.next?.map fun p => { s with sim := p.2 }.execute p.1.kind

/-- The calls of `Schedule` in `main` for the groups from the `i`-th on. -/
def scheduleUpdates (sim : Simulator Kind) : ℕ → List (Group V) → Simulator Kind
  | _, [] => sim
  | i, g :: groups => scheduleUpdates (sim.schedule g.timeDelta (.updateMobility i)) (i + 1) groups

/-- `main` calls `Simulator::Run`. -/
def State.start (stopTime : ℕ) (groups : List (Group V)) : State V where
  sim := (scheduleUpdates (.empty 0) 0 groups).schedule stopTime .stop
  groups := groups
  stopped := false

section Course

variable (g : Group V) (m : ExternalMobilityModel V)

/-- Where an update takes a node, and how fast it is then. -/
def Group.next (p : V × V) : V × V := (p.1 + g.positionDelta, p.2 + g.velocityDelta)

/-- An update sets the position first. -/
theorem Group.updateNode_eq :
    g.updateNode m = m.perform (positionFirst [g.next m.current]) := by
  have hvelocity : (m.doSetPosition (m.position + g.positionDelta)).velocity = m.velocity := by
    rw [ExternalMobilityModel.doSetPosition_eq]
  simp only [Group.updateNode, ExternalMobilityModel.doGetPosition,
    ExternalMobilityModel.doGetVelocity, hvelocity]
  rfl

/-- A group after `k` updates, one period apart. -/
def Group.after (g : Group V) : ℕ → Group V
  | 0 => g
  | k + 1 => (g.after k).update ((k + 1) * g.timeDelta)

/-- The updates leave the arguments as they are. -/
theorem Group.after_arguments (k : ℕ) :
    (g.after k).timeDelta = g.timeDelta ∧ (g.after k).updateNode = g.updateNode := by
  induction k with
  | zero => exact ⟨rfl, rfl⟩
  | succ k ih => exact ih

theorem Group.times_after (k : ℕ) : (g.after k).times =
    g.times ++ (List.range k).map fun j : ℕ => ((j + 1) * g.timeDelta : ℤ) := by
  induction k with
  | zero => simp [Group.after]
  | succ k ih =>
      rw [Group.after, Group.update, ih, List.range_succ, List.map_append, List.append_assoc]
      rfl

theorem Group.nodes_after (k : ℕ) :
    (g.after k).nodes = g.nodes.map fun m => g.updateNode^[k] m := by
  induction k with
  | zero => simp [Group.after]
  | succ k ih =>
      simp only [Group.after, Group.update, (g.after_arguments k).2, ih, List.map_map,
        Function.iterate_succ']

/-- A node after `k` updates has taken `k` steps, and notified those that change its velocity. -/
theorem Group.iterate_updateNode (k : ℕ) : (g.updateNode^[k] m).current = g.next^[k] m.current ∧
    (g.updateNode^[k] m).courseChanges = m.courseChanges ++
      turns m.current (List.iterate g.next (g.next m.current) k) := by
  have hperform : g.updateNode^[k] m =
      m.perform (positionFirst (List.iterate g.next (g.next m.current) k)) ∧
        (g.updateNode^[k] m).current = g.next^[k] m.current := by
    induction k with
    | zero => exact ⟨rfl, rfl⟩
    | succ k ih =>
        obtain ⟨hperform, hcurrent⟩ := ih
        rw [Function.iterate_succ_apply', Function.iterate_succ_apply', g.updateNode_eq, hcurrent]
        constructor
        · rw [List.iterate_add, ExternalMobilityModel.perform_positionFirst_append, ← hperform,
            ← Function.iterate_succ_apply g.next, Function.iterate_succ_apply' g.next]
          rfl
        · exact (ExternalMobilityModel.update_positionFirst _ _).1
  refine ⟨hperform.2, ?_⟩
  rw [hperform.1]
  exact (m.perform_positionFirst _).2

end Course

section Runs

variable {stopTime : ℕ} {groups : List (Group V)} {s s' : State V} {counts : ℕ → ℕ}

/-- The invariant, with the number of updates of each group. Every group has one update pending. The
events that `main` schedules have the first numbers, so an update comes before a stop at the same
time exactly if it is the first one. -/
structure Regular (stopTime : ℕ) (groups : List (Group V)) (counts : ℕ → ℕ) (s : State V) :
    Prop where
  updated : s.groups = groups.mapIdx fun i g => g.after (counts i)
  alone : ∀ a ∈ s.sim.queue, ∀ b ∈ s.sim.queue, a.kind = b.kind → a = b
  update : ∀ e ∈ s.sim.queue, ∀ i, e.kind = .updateMobility i → ∃ g, groups[i]? = some g ∧
    e.time = (counts i + 1) * g.timeDelta ∧ (e.uid < groups.length ↔ counts i = 0)
  pending : ∀ i < groups.length, ∃ e ∈ s.sim.queue, e.kind = .updateMobility i
  stop : ∀ e ∈ s.sim.queue, e.kind = .stop → e.time = stopTime ∧ e.uid = groups.length
  stopping : s.stopped = false → ∃ e ∈ s.sim.queue, e.kind = .stop
  numbered : groups.length < s.sim.nextUid
  ran : ∀ i g, groups[i]? = some g → 0 < counts i →
    counts i * g.timeDelta < stopTime ∨ counts i = 1 ∧ g.timeDelta = stopTime
  ended : s.stopped = true → ∀ i g, groups[i]? = some g →
    stopTime < (counts i + 1) * g.timeDelta ∨
      stopTime = (counts i + 1) * g.timeDelta ∧ counts i ≠ 0

/-- What one round of `Simulator::Run` does: an update, or the stop. -/
theorem step_cases {u : Unit} (h : Regular stopTime groups counts s) (hstep : step s u = some s') :
    s.stopped = false ∧ ∃ e sim, s.sim.next? = some (e, sim) ∧
      ((∃ i g, e.kind = .updateMobility i ∧ groups[i]? = some g ∧
        s' = ⟨sim.schedule g.timeDelta (.updateMobility i),
          s.groups.set i ((g.after (counts i)).update e.time), false⟩) ∨
      (e.kind = .stop ∧ s' = ⟨sim, s.groups, true⟩)) := by
  unfold step at hstep
  split at hstep
  · cases hstep
  rename_i hrunning
  have hrunning := Bool.eq_false_iff.mpr hrunning
  obtain ⟨⟨e, sim⟩, hn, rfl⟩ := Option.map_eq_some_iff.mp hstep
  refine ⟨hrunning, e, sim, hn, ?_⟩
  cases hk : e.kind with
  | stop => exact Or.inr ⟨rfl, rfl⟩
  | updateMobility i =>
      left
      obtain ⟨g, hg, -⟩ := h.update e ((Simulator.mem_of_next? hn).mpr (Or.inl rfl)) i hk
      have hget : s.groups[i]? = some (g.after (counts i)) := by
        rw [h.updated, List.getElem?_mapIdx, hg]
        rfl
      refine ⟨i, g, rfl, hg, ?_⟩
      simp only [State.execute, hget, (g.after_arguments _).1, (Simulator.next?_eq_some hn).2.1,
        hrunning]

omit [Add V] [DecidableEq V] in
/-- The events of the groups from the `i`-th on. -/
theorem scheduleUpdates_spec (sim : Simulator Kind) (i : ℕ) (groups : List (Group V)) :
    (scheduleUpdates sim i groups).now = sim.now ∧
      (scheduleUpdates sim i groups).nextUid = sim.nextUid + groups.length ∧
      ∀ e, e ∈ (scheduleUpdates sim i groups).queue ↔ e ∈ sim.queue ∨ ∃ j g, groups[j]? = some g ∧
        e = ⟨sim.now + g.timeDelta, sim.nextUid + j, .updateMobility (i + j)⟩ := by
  induction groups generalizing sim i with
  | nil => simp [scheduleUpdates]
  | cons g groups ih =>
      obtain ⟨hnow, huid, hqueue⟩ := ih (sim.schedule g.timeDelta (.updateMobility i)) (i + 1)
      refine ⟨hnow, ?_, fun e => ?_⟩
      · rw [scheduleUpdates, huid, Simulator.schedule_nextUid, List.length_cons]
        omega
      · rw [scheduleUpdates, hqueue, Simulator.mem_schedule]
        constructor
        · rintro ((rfl | he) | ⟨j, g', hg', rfl⟩)
          · exact Or.inr ⟨0, g, rfl, rfl⟩
          · exact Or.inl he
          · refine Or.inr ⟨j + 1, g', hg', ?_⟩
            simp only [Simulator.schedule_now, Simulator.schedule_nextUid, Event.mk.injEq, true_and,
              Kind.updateMobility.injEq]
            omega
        · rintro (he | ⟨j, g', hg', rfl⟩)
          · exact Or.inl (Or.inr he)
          · cases j with
            | zero =>
                cases hg'
                exact Or.inl (Or.inl rfl)
            | succ j =>
                refine Or.inr ⟨j, g', hg', ?_⟩
                simp only [Simulator.schedule_now, Simulator.schedule_nextUid, Event.mk.injEq,
                  true_and, Kind.updateMobility.injEq]
                omega

namespace Regular

/-- An update: the next one of its group is due a period later. -/
theorem updateMobility (h : Regular stopTime groups counts s) (hrunning : s.stopped = false)
    {e : Event Kind} {sim : Simulator Kind} (hn : s.sim.next? = some (e, sim)) {i : ℕ}
    {g : Group V} (hk : e.kind = .updateMobility i) (hg : groups[i]? = some g) :
    Regular stopTime groups (Function.update counts i (counts i + 1))
      ⟨sim.schedule g.timeDelta (.updateMobility i),
        s.groups.set i ((g.after (counts i)).update e.time), false⟩ := by
  obtain ⟨-, hnow, huid⟩ := Simulator.next?_eq_some hn
  have hmem : ∀ a, a ∈ s.sim.queue ↔ a = e ∨ a ∈ sim.queue := fun a => Simulator.mem_of_next? hn
  have hother : ∀ a ∈ sim.queue, a.kind ≠ .updateMobility i := by
    intro a ha hka
    have hbefore := Simulator.before_of_next? hn ha
    have heq := h.alone a ((hmem a).mpr (Or.inr ha)) e ((hmem e).mpr (Or.inl rfl)) (hka.trans hk.symm)
    subst heq
    exact hbefore.asymm hbefore
  obtain ⟨htime, hfirst⟩ : e.time = (counts i + 1) * g.timeDelta ∧
      (e.uid < groups.length ↔ counts i = 0) := by
    obtain ⟨g', hg', hupdate⟩ := h.update e ((hmem e).mpr (Or.inl rfl)) i hk
    cases hg.symm.trans hg'
    exact hupdate
  have hi : i < groups.length := (List.getElem?_eq_some_iff.mp hg).1
  obtain ⟨last, hlast, hstop⟩ := h.stopping hrunning
  have hlast' : last ∈ sim.queue := by
    obtain rfl | hlast := (hmem last).mp hlast
    · rw [hk] at hstop
      cases hstop
    · exact hlast
  refine ⟨?_, ?_, ?_, ?_, ?_, ?_, ?_, ?_, by simp⟩
  · apply List.ext_getElem?
    intro j
    simp only [h.updated, List.getElem?_set, List.getElem?_mapIdx, List.length_mapIdx]
    obtain rfl | hij := eq_or_ne i j
    · simp only [if_true, hi, hg, Option.map_some, Function.update_self, Group.after, htime]
    · simp only [hij, if_false, Function.update_of_ne hij.symm]
  · intro a ha b hb hab
    obtain rfl | ha := Simulator.mem_schedule.mp ha
    · obtain rfl | hb := Simulator.mem_schedule.mp hb
      · rfl
      · exact absurd hab.symm (hother b hb)
    · obtain rfl | hb := Simulator.mem_schedule.mp hb
      · exact absurd hab (hother a ha)
      · exact h.alone a ((hmem a).mpr (Or.inr ha)) b ((hmem b).mpr (Or.inr hb)) hab
  · intro a ha j hka
    obtain rfl | ha := Simulator.mem_schedule.mp ha
    · cases hka
      refine ⟨g, hg, ?_, ?_⟩
      · simp only [hnow, htime, Function.update_self]
        rw [Nat.cast_add_one, add_one_mul ((counts i : ℤ) + 1)]
      · have hnumbered := h.numbered
        simp only [huid, Function.update_self]
        omega
    · have hij : j ≠ i := fun hji => hother a ha (hji ▸ hka)
      rw [Function.update_of_ne hij]
      exact h.update a ((hmem a).mpr (Or.inr ha)) j hka
  · intro j hj
    obtain rfl | hij := eq_or_ne j i
    · exact ⟨_, Simulator.mem_schedule.mpr (Or.inl rfl), rfl⟩
    · obtain ⟨a, ha, hka⟩ := h.pending j hj
      obtain rfl | ha := (hmem a).mp ha
      · rw [hk] at hka
        cases hka
        exact absurd rfl hij
      · exact ⟨a, Simulator.mem_schedule.mpr (Or.inr ha), hka⟩
  · intro a ha hka
    obtain rfl | ha := Simulator.mem_schedule.mp ha
    · cases hka
    · exact h.stop a ((hmem a).mpr (Or.inr ha)) hka
  · exact fun _ => ⟨last, Simulator.mem_schedule.mpr (Or.inr hlast'), hstop⟩
  · have hnumbered := h.numbered
    simp only [Simulator.schedule_nextUid, huid]
    omega
  · intro j g' hg' hpos
    obtain rfl | hij := eq_or_ne j i
    · cases hg.symm.trans hg'
      -- the update ran ahead of the stop
      obtain ⟨hstopTime, hstopUid⟩ := h.stop last hlast hstop
      have hbefore := Simulator.before_of_next? hn hlast'
      simp only [Event.Before, htime, hstopTime, hstopUid] at hbefore
      rw [Function.update_self]
      obtain hlt | ⟨heq, hlt⟩ := hbefore
      · left
        exact_mod_cast hlt
      · have hzero := hfirst.mp hlt
        rw [hzero, Nat.cast_zero, zero_add, one_mul] at heq
        exact Or.inr ⟨by rw [hzero], by exact_mod_cast heq⟩
    · rw [Function.update_of_ne hij] at hpos ⊢
      exact h.ran j g' hg' hpos

/-- The stop: every update that is still pending comes after it. -/
theorem stopped (h : Regular stopTime groups counts s) {e : Event Kind} {sim : Simulator Kind}
    (hn : s.sim.next? = some (e, sim)) (hk : e.kind = .stop) :
    Regular stopTime groups counts ⟨sim, s.groups, true⟩ := by
  have hmem : ∀ a, a ∈ s.sim.queue ↔ a = e ∨ a ∈ sim.queue := fun a => Simulator.mem_of_next? hn
  have hkeep : ∀ i < groups.length, ∃ a ∈ sim.queue, a.kind = .updateMobility i := by
    intro i hi
    obtain ⟨a, ha, hka⟩ := h.pending i hi
    obtain rfl | ha := (hmem a).mp ha
    · rw [hk] at hka
      cases hka
    · exact ⟨a, ha, hka⟩
  refine ⟨h.updated, ?_, ?_, hkeep, ?_, by simp, ?_, h.ran, ?_⟩
  · exact fun a ha b hb => h.alone a ((hmem a).mpr (Or.inr ha)) b ((hmem b).mpr (Or.inr hb))
  · exact fun a ha => h.update a ((hmem a).mpr (Or.inr ha))
  · exact fun a ha => h.stop a ((hmem a).mpr (Or.inr ha))
  · rw [(Simulator.next?_eq_some hn).2.2]
    exact h.numbered
  · intro _ i g hg
    obtain ⟨a, ha, hka⟩ := hkeep i (List.getElem?_eq_some_iff.mp hg).1
    obtain ⟨g', hg', htime, hfirst⟩ := h.update a ((hmem a).mpr (Or.inr ha)) i hka
    cases hg.symm.trans hg'
    obtain ⟨hstopTime, hstopUid⟩ := h.stop e ((hmem e).mpr (Or.inl rfl)) hk
    have hbefore := Simulator.before_of_next? hn ha
    simp only [Event.Before, htime, hstopTime, hstopUid] at hbefore
    obtain hlt | ⟨heq, hlt⟩ := hbefore
    · left
      exact_mod_cast hlt
    · refine Or.inr ⟨by exact_mod_cast heq, fun hzero => ?_⟩
      exact absurd (hfirst.mpr hzero) (not_lt.mpr hlt.le)

/-- What `main` has scheduled. -/
theorem start (stopTime : ℕ) (groups : List (Group V)) :
    Regular stopTime groups (fun _ => 0) (.start stopTime groups) := by
  obtain ⟨hnow, huid, hqueue⟩ := scheduleUpdates_spec (.empty 0) 0 groups
  have hmem : ∀ e, e ∈ (State.start stopTime groups).sim.queue ↔
      e = ⟨stopTime, groups.length, .stop⟩ ∨ ∃ i g, groups[i]? = some g ∧
        e = ⟨g.timeDelta, i, .updateMobility i⟩ := by
    intro e
    simp only [State.start, Simulator.mem_schedule, hqueue, hnow, huid]
    simp only [Simulator.empty, zero_add, List.not_mem_nil, false_or]
  refine ⟨?_, ?_, ?_, ?_, ?_, ?_, ?_, by simp, by simp [State.start]⟩
  · apply List.ext_getElem?
    intro i
    simp [State.start, Group.after]
  · intro a ha b hb hab
    obtain rfl | ⟨i, g, hg, rfl⟩ := (hmem a).mp ha
    · obtain rfl | ⟨j, g', hg', rfl⟩ := (hmem b).mp hb
      · rfl
      · cases hab
    · obtain rfl | ⟨j, g', hg', rfl⟩ := (hmem b).mp hb
      · cases hab
      · cases hab
        cases hg.symm.trans hg'
        rfl
  · intro e he i hk
    obtain rfl | ⟨j, g, hg, rfl⟩ := (hmem e).mp he
    · cases hk
    · cases hk
      have hi := (List.getElem?_eq_some_iff.mp hg).1
      exact ⟨g, hg, by simp, by simp [hi]⟩
  · intro i hi
    have hg := List.getElem?_eq_getElem hi
    exact ⟨_, (hmem _).mpr (Or.inr ⟨i, _, hg, rfl⟩), rfl⟩
  · intro e he hk
    obtain rfl | ⟨j, g, hg, rfl⟩ := (hmem e).mp he
    · exact ⟨rfl, rfl⟩
    · cases hk
  · exact fun _ => ⟨_, (hmem _).mpr (Or.inl rfl), rfl⟩
  · simp only [State.start, Simulator.schedule_nextUid, huid]
    omega

end Regular

/-- The invariant holds in every run. -/
theorem regular (h : Reach step always (.start stopTime groups) s) :
    ∃ counts, Regular stopTime groups counts s := by
  refine h.invariant (P := fun s => ∃ counts, Regular stopTime groups counts s)
    ⟨_, Regular.start stopTime groups⟩ fun s u s' _ ⟨counts, hs⟩ _ hstep => ?_
  obtain ⟨hrunning, e, sim, hn, ⟨i, g, hk, hg, rfl⟩ | ⟨hk, rfl⟩⟩ := step_cases hs hstep
  · exact ⟨_, hs.updateMobility hrunning hn hk hg⟩
  · exact ⟨_, hs.stopped hn hk⟩

/-- How often a group with this period is updated. -/
def rounds (stopTime timeDelta : ℕ) : ℕ :=
  if timeDelta = stopTime then 1 else (stopTime - 1) / timeDelta

/-- The number of updates when the simulation has stopped. -/
theorem Regular.counts_eq (h : Regular stopTime groups counts s) (hstopped : s.stopped = true)
    {i : ℕ} {g : Group V} (hg : groups[i]? = some g) (hpos : 0 < g.timeDelta) :
    counts i = rounds stopTime g.timeDelta := by
  have hran := h.ran i g hg
  have hended := h.ended hstopped i g hg
  unfold rounds
  split
  · rename_i heq
    rw [heq] at hran hended hpos
    have hne : counts i ≠ 0 := by
      intro hzero
      simp [hzero] at hended
    obtain hlt | ⟨hone, -⟩ := hran (Nat.pos_of_ne_zero hne)
    · exact absurd hlt (not_lt.mpr (Nat.le_mul_of_pos_left stopTime (Nat.pos_of_ne_zero hne)))
    · exact hone
  · rename_i hne
    have hle : stopTime ≤ (counts i + 1) * g.timeDelta := by
      obtain hlt | ⟨heq, -⟩ := hended
      · exact hlt.le
      · exact heq.le
    have hlt : counts i = 0 ∨ counts i * g.timeDelta < stopTime := by
      obtain hzero | hcount := Nat.eq_zero_or_pos (counts i)
      · exact Or.inl hzero
      · obtain hlt | ⟨-, heq⟩ := hran hcount
        · exact Or.inr hlt
        · exact absurd heq hne
    have hlast : 0 < (counts i + 1) * g.timeDelta := Nat.mul_pos (Nat.succ_pos _) hpos
    symm
    refine Nat.div_eq_of_lt_le ?_ (by omega)
    obtain hzero | hlt := hlt
    · rw [hzero, Nat.zero_mul]
      exact Nat.zero_le _
    · omega

/-- The updates that could still run, and the stop. -/
def State.rank (stopTime : ℕ) (s : State V) : ℕ :=
  (s.groups.map fun g => stopTime - g.times.length).sum + if s.stopped then 0 else 1

omit [Add V] [DecidableEq V] in
theorem sum_map_set_lt (w : Group V → ℕ) {groups : List (Group V)} {i : ℕ} {g g' : Group V}
    (hg : groups[i]? = some g) (hlt : w g' < w g) :
    ((groups.set i g').map w).sum < (groups.map w).sum := by
  induction groups generalizing i with
  | nil => simp at hg
  | cons a groups ih =>
      cases i with
      | zero =>
          cases hg
          simpa using hlt
      | succ i => simpa using ih hg

/-- A round of `Simulator::Run` brings the simulation nearer to its stop. -/
theorem Regular.rank_lt (h : Regular stopTime groups counts s)
    (hgroups : ∀ g ∈ groups, 0 < g.timeDelta ∧ g.times = []) (hrunning : s.stopped = false) :
    ∃ s', step s () = some s' ∧ s'.rank stopTime < s.rank stopTime := by
  obtain ⟨last, hlast, -⟩ := h.stopping hrunning
  obtain ⟨⟨e, sim⟩, hn⟩ := Simulator.exists_next (List.ne_nil_of_mem hlast)
  obtain ⟨s', hstep⟩ : ∃ s', step s () = some s' := by
    simp only [step, hrunning, hn, Option.map_some]
    exact ⟨_, rfl⟩
  refine ⟨s', hstep, ?_⟩
  obtain ⟨-, e', sim', hn', ⟨i, g, hk, hg, rfl⟩ | ⟨hk, rfl⟩⟩ := step_cases h hstep
  · obtain ⟨hpos, htimes⟩ := hgroups g (List.mem_of_getElem? hg)
    have hafter := h.updateMobility hrunning hn' hk hg
    have hran := hafter.ran i g hg
    simp only [Function.update_self, Nat.succ_pos, forall_const] at hran
    have hbound : counts i + 1 ≤ stopTime := by
      obtain hlt | ⟨hone, heq⟩ := hran
      · exact (Nat.le_mul_of_pos_right _ hpos).trans hlt.le
      · omega
    have hget : s.groups[i]? = some (g.after (counts i)) := by
      rw [h.updated, List.getElem?_mapIdx, hg]
      rfl
    have hcount : (g.after (counts i)).times.length = counts i := by
      simp [g.times_after, htimes]
    have hlt : stopTime - ((g.after (counts i)).update e'.time).times.length <
        stopTime - (g.after (counts i)).times.length := by
      simp only [Group.update, List.length_append, List.length_singleton, hcount]
      omega
    simp only [State.rank, hrunning]
    exact Nat.add_lt_add_right
      (sum_map_set_lt (fun g => stopTime - g.times.length) hget hlt) _
  · simp [State.rank, hrunning]

/-- `Simulator::Run` returns. By then every group has been updated once in each of its periods before
the stop time, and at the stop time only if that is the time of its first update; every node has
taken as many steps, and each step that changes its velocity has been notified where it ended. -/
theorem updates_exact (hgroups : ∀ g ∈ groups, 0 < g.timeDelta ∧ g.times = [])
    (h : Reach step always (.start stopTime groups) s) :
    Leads step always (fun s => s.stopped = true) s ∧
      (s.stopped = true → ∀ (i : ℕ) (g : Group V), groups[i]? = some g →
        ∃ g', s.groups[i]? = some g' ∧
        g'.times = (List.range (rounds stopTime g.timeDelta)).map
          (fun k : ℕ => ((k + 1) * g.timeDelta : ℤ)) ∧
        ∀ (j : ℕ) (m : ExternalMobilityModel V), g.nodes[j]? = some m → ∃ m', g'.nodes[j]? = some m' ∧
          m'.current = g.next^[rounds stopTime g.timeDelta] m.current ∧
          m'.courseChanges = m.courseChanges ++ turns m.current
            (List.iterate g.next (g.next m.current) (rounds stopTime g.timeDelta))) := by
  constructor
  · refine Leads.of_rank (I := Reach step always (.start stopTime groups)) (State.rank stopTime)
      (fun s hs => ?_) h
    obtain ⟨counts, hregular⟩ := regular hs
    cases hstopped : s.stopped with
    | true => exact Or.inl rfl
    | false =>
        obtain ⟨s', hstep, hlt⟩ := hregular.rank_lt hgroups hstopped
        exact Or.inr ⟨(), s', trivial, hstep, Or.inr ⟨hs.next trivial hstep, hlt⟩⟩
  · intro hstopped i g hg
    obtain ⟨counts, hregular⟩ := regular h
    obtain ⟨hpos, htimes⟩ := hgroups g (List.mem_of_getElem? hg)
    have hcount := hregular.counts_eq hstopped hg hpos
    refine ⟨g.after (counts i), ?_, ?_, fun j m hm => ?_⟩
    · rw [hregular.updated, List.getElem?_mapIdx, hg]
      rfl
    · rw [g.times_after, htimes, List.nil_append, hcount]
    · refine ⟨g.updateNode^[counts i] m, ?_, ?_⟩
      · rw [g.nodes_after, List.getElem?_map, hm]
        rfl
      · rw [hcount]
        exact g.iterate_updateNode m _

/-- The groups of `main`: `nodesA` every two seconds, and `nodesB` every second. -/
def exampleGroups : List (Group (ℤ × ℤ × ℤ)) :=
  [⟨[.construct], (1, 0, 0), (1, 0, 0), 2, []⟩, ⟨[.construct], (0, 0, 1), (0, 0, 1), 1, []⟩]

theorem updates_exact_example :
    ∃ s, run (guarded always step) (.start 10 exampleGroups) (List.replicate 14 ()) = some s ∧
      s.stopped = true ∧ ∃ g, s.groups[1]? = some g ∧ g.times = [1, 2, 3, 4, 5, 6, 7, 8, 9] ∧
        ∃ m, g.nodes[0]? = some m ∧ m.current = ((0, 0, 9), (0, 0, 9)) := by
  have hrun : (run (guarded always step) (.start 10 exampleGroups) (List.replicate 14 ())).any
      (fun s => s.stopped = true) := by
    decide +kernel
  obtain ⟨s, hs, hp⟩ := (Option.any_eq_true _ _).mp hrun
  have hstopped := of_decide_eq_true hp
  obtain ⟨-, hexact⟩ := updates_exact (by decide) (.of_run hs)
  obtain ⟨g, hg, htimes, hnodes⟩ := hexact hstopped 1 _ rfl
  obtain ⟨m, hm, hcurrent, -⟩ := hnodes 0 _ rfl
  exact ⟨s, hs, hstopped, g, hg, htimes, m, hm, hcurrent⟩

end Runs

end Ns3Cosim.Mobility.Example
