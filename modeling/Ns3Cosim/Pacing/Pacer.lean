import Mathlib.Algebra.Group.Defs
import Mathlib.Order.Lattice
import Mathlib.Data.List.Chain
import Ns3Cosim.Execution.Transition

/-!
# A paced sender

A sender that acts at ticks, of which at most one is due at a time. A tick with
work left makes an attempt and makes the next tick due one interval later; a
tick without work left makes none due. A request replaces the work that is
left, and makes a tick due at once unless one is due already.

The two laws are that attempts are an interval apart, and that a request which
no other one follows leads to its number of attempts, at the times of an
arithmetic progression. Time is any linearly ordered monoid.
-/

namespace Ns3Cosim.Pacing

open Execution

/-- A sender: the time, the time of the tick that is due, the attempts left to make, the number of
ticks so far and the times of the attempts so far. -/
@[ext]
structure Pacer (τ : Type*) where
  now : τ
  due : Option τ
  count : ℕ
  ticks : ℕ
  attempts : List τ

/-- What can happen to a sender. -/
inductive Move (τ : Type*)
  | wait (t : τ)
  | request (t : τ) (n : ℕ)
  | tick

/-- A move that brings no request. -/
def Move.NoRequest {τ : Type*} : Move τ → Prop
  | .request _ _ => False
  | .wait _ | .tick => True

namespace Pacer

variable {τ : Type*} [AddMonoid τ] [LinearOrder τ]

/-- Time may go on to `t`: it does not run backwards, and it does not pass the tick that is due. -/
def CanWait (p : Pacer τ) (t : τ) : Prop := p.now ≤ t ∧ ∀ d ∈ p.due, t ≤ d

instance (p : Pacer τ) (t : τ) : Decidable (p.CanWait t) :=
  inferInstanceAs (Decidable (p.now ≤ t ∧ ∀ d ∈ p.due, t ≤ d))

/-- A request for `n` attempts at the time `t`. -/
def request (p : Pacer τ) (t : τ) (n : ℕ) : Pacer τ :=
  { p with now := t, count := n, due := some (p.due.getD t) }

/-- The tick that is due at `d`. -/
def fire (interval : τ) (p : Pacer τ) (d : τ) : Pacer τ :=
  if p.count = 0 then { p with now := d, due := none, ticks := p.ticks + 1 }
  else
    { now := d, due := some (d + interval), count := p.count - 1, ticks := p.ticks + 1,
      attempts := p.attempts ++ [d] }

/-- One move of the sender. -/
def step (interval : τ) (p : Pacer τ) : Move τ → Option (Pacer τ)
  | .wait t => if p.CanWait t then some { p with now := t } else none
  | .request t n => if p.CanWait t then some (p.request t n) else none
  | .tick => p.due.map (p.fire interval)

variable {interval : τ} {p p' : Pacer τ} {m : Move τ}

/-- The forms of a move. -/
theorem step_cases (h : step interval p m = some p') :
    (∃ t, m = .wait t ∧ p.CanWait t ∧ p' = { p with now := t }) ∨
    (∃ t n, m = .request t n ∧ p.CanWait t ∧ p' = p.request t n) ∨
    (∃ d, m = .tick ∧ p.due = some d ∧ p' = p.fire interval d) := by
  cases m with
  | wait t =>
      simp only [step, Option.ite_none_right_eq_some, Option.some.injEq] at h
      exact Or.inl ⟨t, rfl, h.1, h.2.symm⟩
  | request t n =>
      simp only [step, Option.ite_none_right_eq_some, Option.some.injEq] at h
      exact Or.inr (Or.inl ⟨t, n, rfl, h.1, h.2.symm⟩)
  | tick =>
      obtain ⟨d, hd, hp⟩ := Option.map_eq_some_iff.mp h
      exact Or.inr (Or.inr ⟨d, rfl, hd, hp.symm⟩)

/-- The attempts since `base` are an interval apart, and the next one cannot come earlier than an
interval after the last one: neither at the tick that is due nor, if none is due, by a request. -/
def Spaced (interval : τ) (base : List τ) (p : Pacer τ) : Prop :=
  ∃ since, p.attempts = base ++ since ∧ since.IsChain (fun a b => a + interval ≤ b) ∧
    ∀ t ∈ since.getLast?, t + interval ≤ p.due.getD p.now

theorem Spaced.of_start : Spaced interval p.attempts p :=
  ⟨[], by simp, by simp, by simp⟩

/-- Every move keeps the attempts apart. -/
theorem Spaced.step {base : List τ} (h : Spaced interval base p)
    (hstep : step interval p m = some p') : Spaced interval base p' := by
  obtain ⟨since, hbase, hchain, hlast⟩ := h
  obtain ⟨t, -, hwait, rfl⟩ | ⟨t, n, -, hwait, rfl⟩ | ⟨d, -, hd, rfl⟩ := step_cases hstep
  · refine ⟨since, hbase, hchain, fun a ha => ?_⟩
    have hle := hlast a ha
    cases hdue : p.due with
    | none =>
        simp only [hdue, Option.getD_none] at hle ⊢
        exact hle.trans hwait.1
    | some d => simpa only [hdue, Option.getD_some] using hle
  · refine ⟨since, hbase, hchain, fun a ha => ?_⟩
    have hle := hlast a ha
    cases hdue : p.due with
    | none =>
        simp only [hdue, Option.getD_none] at hle
        simpa only [request, hdue, Option.getD_none, Option.getD_some] using hle.trans hwait.1
    | some d => simpa only [request, hdue, Option.getD_some] using hle
  · simp only [hd, Option.getD_some] at hlast
    by_cases hcount : p.count = 0
    · refine ⟨since, ?_, hchain, fun a ha => ?_⟩
      · simpa only [fire, hcount, if_true] using hbase
      · simpa only [fire, hcount, if_true, Option.getD_none] using hlast a ha
    · refine ⟨since ++ [d], ?_, ?_, fun a ha => ?_⟩
      · simp only [fire, hcount, if_false, hbase, List.append_assoc]
      · refine hchain.append (List.isChain_singleton d) fun a ha b hb => ?_
        simp only [List.head?_cons, Option.mem_some_iff] at hb
        subst hb
        exact hlast a ha
      · simp only [List.getLast?_concat, Option.mem_some_iff] at ha
        subst ha
        simp only [fire, hcount, if_false, Option.getD_some, le_refl]

/-- The pacing law: whatever is requested and whenever, any two consecutive attempts are an interval
apart, and when no tick is due, an interval has passed since the last one. -/
theorem spaced_of_reach {ok : Pacer τ → Move τ → Prop}
    (h : Reach (step interval) ok p p') : Spaced interval p.attempts p' :=
  h.invariant Spaced.of_start fun _ _ _ _ hs _ hstep => hs.step hstep

/-- After `k` ticks that follow a request for `n` attempts from `start` on: the attempts made, the
attempts left, and the tick that is due until there has been one tick more than attempts. -/
structure Burst (interval start : τ) (n : ℕ) (base : List τ) (k : ℕ) (p : Pacer τ) : Prop where
  attempts : p.attempts =
    base ++ (List.range (min n k)).map fun j => start + j • interval
  count : p.count = n - k
  due : k ≤ n → p.due = some (start + k • interval)
  done : n < k → p.due = none

omit [LinearOrder τ] in
theorem Burst.of_request (t : τ) (n : ℕ) :
    Burst interval (p.due.getD t) n p.attempts 0 (p.request t n) where
  attempts := by simp [request]
  count := rfl
  due _ := by simp [request]
  done h := absurd h (Nat.not_lt_zero n)

section Burst

variable {start : τ} {n k : ℕ} {base : List τ}

omit [LinearOrder τ] in
/-- A tick makes the next attempt of the burst, or closes it. -/
theorem Burst.fire {d : τ} (h : Burst interval start n base k p) (hd : p.due = some d) :
    Burst interval start n base (k + 1) (p.fire interval d) := by
  have hle : k ≤ n := by
    by_contra hlt
    rw [h.done (not_le.mp hlt)] at hd
    cases hd
  have hdue : d = start + k • interval := by
    rw [h.due hle] at hd
    exact (Option.some.inj hd).symm
  obtain hlt | heq := hle.lt_or_eq
  · have hcount : p.count ≠ 0 := by
      rw [h.count]
      omega
    simp only [Pacer.fire, hcount, if_false]
    constructor
    · rw [h.attempts, min_eq_right hle, min_eq_right hlt, List.range_succ, hdue]
      simp
    · simp only [h.count]
      omega
    · intro _
      rw [hdue, succ_nsmul, add_assoc]
    · intro hn
      omega
  · have hcount : p.count = 0 := by
      rw [h.count]
      omega
    simp only [Pacer.fire, hcount, if_true]
    constructor
    · rw [h.attempts]
      simp [heq]
    · change 0 = n - (k + 1)
      omega
    · intro hn
      omega
    · intro _
      rfl

/-- A move without a request goes on with the burst. -/
theorem Burst.step (h : Burst interval start n base k p) (hm : m.NoRequest)
    (hstep : step interval p m = some p') :
    Burst interval start n base (k + (p'.ticks - p.ticks)) p' ∧ p.ticks ≤ p'.ticks := by
  obtain ⟨t, rfl, -, rfl⟩ | ⟨t, n, rfl, -⟩ | ⟨d, rfl, hd, rfl⟩ := step_cases hstep
  · simp only [Nat.sub_self, Nat.add_zero, le_refl, and_true]
    exact ⟨h.attempts, h.count, h.due, h.done⟩
  · exact hm.elim
  · have hticks : (p.fire interval d).ticks = p.ticks + 1 := by
      unfold Pacer.fire
      split <;> rfl
    rw [hticks, Nat.add_sub_cancel_left]
    exact ⟨h.fire hd, Nat.le_succ _⟩

end Burst

/-- The burst law: from a request at `t` for `n` attempts to the next request, `k` ticks make
`min n k` attempts, an interval apart from the time on at which the first tick was due. -/
theorem burst_of_reach {t : τ} {n : ℕ}
    (h : Reach (step interval) (fun _ m => m.NoRequest) (p.request t n) p') :
    Burst interval (p.due.getD t) n p.attempts (p'.ticks - p.ticks) p' := by
  have hinv : Burst interval (p.due.getD t) n p.attempts (p'.ticks - p.ticks) p' ∧
      p.ticks ≤ p'.ticks := by
    refine h.invariant (P := fun q =>
      Burst interval (p.due.getD t) n p.attempts (q.ticks - p.ticks) q ∧ p.ticks ≤ q.ticks) ?_ ?_
    · have hticks : (p.request t n).ticks - p.ticks = 0 := Nat.sub_self _
      rw [hticks]
      exact ⟨Burst.of_request t n, le_rfl⟩
    · rintro q m q' - ⟨hq, hle⟩ hm hstep
      obtain ⟨hq', hle'⟩ := hq.step hm hstep
      have hk : q.ticks - p.ticks + (q'.ticks - q.ticks) = q'.ticks - p.ticks := by omega
      rw [hk] at hq'
      exact ⟨hq', hle.trans hle'⟩
  exact hinv.1

end Pacer

end Ns3Cosim.Pacing
