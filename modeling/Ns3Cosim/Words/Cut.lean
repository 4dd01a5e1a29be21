import Ns3Cosim.Words.Occurrence

/-!
# Cutting a word at leftmost occurrences

`cut d w` repeatedly cuts `w` at the leftmost occurrence of `d`: the pieces
before the occurrences, and the remainder that contains no occurrence.
`split d w` lists the same pieces with the remainder as the last one.
-/

namespace Ns3Cosim.Words

variable {α : Type*} [DecidableEq α]

/-- One cut for each unit of fuel; every cut at a nonempty word shortens the rest. -/
def cutLoop (d : List α) : ℕ → List α → List (List α) × List α
  | 0, w => ([], w)
  | n + 1, w =>
      match find d w with
      | none => ([], w)
      | some k =>
          let rest := cutLoop d n (w.drop (k + d.length))
          (w.take k :: rest.1, rest.2)

/-- All the pieces ended by a leftmost `d`, and the remainder. -/
def cut (d w : List α) : List (List α) × List α := cutLoop d w.length w

/-- All the pieces between leftmost occurrences of `d`. -/
def split (d w : List α) : List (List α) := (cut d w).1 ++ [(cut d w).2]

theorem cutLoop_of_none {d w : List α} (h : find d w = none) (n : ℕ) :
    cutLoop d n w = ([], w) := by
  cases n with
  | zero => rfl
  | succ n => simp only [cutLoop, h]

/-- Fuel beyond the length of the word changes nothing. -/
theorem cutLoop_of_length_le {d : List α} (hd : d ≠ []) {n : ℕ} {w : List α}
    (hn : w.length ≤ n) : cutLoop d n w = cut d w := by
  induction n using Nat.strong_induction_on generalizing w with
  | _ n ih =>
      unfold cut
      cases hf : find d w with
      | none => rw [cutLoop_of_none hf, cutLoop_of_none hf]
      | some k =>
          have hlen := find_length_le hf
          have hpos := List.length_pos_iff.mpr hd
          obtain ⟨n, rfl⟩ : ∃ m, n = m + 1 := ⟨n - 1, by omega⟩
          obtain ⟨l, hl⟩ : ∃ l, w.length = l + 1 := ⟨w.length - 1, by omega⟩
          simp only [cutLoop, hf, hl]
          have hrest : (w.drop (k + d.length)).length ≤ l := by
            rw [List.length_drop]
            omega
          rw [ih n (by omega) (hrest.trans (by omega)), ih l (by omega) hrest]

theorem cut_of_none {d w : List α} (h : find d w = none) : cut d w = ([], w) :=
  cutLoop_of_none h _

theorem cut_of_some {d w : List α} (hd : d ≠ []) {k : ℕ} (h : find d w = some k) :
    cut d w = (w.take k :: (cut d (w.drop (k + d.length))).1,
      (cut d (w.drop (k + d.length))).2) := by
  have hlen := find_length_le h
  have hpos := List.length_pos_iff.mpr hd
  obtain ⟨l, hl⟩ : ∃ l, w.length = l + 1 := ⟨w.length - 1, by omega⟩
  have hrest : (w.drop (k + d.length)).length ≤ l := by
    rw [List.length_drop]
    omega
  conv_lhs => unfold cut
  simp only [hl, cutLoop, h, cutLoop_of_length_le hd hrest]

/-- Induction along the cuts of a word. -/
theorem cut_induction {d : List α} (hd : d ≠ []) {motive : List α → Prop}
    (none : ∀ w, find d w = none → motive w)
    (some : ∀ w k, find d w = some k → motive (w.drop (k + d.length)) → motive w)
    (w : List α) : motive w := by
  generalize hn : w.length = n
  induction n using Nat.strong_induction_on generalizing w with
  | _ n ih =>
      cases hf : find d w with
      | none => exact none w hf
      | some k =>
          have hlen := find_length_le hf
          have hpos := List.length_pos_iff.mpr hd
          refine some w k hf (ih _ ?_ _ rfl)
          rw [List.length_drop]
          omega

/-- Putting `d` behind every piece gives back the word. -/
theorem cut_glue {d : List α} (hd : d ≠ []) (w : List α) :
    ((cut d w).1.map (· ++ d)).flatten ++ (cut d w).2 = w := by
  induction w using cut_induction hd with
  | none w hf => simp [cut_of_none hf]
  | some w k hf ih =>
      rw [cut_of_some hd hf, List.map_cons, List.flatten_cons, List.append_assoc,
        List.append_assoc, ih]
      exact find_decompose hf

/-- The remainder contains no `d`. -/
theorem find_cut_remainder {d : List α} (hd : d ≠ []) (w : List α) :
    find d (cut d w).2 = none := by
  induction w using cut_induction hd with
  | none w hf => simpa [cut_of_none hf] using hf
  | some w k hf ih =>
      rw [cut_of_some hd hf]
      exact ih

/-- Cutting can be done in instalments: more input is cut after the old remainder. -/
theorem cut_append {d : List α} (hd : d ≠ []) (w x : List α) :
    cut d (w ++ x) = ((cut d w).1 ++ (cut d ((cut d w).2 ++ x)).1,
      (cut d ((cut d w).2 ++ x)).2) := by
  induction w using cut_induction hd with
  | none w hf => simp [cut_of_none hf]
  | some w k hf ih =>
      have hlen := find_length_le hf
      rw [cut_of_some hd (find_append_of_some hf x), cut_of_some hd hf,
        List.drop_append_of_le_length hlen, List.take_append_of_le_length (by omega), ih]
      simp

/-- The pieces of a prefix are a prefix of the pieces. -/
theorem cut_isPrefix {d : List α} (hd : d ≠ []) {v w : List α} (h : v <+: w) :
    (cut d v).1 <+: (cut d w).1 := by
  obtain ⟨x, rfl⟩ := h
  rw [cut_append hd]
  exact List.prefix_append _ _

/-- A word that ends at the first `d` after it is cut off whole. -/
theorem cut_append_of_find {d : List α} (hd : d ≠ []) {m : List α}
    (h : find d (m ++ d) = some m.length) (w : List α) :
    cut d (m ++ (d ++ w)) = (m :: (cut d w).1, (cut d w).2) := by
  have hf : find d (m ++ (d ++ w)) = some m.length := by
    rw [← List.append_assoc]
    exact find_append_of_some h w
  rw [cut_of_some hd hf]
  simp [← List.drop_drop]

/-- Terminated words are cut back into exactly these words. -/
theorem cut_terminated {d : List α} (hd : d ≠ []) {ms : List (List α)}
    (h : ∀ m ∈ ms, find d (m ++ d) = some m.length) (w : List α) :
    cut d ((ms.map (· ++ d)).flatten ++ w) = (ms ++ (cut d w).1, (cut d w).2) := by
  induction ms with
  | nil => simp
  | cons m ms ih =>
      simp only [List.map_cons, List.flatten_cons, List.append_assoc]
      rw [cut_append_of_find hd (h m (by simp)), ih fun m hm => h m (by simp [hm])]
      simp

theorem split_of_none {d w : List α} (h : find d w = none) : split d w = [w] := by
  simp [split, cut_of_none h]

theorem split_of_some {d w : List α} (hd : d ≠ []) {k : ℕ} (h : find d w = some k) :
    split d w = w.take k :: split d (w.drop (k + d.length)) := by
  simp [split, cut_of_some hd h]

theorem split_ne_nil (d w : List α) : split d w ≠ [] := by
  simp [split]

/-- Putting `d` between the pieces of a split gives back the word. -/
theorem intercalate_split {d : List α} (hd : d ≠ []) (w : List α) :
    d.intercalate (split d w) = w := by
  induction w using cut_induction hd with
  | none w hf => simp [split_of_none hf]
  | some w k hf ih =>
      rw [split_of_some hd hf, List.intercalate_cons_of_ne_nil (split_ne_nil _ _), ih,
        List.append_assoc]
      exact find_decompose hf

/-- Fields of which all but the last end at the first `d` after them are split back into these
fields. -/
theorem split_intercalate {d : List α} (hd : d ≠ []) {vs : List (List α)} (hne : vs ≠ [])
    (hin : ∀ v ∈ vs, find d v = none)
    (hend : ∀ v ∈ vs.dropLast, find d (v ++ d) = some v.length) :
    split d (d.intercalate vs) = vs := by
  induction vs with
  | nil => exact absurd rfl hne
  | cons v vs ih =>
      cases vs with
      | nil =>
          rw [List.intercalate_singleton]
          exact split_of_none (hin v (by simp))
      | cons u us =>
          rw [List.intercalate_cons_cons]
          have hf := find_append_of_some (hend v (by simp)) (d.intercalate (u :: us))
          have hdrop : (v ++ d ++ d.intercalate (u :: us)).drop (v.length + d.length) =
              d.intercalate (u :: us) := by
            rw [← List.length_append, List.drop_left]
          rw [split_of_some hd hf, hdrop, List.append_assoc, List.take_left,
            ih (by simp) (fun w hw => hin w (by simp [hw])) (fun w hw => hend w (by simp [hw]))]

end Ns3Cosim.Words
