import Ns3Cosim.Words.Overlap

/-!
# Which texts are cut back as they were put together

Cutting a text gives back its parts exactly when no delimiter begins inside a
part before the delimiter that ends it. Every text of fields without
delimiters has this property exactly when the delimiters are `Clear`: each way
in which they can overlap is turned into fields that are cut wrongly.
-/

namespace Ns3Cosim.Words

variable {α : Type*}

/-- No field delimiter begins inside a field that another one follows, and no message delimiter
begins before the end of the fields. -/
structure Unambiguous (f d : List α) (vs : List (List α)) : Prop where
  field : ∀ v ∈ vs.dropLast, Avoids f v f
  message : Avoids d (f.intercalate vs) d

/-- What follows the occurrence that ends `x` is of no importance. -/
theorem avoids_append_iff (d x z : List α) : Avoids d x (d ++ z) ↔ Avoids d x d := by
  apply forall₂_congr
  intro j hj
  apply not_congr
  have hlen : d.length ≤ ((x ++ d).drop j).length := by
    rw [List.length_drop, List.length_append]
    omega
  have hdrop : (x ++ (d ++ z)).drop j = (x ++ d).drop j ++ z := by
    rw [← List.append_assoc, List.drop_append_of_le_length (by rw [List.length_append]; omega)]
  rw [hdrop]
  constructor
  · intro h
    exact List.prefix_of_prefix_length_le h (List.prefix_append _ _) hlen
  · intro h
    exact h.trans (List.prefix_append _ _)

theorem Avoids.of_append {d x y z : List α} (h : Avoids d (x ++ y) z) : Avoids d y z := by
  intro j hj hocc
  apply h (x.length + j) (by rw [List.length_append]; omega)
  rwa [List.append_assoc, List.drop_append, List.drop_eq_nil_of_le (by omega),
    List.nil_append, Nat.add_sub_cancel_left]

theorem Avoids.not_isPrefix {d x z : List α} (h : Avoids d x z) (hx : x ≠ []) :
    ¬ d <+: x ++ z :=
  h 0 (List.length_pos_iff.mpr hx)

/-- A border of `x` lets `x` begin inside the rest of `x`. -/
theorem unbordered_of_not_isPrefix {x : List α}
    (h : ∀ u s, x = u ++ s → u ≠ [] → s ≠ [] → ¬ x <+: u ++ x) : Unbordered x := by
  rintro s ⟨u, hu⟩ ⟨t, ht⟩
  by_contra hs
  obtain ⟨hs, hne⟩ := not_or.mp hs
  apply h u s hu.symm _ hs
  · refine ⟨t, ?_⟩
    calc x ++ t = u ++ s ++ t := by rw [hu]
      _ = u ++ x := by rw [List.append_assoc, ht]
  · rintro rfl
    exact hne hu

/-- A word is not part of what is left of it without some of its letters. -/
theorem not_infix_of_length {x u s : List α} (h : x.length = u.length + s.length) (hs : s ≠ []) :
    ¬ x <:+: u := by
  intro hin
  have hle := hin.length_le
  have hpos := List.length_pos_iff.mpr hs
  omega

/-- Clear delimiters make every text of fields without delimiters unambiguous. -/
theorem Clear.unambiguous {f d : List α} (h : Clear f d) (hdf : ¬ d <:+: f)
    {vs : List (List α)} (hin : ∀ v ∈ vs, ¬ f <:+: v ∧ ¬ d <:+: v) : Unambiguous f d vs where
  field := by
    intro v hv
    have hv := avoids_self h.field (hin v (List.mem_of_mem_dropLast hv)).1 []
    rwa [avoids_append_iff] at hv
  message := by
    have hm := h.avoids_intercalate hdf (fun v hv => (hin v hv).2) []
    rwa [avoids_append_iff] at hm

variable [DecidableEq α]

/-- A leftmost occurrence right after `x` is one before which none begins. -/
theorem find_append_self_iff (d x z : List α) :
    find d (x ++ (d ++ z)) = some x.length ↔ Avoids d x d := by
  rw [← avoids_append_iff d x z]
  constructor
  · intro h
    exact ((find_eq_some_iff _ _ _).mp h).2.2
  · exact find_append_of_avoids z

/-- Every piece ends at the first `d` after it. -/
theorem find_of_mem_cut {d : List α} (hd : d ≠ []) (w : List α) :
    ∀ m ∈ (cut d w).1, find d (m ++ d) = some m.length := by
  induction w using cut_induction hd with
  | none w hf => simp [cut_of_none hf]
  | some w k hf ih =>
      rw [cut_of_some hd hf, List.forall_mem_cons]
      refine ⟨?_, ih⟩
      have hlen : (w.take k).length = k :=
        List.length_take_of_le ((find_eq_some_iff _ _ _).mp hf).1
      have hdecompose : find d (w.take k ++ (d ++ w.drop (k + d.length))) =
          some (w.take k).length := by
        rw [find_decompose hf, hlen, hf]
      have havoids := (find_append_self_iff d _ _).mp hdecompose
      simpa using (find_append_self_iff d _ []).mpr havoids

/-- A first piece that ends where `x` ends is cut off at the delimiter after `x`. -/
theorem find_of_take {d x z : List α}
    (h : ∀ k, find d (x ++ (d ++ z)) = some k → (x ++ (d ++ z)).take k = x) :
    find d (x ++ (d ++ z)) = some x.length := by
  cases hf : find d (x ++ (d ++ z)) with
  | none =>
      apply absurd _ ((find_eq_none_iff _ _).mp hf)
      exact ⟨x, z, by simp⟩
  | some k =>
      have hlen := congrArg List.length (h k hf)
      have hle := ((find_eq_some_iff _ _ _).mp hf).1
      rw [List.length_take, Nat.min_eq_left hle] at hlen
      rw [hlen]

/-- Terminated words are cut back into themselves exactly when the terminator begins in none of
them. -/
theorem cut_terminated_iff {d : List α} (hd : d ≠ []) (ms : List (List α)) :
    (cut d (ms.map (· ++ d)).flatten).1 = ms ↔ ∀ m ∈ ms, Avoids d m d := by
  constructor
  · intro h
    induction ms with
    | nil => simp
    | cons m ms ih =>
        simp only [List.map_cons, List.flatten_cons, List.append_assoc] at h
        have hf : find d (m ++ (d ++ (ms.map (· ++ d)).flatten)) = some m.length := by
          apply find_of_take
          intro k hk
          rw [cut_of_some hd hk] at h
          exact (List.cons.inj h).1
        rw [cut_of_some hd hf, ← List.drop_drop, List.drop_left, List.drop_left] at h
        rw [List.forall_mem_cons]
        exact ⟨(find_append_self_iff d m _).mp hf, ih (List.cons.inj h).2⟩
  · intro h
    have hcut := cut_terminated hd (fun m hm => by
      simpa using (find_append_self_iff d m []).mpr (h m hm)) []
    rw [List.append_nil] at hcut
    rw [hcut, cut_of_none ((find_eq_none_iff d []).mpr (by simpa using hd)), List.append_nil]

/-- Fields are split back into themselves exactly when the delimiter begins in none of those that it
follows. -/
theorem split_intercalate_iff {f : List α} (hf : f ≠ []) {vs : List (List α)} (hne : vs ≠ [])
    (hin : ∀ v ∈ vs, ¬ f <:+: v) :
    split f (f.intercalate vs) = vs ↔ ∀ v ∈ vs.dropLast, Avoids f v f := by
  constructor
  · intro h
    induction vs with
    | nil => exact absurd rfl hne
    | cons v vs ih =>
        cases vs with
        | nil => simp
        | cons u us =>
            rw [List.intercalate_cons_cons, List.append_assoc] at h
            have hv : find f (v ++ (f ++ f.intercalate (u :: us))) = some v.length := by
              apply find_of_take
              intro k hk
              rw [split_of_some hf hk] at h
              exact (List.cons.inj h).1
            rw [split_of_some hf hv, ← List.drop_drop, List.drop_left, List.drop_left] at h
            rw [List.dropLast_cons_cons, List.forall_mem_cons]
            exact ⟨(find_append_self_iff f v _).mp hv,
              ih (by simp) (fun w hw => hin w (by simp [hw])) (List.cons.inj h).2⟩
  · intro h
    apply split_intercalate hf hne
    · intro v hv
      exact (find_eq_none_iff f v).mpr (hin v hv)
    · intro v hv
      simpa using (find_append_self_iff f v []).mpr (h v hv)

/-- The pieces of a split do not contain the delimiter. -/
theorem not_infix_of_mem_split {f : List α} (hf : f ≠ []) (w : List α) :
    ∀ v ∈ split f w, ¬ f <:+: v := by
  induction w using cut_induction hf with
  | none w hw =>
      rw [split_of_none hw]
      simpa using (find_eq_none_iff f w).mp hw
  | some w k hw ih =>
      rw [split_of_some hf hw, List.forall_mem_cons]
      refine ⟨?_, ih⟩
      rw [← find_eq_none_iff]
      cases hk : find f (w.take k) with
      | none => rfl
      | some j =>
          have hlen := find_length_le hk
          have hpos := List.length_pos_iff.mpr hf
          have hj := find_append_of_some hk (w.drop k)
          rw [List.take_append_drop, hw] at hj
          cases hj
          rw [List.length_take] at hlen
          omega

/-- Two delimiters are clear exactly when every text of fields without them is unambiguous. -/
theorem clear_iff {f d : List α} (hf : f ≠ []) (hd : d ≠ []) (hdf : ¬ d <:+: f) :
    Clear f d ↔ ∀ vs, vs ≠ [] → (∀ v ∈ vs, ¬ f <:+: v ∧ ¬ d <:+: v) → Unambiguous f d vs := by
  refine ⟨fun h vs _ hin => h.unambiguous hdf hin, fun h => ?_⟩
  have hempty : ¬ f <:+: ([] : List α) ∧ ¬ d <:+: ([] : List α) := by simp [hf, hd]
  -- the pieces of the message delimiter would put it back together
  have hfd : ¬ f <:+: d := by
    intro hin
    have hm := (h (split f d) (split_ne_nil f d) fun v hv =>
      have hv := not_infix_of_mem_split hf d v hv
      ⟨hv, fun hdv => hv (hin.trans hdv)⟩).message
    rw [intercalate_split hf] at hm
    exact hm.not_isPrefix hd (List.prefix_append _ _)
  refine ⟨?_, ?_, ?_, ?_, hfd⟩
  · apply unbordered_of_not_isPrefix
    intro u s hus hu hs
    have hulen : f.length = u.length + s.length := by rw [hus, List.length_append]
    have hud : ¬ d <:+: u := fun hin => hdf (hin.trans ⟨[], s, by simp [hus]⟩)
    have hplain := h [u, []] (by simp) (by
      simp [hempty, not_infix_of_length hulen hs, hud])
    exact (hplain.field u (by simp)).not_isPrefix hu
  · apply unbordered_of_not_isPrefix
    intro u s hus hu hs
    have hulen : d.length = u.length + s.length := by rw [hus, List.length_append]
    have huf : ¬ f <:+: u := fun hin => hfd (hin.trans ⟨[], s, by simp [hus]⟩)
    have hplain := h [u] (by simp) (by simp [not_infix_of_length hulen hs, huf])
    have hm := hplain.message
    rw [List.intercalate_singleton] at hm
    exact hm.not_isPrefix hu
  · rintro s ⟨x, hx⟩ ⟨y, hy⟩
    by_contra hs
    have hylen : d.length = y.length + s.length := by
      rw [← hy, List.length_append, Nat.add_comm]
    have hyf : ¬ f <:+: y := fun hin => hfd (hin.trans ⟨s, [], by simp [hy]⟩)
    have hplain := h [[], y] (by simp) (by
      simp [hempty, not_infix_of_length hylen hs, hyf])
    have hm := hplain.message
    rw [List.intercalate_cons_cons, List.intercalate_singleton, List.nil_append, ← hx,
      List.append_assoc, hy] at hm
    exact hm.of_append.not_isPrefix hd (List.prefix_append _ _)
  · rintro s ⟨x, hx⟩ ⟨y, hy⟩
    by_contra hs
    have hxlen : d.length = x.length + s.length := by rw [← hx, List.length_append]
    have hxf : ¬ f <:+: x := fun hin => hfd (hin.trans ⟨[], s, by simp [hx]⟩)
    have hplain := h [x, []] (by simp) (by
      simp [hempty, not_infix_of_length hxlen hs, hxf])
    have hm := hplain.message
    rw [List.intercalate_cons_cons, List.intercalate_singleton, List.append_nil, ← hy,
      ← List.append_assoc, hx] at hm
    apply hm.not_isPrefix
    · simp [hd]
    · rw [List.append_assoc]
      exact List.prefix_append _ _

end Ns3Cosim.Words
