import Ns3Cosim.Words.Cut
import Mathlib.Data.List.Infix

/-!
# Delimiters that do not overlap

An occurrence of a delimiter that nobody wrote arises where a suffix of one
word meets a prefix of the next. Two delimiters are `Clear` of each other when
no such meeting point can complete either of them; then text that contains
neither of them is cut and split back exactly as it was put together.
-/

namespace Ns3Cosim.Words

variable {α : Type*}

/-- No nonempty suffix of `x` is a prefix of `y`. -/
def Separated (x y : List α) : Prop := ∀ s, s <:+ x → s <+: y → s = []

/-- No proper nonempty prefix of `x` is also a suffix of it. -/
def Unbordered (x : List α) : Prop := ∀ s, s <:+ x → s <+: x → s = [] ∨ s = x

/-- The field delimiter `f` and the message delimiter `d` overlap neither themselves nor each
other, and `f` does not occur in `d`. -/
structure Clear (f d : List α) : Prop where
  field : Unbordered f
  message : Unbordered d
  fieldMessage : Separated f d
  messageField : Separated d f
  notInside : ¬ f <:+: d

instance [DecidableEq α] (x y : List α) : Decidable (Separated x y) :=
  decidable_of_iff (∀ s ∈ x.tails, s <+: y → s = []) (by simp [Separated])

instance [DecidableEq α] (x : List α) : Decidable (Unbordered x) :=
  decidable_of_iff (∀ s ∈ x.tails, s <+: x → s = [] ∨ s = x) (by simp [Unbordered])

instance [DecidableEq α] (f d : List α) : Decidable (Clear f d) :=
  decidable_of_iff
    (Unbordered f ∧ Unbordered d ∧ Separated f d ∧ Separated d f ∧ ¬ f <:+: d)
    ⟨fun ⟨a, b, c, e, g⟩ => ⟨a, b, c, e, g⟩, fun ⟨a, b, c, e, g⟩ => ⟨a, b, c, e, g⟩⟩

theorem separated_of_disjoint {x y : List α} (h : x.Disjoint y) : Separated x y := by
  intro s hs hp
  cases s with
  | nil => rfl
  | cons c s => exact (h (hs.subset List.mem_cons_self) (hp.subset List.mem_cons_self)).elim

/-- Unbordered delimiters without a common character are clear of each other. -/
theorem clear_of_disjoint {f d : List α} (hf : f ≠ []) (hfu : Unbordered f)
    (hdu : Unbordered d) (h : f.Disjoint d) : Clear f d where
  field := hfu
  message := hdu
  fieldMessage := separated_of_disjoint h
  messageField := separated_of_disjoint fun _ hd hf => h hf hd
  notInside := by
    intro hin
    obtain ⟨c, f, rfl⟩ := List.exists_cons_of_ne_nil hf
    exact h List.mem_cons_self (hin.subset List.mem_cons_self)

/-- No unbordered word starts inside a text without it that it follows. -/
theorem avoids_self {d v : List α} (hd : Unbordered d) (hin : ¬ d <:+: v) (z : List α) :
    Avoids d v (d ++ z) := by
  refine Avoids.of_forall hin fun s t hst hs ht _ hp => ?_
  have hlen : t.length < d.length := by
    have := List.length_pos_iff.mpr hs
    rw [hst, List.length_append]
    omega
  have htd : t <+: d :=
    List.prefix_of_prefix_length_le hp (List.prefix_append _ _) (by omega)
  obtain h | h := hd t ⟨s, hst.symm⟩ htd
  · exact ht h
  · rw [h] at hlen
    omega

/-- Nothing starts inside a field that is followed by the field delimiter. -/
theorem Clear.avoids_field {f d v : List α} (h : Clear f d) (hin : ¬ d <:+: v) (z : List α) :
    Avoids d v (f ++ z) := by
  refine Avoids.of_forall hin fun s t hst _ ht _ hp => ?_
  have hsuf : t <:+ d := ⟨s, hst.symm⟩
  obtain htf | hft := List.prefix_or_prefix_of_prefix hp (List.prefix_append f z)
  · exact ht (h.messageField t hsuf htf)
  · exact h.notInside (hft.isInfix.trans hsuf.isInfix)

/-- Nothing starts inside the field delimiter. -/
theorem Clear.avoids_delimiter {f d : List α} (h : Clear f d) (hin : ¬ d <:+: f) (z : List α) :
    Avoids d f z := by
  refine Avoids.of_forall hin fun s t hst hs _ hsf _ => ?_
  exact hs (h.fieldMessage s hsf ⟨t, hst.symm⟩)

/-- No message delimiter starts inside the fields that it ends. -/
theorem Clear.avoids_intercalate {f d : List α} (h : Clear f d) (hdf : ¬ d <:+: f)
    {vs : List (List α)} (hin : ∀ v ∈ vs, ¬ d <:+: v) (z : List α) :
    Avoids d (f.intercalate vs) (d ++ z) := by
  induction vs with
  | nil => exact avoids_nil _ _
  | cons v vs ih =>
      cases vs with
      | nil =>
          rw [List.intercalate_singleton]
          exact avoids_self h.message (hin v (by simp)) z
      | cons u us =>
          rw [List.intercalate_cons_cons, List.append_assoc]
          refine Avoids.append ?_ (Avoids.append (h.avoids_delimiter hdf _)
            (ih fun w hw => hin w (by simp [hw])))
          rw [List.append_assoc]
          exact h.avoids_field (hin v (by simp)) _

variable [DecidableEq α]

theorem find_append_self {d v : List α} (hd : Unbordered d) (hin : ¬ d <:+: v) :
    find d (v ++ d) = some v.length := by
  simpa using find_append_of_avoids [] (avoids_self hd hin [])

/-- The message delimiter is first found where the sender put it. -/
theorem Clear.find_intercalate {f d : List α} (h : Clear f d) (hdf : ¬ d <:+: f)
    {vs : List (List α)} (hin : ∀ v ∈ vs, ¬ d <:+: v) :
    find d (f.intercalate vs ++ d) = some (f.intercalate vs).length := by
  simpa using find_append_of_avoids [] (h.avoids_intercalate hdf hin [])

/-- Fields without the field delimiter are split back from the text between them. -/
theorem Clear.split_intercalate {f d : List α} (h : Clear f d) (hf : f ≠ [])
    {vs : List (List α)} (hne : vs ≠ []) (hin : ∀ v ∈ vs, ¬ f <:+: v) :
    split f (f.intercalate vs) = vs :=
  Words.split_intercalate hf hne (fun v hv => (find_eq_none_iff f v).mpr (hin v hv))
    (fun v hv => find_append_self h.field (hin v (List.mem_of_mem_dropLast hv)))

end Ns3Cosim.Words
