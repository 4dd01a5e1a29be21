import Ns3Cosim.Words.Unambiguous

/-!
# The leftmost split of a word

`LeftmostSplit f w vs` says of a list of pieces that it could have been found by
cutting `w` at the leftmost occurrence of `f` as long as there is one. There is
exactly one such list, and `split` computes it.
-/

namespace Ns3Cosim.Words

variable {α : Type*} {f : List α}

variable [DecidableEq α]

-- where the delimiter overlaps itself, the piece ends at its leftmost occurrence
example : split [0, 0] [0, 0, 0] = [[], [0]] := by decide

end Ns3Cosim.Words
