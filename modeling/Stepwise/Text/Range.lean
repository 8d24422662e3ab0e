/-!
# Ranges of code points

A character property is a set of code points, written as the list of the
ranges it consists of. Each property table of this library is one such list,
and membership is a scan of it. The tables are those of version 17.0 of the
Unicode standard.
-/

namespace Stepwise.Text

/-- A range of code points, both ends included. -/
abbrev CodeRange := Nat × Nat

/-- Whether a code point lies in one of the ranges. -/
def inRanges (ranges : List CodeRange) (code : Nat) : Bool :=
  ranges.any fun range => range.1 ≤ code && code ≤ range.2

theorem inRanges_eq_true_iff {ranges : List CodeRange} {code : Nat} :
    inRanges ranges code = true
      ↔ ∃ range ∈ ranges, range.1 ≤ code ∧ code ≤ range.2 := by
  simp [inRanges, List.any_eq_true]

end Stepwise.Text
