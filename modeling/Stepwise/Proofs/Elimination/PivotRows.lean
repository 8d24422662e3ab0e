import Mathlib.Data.List.Sort
import Stepwise.Proofs.Elimination.Echelon

/-!
# The rows of a reduced matrix

A row of a reduced matrix is the left side of an equation. That of a pivot row
is the variable of the pivot and a sum over the columns without pivot, since of
the pivot columns only its own is not zero in it; that of any other row is zero
(`IsEchelon.sum_pivotRow`, `IsEchelon.sum_row_of_length_le`). Where every column
has its pivot the pivots are all columns in order, and a square matrix is the
identity (`IsEchelon.eq_identity`).
-/

namespace Stepwise.RatMatrix.IsEchelon

variable {m : RatMatrix} {columns : Nat} {pivots : List Nat}
  (h : m.IsEchelon columns pivots)

include h

/-! ## Equations -/

/-- **The equation of a pivot row** gives its variable in terms of the free
ones. -/
theorem sum_pivotRow {i c : Nat} (hi : pivots[i]? = some c) (f : Nat → Rat) :
    ∑ j ∈ Finset.range columns, m.entry i j * f j
      = f c + ∑ v ∈ (Finset.range columns).filter (· ∉ pivots),
          m.entry i v * f v := by
  rw [← Finset.sum_filter_add_sum_filter_not _ (· ∈ pivots)]
  refine congrArg (· + _) ?_
  have hmem : c ∈ pivots := List.mem_of_getElem? hi
  -- of the pivot variables only the one of this row occurs in it
  rw [Finset.sum_eq_single c]
  · rw [h.unit i c hi i (h.row_lt hi), if_pos rfl, one_mul]
  · intro c' hc' hne
    obtain ⟨i', hi'⟩ :=
      List.mem_iff_getElem?.mp (Finset.mem_filter.mp hc').2
    have hii : i ≠ i' := by
      rintro rfl
      exact hne (Option.some.inj (hi'.symm.trans hi))
    rw [h.unit i' c' hi' i (h.row_lt hi), if_neg hii, zero_mul]
  · intro hc
    exact absurd (Finset.mem_filter.mpr
      ⟨Finset.mem_range.mpr (h.col_lt hi), hmem⟩) hc

/-- The left side of a row without pivot is zero. -/
theorem sum_row_of_length_le {i : Nat} (hi : pivots.length ≤ i)
    (f : Nat → Rat) :
    ∑ j ∈ Finset.range columns, m.entry i j * f j = 0 := by
  refine Finset.sum_eq_zero fun j hj => ?_
  rw [h.zero_below i hi j (Finset.mem_range.mp hj), zero_mul]

/-! ## Full rank -/

/-- The columns without pivot, by their number. -/
theorem length_add_length_freeColumns :
    pivots.length
        + ((⟨m, pivots, []⟩ : Reduction).freeColumns columns).length
      = columns :=
  Reduction.rank_add_length_freeColumns (r := ⟨m, pivots, []⟩) h.nodup
    h.lt_columns

/-- **With a pivot for each column the pivots are all columns**, in order. -/
theorem pivots_eq_range (hfull : pivots.length = columns) :
    pivots = List.range columns := by
  have hnil : (⟨m, pivots, []⟩ : Reduction).freeColumns columns = [] := by
    have hlen := h.length_add_length_freeColumns
    rw [hfull] at hlen
    exact List.length_eq_zero_iff.mp (Nat.add_eq_left.mp hlen)
  refine List.SortedLT.eq_of_mem_iff h.increasing.sortedLT
    (List.sortedLT_range columns) fun c => ?_
  rw [List.mem_range]
  refine ⟨h.lt_columns c, fun hc => ?_⟩
  by_contra hfree
  have hmem := (Reduction.mem_freeColumns ⟨m, pivots, []⟩ columns c).mpr
    ⟨hc, hfree⟩
  rw [hnil] at hmem
  exact List.not_mem_nil hmem

/-- **A reduced square matrix of full rank is the identity.** -/
theorem eq_identity (hrows : m.rows = columns) (hcols : m.cols = columns)
    (hfull : pivots.length = columns) : m = identity columns := by
  refine ext_entry hrows hcols fun i j hi hj => ?_
  rw [hcols] at hj
  have hpivot : pivots[j]? = some j := by
    rw [h.pivots_eq_range hfull, List.getElem?_range hj]
  rw [h.unit j j hpivot i hi, entry_identity (hrows ▸ hi) hj]

end Stepwise.RatMatrix.IsEchelon
