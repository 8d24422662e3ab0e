import Mathlib.LinearAlgebra.Matrix.Echelon.Pivot
import Stepwise.Proofs.Elimination.RowEquivalence

/-!
# The number of pivots is the rank

A matrix is read as a function of two indices (`RatMatrix.toBlock`), over as
many of its first columns as one likes. Reduction multiplies this function by
one that has an inverse, so it keeps the rank; and the pivots of a reduced
matrix are those of the theory (`RatMatrix.IsEchelon.isPivotedBy`), whose number
is the rank. So the number of pivots that a reduction finds is a property of the
columns it pivots in, whatever moves it makes (`RatMatrix.rank_reduceColumns`).
-/

namespace Stepwise.RatMatrix

/-! ## Pivots -/

namespace IsEchelon

variable {m : RatMatrix} {columns : Nat} {pivots : List Nat}
  (h : m.IsEchelon columns pivots)

/-- The pivot column of a row, and the top element for a row without pivot. -/
def pivotOf (i : Fin m.rows) : WithTop (Fin columns) :=
  if hi : (i : Nat) < pivots.length then
    ((⟨pivots[(i : Nat)], h.lt_columns _ (List.getElem_mem hi)⟩ :
      Fin columns) : WithTop (Fin columns))
  else ⊤

theorem pivotOf_ne_top_iff (i : Fin m.rows) :
    h.pivotOf i ≠ ⊤ ↔ (i : Nat) < pivots.length := by
  unfold pivotOf
  split
  · exact iff_of_true (WithTop.coe_ne_top) ‹_›
  · exact iff_of_false (fun hne => hne rfl) ‹_›

include h

/-- A reduced matrix is in row-echelon form: where a row has been zero so far,
the rows below it are zero a column further. -/
theorem isRowEchelon : (m.toBlock m.rows columns).IsRowEchelon := by
  intro i i' hlt j hz
  rw [toBlock_apply]
  by_cases hi : (i : Nat) < pivots.length
  · have hget : pivots[(i : Nat)]? = some pivots[(i : Nat)] :=
      List.getElem?_eq_getElem hi
    -- the row is not zero at its pivot, which is therefore no earlier column
    have hle : (j : Nat) ≤ pivots[(i : Nat)] := by
      by_contra hgt
      have hzero : m.entry i pivots[(i : Nat)] = 0 :=
        hz ⟨pivots[(i : Nat)], h.col_lt hget⟩
          (Fin.lt_def.mpr (Nat.not_le.mp hgt))
      rw [h.unit i _ hget i i.isLt, if_pos rfl] at hzero
      exact one_ne_zero hzero
    by_cases hi' : (i' : Nat) < pivots.length
    · have hget' : pivots[(i' : Nat)]? = some pivots[(i' : Nat)] :=
        List.getElem?_eq_getElem hi'
      exact h.zero_left i' _ hget' j
        (Nat.lt_of_le_of_lt hle (h.pivot_lt_pivot hget hget' hlt))
    · exact h.zero_below i' (Nat.not_lt.mp hi') j j.isLt
  · exact h.zero_below i'
      (Nat.le_trans (Nat.not_lt.mp hi) (Nat.le_of_lt hlt)) j j.isLt

/-- **The pivots of a reduced matrix are its pivots** in the sense of the
theory. -/
theorem isPivotedBy : (m.toBlock m.rows columns).IsPivotedBy h.pivotOf := by
  refine ⟨h.isRowEchelon, fun i => ?_⟩
  by_cases hi : (i : Nat) < pivots.length
  · have hget : pivots[(i : Nat)]? = some pivots[(i : Nat)] :=
      List.getElem?_eq_getElem hi
    rw [pivotOf, dif_pos hi]
    refine ⟨fun j hj => ?_, fun c hc => ?_⟩
    · exact h.zero_left i _ hget j (Fin.lt_def.mp (WithTop.coe_lt_coe.mp hj))
    · rw [← WithTop.coe_inj.mp hc, toBlock_apply, h.unit i _ hget i i.isLt,
        if_pos rfl]
      exact one_ne_zero
  · rw [pivotOf, dif_neg hi]
    refine ⟨fun j _ => ?_, fun c hc => absurd hc.symm WithTop.coe_ne_top⟩
    exact h.zero_below i (Nat.not_lt.mp hi) j j.isLt

/-- **The rank of a reduced matrix** is the number of its pivots. -/
theorem rank_toBlock : (m.toBlock m.rows columns).rank = pivots.length := by
  rw [h.isPivotedBy.rank_eq]
  simp only [h.pivotOf_ne_top_iff, Fin.card_filter_val_lt,
    Nat.min_eq_right h.length_le]

end IsEchelon

/-! ## The rank of a matrix -/

/-- **The number of pivots that a reduction finds is the rank** of the columns
that may hold one: reduction multiplies them by a matrix, and multiplying by
another one takes it back. -/
theorem rank_reduceColumns (m : RatMatrix) (limit : Nat) :
    (m.reduceColumns limit).rank
      = (m.toBlock m.rows (min limit m.cols)).rank := by
  have hpivots := (isEchelon_reduceColumns m limit).rank_toBlock
  rw [rows_rref] at hpivots
  have hforth : (m.reduceColumns limit).rref.toBlock m.rows (min limit m.cols)
      = (m.rowTransform limit).toBlock m.rows m.rows
        * m.toBlock m.rows (min limit m.cols) := by
    rw [rref_eq_times, toBlock_times (cols_rowTransform m limit)]
  have hback : m.toBlock m.rows (min limit m.cols)
      = (m.rowTransformBack limit).toBlock m.rows m.rows
        * (m.reduceColumns limit).rref.toBlock m.rows (min limit m.cols) := by
    rw [← toBlock_times (cols_rowTransformBack m limit),
      rowTransformBack_times_rref]
  refine hpivots.symm.trans (Nat.le_antisymm ?_ ?_)
  · rw [hforth]
    exact Matrix.rank_mul_le_right _ _
  · rw [hback]
    exact Matrix.rank_mul_le_right _ _

/-- **The rank of a matrix**: the number of pivots that reduction over all its
columns finds. -/
def rank (m : RatMatrix) : Nat :=
  (m.reduceColumns m.cols).rank

theorem rank_eq_rank_toBlock (m : RatMatrix) :
    m.rank = (m.toBlock m.rows m.cols).rank := by
  rw [rank, rank_reduceColumns, Nat.min_self]

end Stepwise.RatMatrix
