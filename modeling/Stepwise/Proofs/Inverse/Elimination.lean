import Stepwise.Linear.Inverse
import Stepwise.Proofs.Determinant.Singular
import Stepwise.Proofs.Elimination.PivotRows
import Stepwise.Proofs.Elimination.RowEquivalence

/-!
# Elimination decides whether a matrix has an inverse

Reducing `[A | I]` with pivots in `A` gives `[P A | P]`, where `P` is the matrix
of the reduction of `A`. If each column of `A` has a pivot, `P A` is the
identity, and `P`, which has an inverse anyway, is that of `A`. If not, the
first column without pivot gives a vector that is not zero and that each row of
the reduced matrix, and so `A`, sends to zero. The determinant, which is worked
out without any elimination, tells the two cases apart
(`RatMatrix.invertByElimination_decides`).
-/

namespace Stepwise.RatMatrix

/-! ## The vector read off a column without pivot -/

theorem length_nullVector (rref : RatMatrix) (pivots : List Nat) (n : Nat) :
    (nullVector rref pivots n).length = n := by
  unfold nullVector
  split
  · exact List.length_replicate
  · rw [List.length_map, List.length_range]

/-- Only the columns that may hold a pivot are looked at. -/
theorem nullVector_beside {a b : RatMatrix} (h : b.rows = a.rows)
    (pivots : List Nat) :
    nullVector (a.beside b) pivots a.cols = nullVector a pivots a.cols := by
  unfold nullVector
  cases hfind : (List.range a.cols).find? fun c => !pivots.contains c with
  | none => rfl
  | some free =>
    have hlt := List.mem_range.mp (List.mem_of_find?_eq_some hfind)
    simp only [entry_beside h, if_pos hlt]

section NullVector

variable {m : RatMatrix} {columns : Nat} {pivots : List Nat}
  (h : m.IsEchelon columns pivots)

section Entries

variable {free : Nat}
  (hfind : (List.range columns).find? (fun c => !pivots.contains c)
    = some free)

include hfind

theorem lt_of_find?_eq_some : free < columns ∧ free ∉ pivots := by
  refine ⟨List.mem_range.mp (List.mem_of_find?_eq_some hfind), fun hmem => ?_⟩
  have hp := List.find?_some hfind
  rw [List.contains_iff_mem.mpr hmem] at hp
  cases hp

/-- The vector has one at its free variable and zero at every other. -/
theorem getD_nullVector_free {v : Nat} (hlt : v < columns)
    (hv : v ∉ pivots) :
    (nullVector m pivots columns).getD v 0 = if v = free then 1 else 0 := by
  unfold nullVector
  rw [hfind]
  simp only [getD_map_range, if_pos hlt, List.idxOf?_eq_none_iff.mpr hv]

include h

/-- The vector has at a pivot variable what makes up for the free one. -/
theorem getD_nullVector_pivot {i c : Nat} (hi : pivots[i]? = some c) :
    (nullVector m pivots columns).getD c 0 = -m.entry i free := by
  have hindex : pivots.idxOf? c = some i := by
    cases hrow : pivots.idxOf? c with
    | none =>
      exact absurd (List.mem_of_getElem? hi) (List.idxOf?_eq_none_iff.mp hrow)
    | some i' =>
      obtain ⟨hlt, hc, _⟩ := List.idxOf?_eq_some_iff.mp hrow
      exact congrArg some
        (h.row_unique (List.getElem?_eq_some_iff.mpr ⟨hlt, hc⟩) hi)
  unfold nullVector
  rw [hfind]
  simp only [getD_map_range, if_pos (h.col_lt hi), hindex]

end Entries

include h

/-- **The vector is sent to zero** by the reduced matrix, row by row. -/
theorem apply_nullVector (hc : m.cols = columns) :
    m.apply (nullVector m pivots columns) = List.replicate m.rows 0 := by
  cases hfind : (List.range columns).find? fun c => !pivots.contains c with
  | none =>
    unfold nullVector
    rw [hfind]
    exact apply_replicate_zero m columns
  | some free =>
    obtain ⟨hlt, hfree⟩ := lt_of_find?_eq_some hfind
    refine vector_ext (by rw [length_apply, List.length_replicate])
      fun i _ => ?_
    rw [getD_apply, getD_replicate_zero, hc]
    by_cases hi : i < pivots.length
    · have hget : pivots[i]? = some pivots[i] := List.getElem?_eq_getElem hi
      rw [h.sum_pivotRow hget, getD_nullVector_pivot h hfind hget,
        Finset.sum_eq_single free]
      · rw [getD_nullVector_free hfind hlt hfree, if_pos rfl, mul_one,
          neg_add_cancel]
      · intro v hv hne
        obtain ⟨hv, hvfree⟩ := Finset.mem_filter.mp hv
        rw [getD_nullVector_free hfind (Finset.mem_range.mp hv) hvfree,
          if_neg hne, mul_zero]
      · intro hn
        exact absurd
          (Finset.mem_filter.mpr ⟨Finset.mem_range.mpr hlt, hfree⟩) hn
    · exact h.sum_row_of_length_le (Nat.not_lt.mp hi) _

/-- **The vector is not zero** when some column has no pivot. -/
theorem nullVector_ne_zero (hlt : pivots.length < columns) :
    nullVector m pivots columns ≠ List.replicate columns 0 := by
  have hne : (⟨m, pivots, []⟩ : Reduction).freeColumns columns ≠ [] := by
    intro hnil
    have hlen := h.length_add_length_freeColumns
    rw [hnil] at hlen
    exact Nat.ne_of_lt hlt hlen
  cases hfind : (List.range columns).find? fun c => !pivots.contains c with
  | none =>
    rw [← List.head?_filter, List.head?_eq_none_iff] at hfind
    exact absurd hfind hne
  | some free =>
    obtain ⟨hlt, hfree⟩ := lt_of_find?_eq_some hfind
    intro hzero
    have hone : (nullVector m pivots columns).getD free 0 = 1 := by
      rw [getD_nullVector_free hfind hlt hfree, if_pos rfl]
    rw [hzero, getD_replicate_zero] at hone
    exact zero_ne_one hone

end NullVector

/-! ## The reduction of `[A | I]` -/

section Square

variable {a : RatMatrix} (hsq : a.rows = a.cols)

/-- The two parts of the reduction of `[A | I]` are of one height. -/
theorem rows_rowTransform_eq (a : RatMatrix) :
    (a.rowTransform a.cols).rows = (a.reduceColumns a.cols).rref.rows :=
  (rows_rowTransform a a.cols).trans (rows_rref a a.cols).symm

include hsq

theorem reduceWithIdentity_eq :
    a.reduceWithIdentity
      = (a.beside (identity a.rows)).reduceColumns a.cols := by
  rw [← hsq]
  rfl

/-- **The reduction of `[A | I]`** is that of `A`, beside the matrix of that
reduction. -/
theorem rref_reduceWithIdentity :
    a.reduceWithIdentity.rref
      = (a.reduceColumns a.cols).rref.beside (a.rowTransform a.cols) := by
  have htimes : (a.rowTransform a.cols).times (identity a.rows)
      = a.rowTransform a.cols := by
    have h := times_identity (a.rowTransform a.cols)
    rwa [cols_rowTransform] at h
  rw [reduceWithIdentity_eq hsq, rref_beside (rows_identity a.rows), htimes,
    rref_eq_times]

theorem pivots_reduceWithIdentity :
    a.reduceWithIdentity.pivots = (a.reduceColumns a.cols).pivots := by
  rw [reduceWithIdentity_eq hsq,
    pivots_reduceColumns_beside (rows_identity a.rows)]

/-! ## Full rank -/

/-- **With a pivot in each column the matrix of the reduction is the
inverse**, on both sides. -/
theorem rowTransform_inverse_of_full
    (hfull : (a.reduceColumns a.cols).rank = a.cols) :
    (a.rowTransform a.cols).times a = identity a.rows
      ∧ a.times (a.rowTransform a.cols) = identity a.rows := by
  have hrref : (a.reduceColumns a.cols).rref = identity a.rows := by
    rw [hsq]
    exact (isEchelon_reduceAll a).eq_identity
      ((rows_rref a a.cols).trans hsq) (cols_rref a a.cols) hfull
  have hback : a.rowTransformBack a.cols = a := by
    have h := times_identity (a.rowTransformBack a.cols)
    rwa [cols_rowTransformBack, ← hrref, rowTransformBack_times_rref,
      eq_comm] at h
  refine ⟨by rw [← rref_eq_times, hrref], ?_⟩
  have h := (a.rowTransform_inverse a.cols).1
  rwa [hback] at h

/-- The inverse is what stands to the right of the identity. -/
theorem invertByElimination_of_full (hpos : 0 < a.rows)
    (hfull : (a.reduceColumns a.cols).rank = a.cols) :
    ∃ worked, a.invertByElimination = .ok worked
      ∧ worked.result = a.rowTransform a.cols := by
  have hrank : ¬a.reduceWithIdentity.rank < a.rows := by
    rw [Reduction.rank, pivots_reduceWithIdentity hsq, hsq]
    exact Nat.not_lt.mpr (Nat.le_of_eq hfull.symm)
  have hcols : (a.reduceColumns a.cols).rref.cols = a.rows :=
    (cols_rref a a.cols).trans hsq.symm
  have hsplit : a.reduceWithIdentity.rref.splitColumns a.rows
      = .ok ((a.reduceColumns a.cols).rref, a.rowTransform a.cols) := by
    rw [rref_reduceWithIdentity hsq]
    have h := splitColumns_beside (rows_rowTransform_eq a)
      (hcols.symm ▸ hpos) ((cols_rowTransform a a.cols).symm ▸ hpos)
    rwa [hcols] at h
  unfold invertByElimination
  rw [isSquare, beq_iff_eq.mpr hsq]
  simp only [Bool.not_true, Bool.false_eq_true, if_false, if_neg hrank, hsplit]
  exact ⟨_, rfl, rfl⟩

/-! ## A column without pivot -/

/-- **Without a pivot in each column there is no inverse**, and the vector
that comes with the refusal is not zero and is sent to zero. -/
theorem invertByElimination_of_lt
    (hlt : (a.reduceColumns a.cols).rank < a.cols) :
    ∃ v : List Rat, a.invertByElimination = .error (.notInvertible v)
      ∧ v.length = a.rows
      ∧ v ≠ List.replicate a.rows 0
      ∧ a.mulVector v = .ok (List.replicate a.rows 0) := by
  have h := isEchelon_reduceAll a
  have hcols : (a.reduceColumns a.cols).rref.cols = a.cols := cols_rref a _
  have hvector : nullVector a.reduceWithIdentity.rref
      a.reduceWithIdentity.pivots a.rows
        = nullVector (a.reduceColumns a.cols).rref
          (a.reduceColumns a.cols).pivots a.cols := by
    have h := nullVector_beside (rows_rowTransform_eq a)
      (a.reduceColumns a.cols).pivots
    rw [hcols] at h
    rw [rref_reduceWithIdentity hsq, pivots_reduceWithIdentity hsq, hsq, h]
  have hrank : a.reduceWithIdentity.rank < a.rows := by
    rwa [Reduction.rank, pivots_reduceWithIdentity hsq, hsq]
  refine ⟨nullVector (a.reduceColumns a.cols).rref
    (a.reduceColumns a.cols).pivots a.cols, ?_, ?_, ?_, ?_⟩
  · unfold invertByElimination
    rw [isSquare, beq_iff_eq.mpr hsq]
    simp only [Bool.not_true, Bool.false_eq_true, if_false, if_pos hrank,
      hvector]
  · rw [length_nullVector, hsq]
  · rw [hsq]
    exact nullVector_ne_zero h hlt
  · refine mulVector_eq_zero_iff.mpr ⟨length_nullVector _ _ _, ?_⟩
    rw [← a.apply_rref_eq_zero_iff a.cols, ← rows_rref a a.cols]
    exact apply_nullVector h hcols

omit hsq in
/-- **What elimination accepts has an inverse** on both sides. -/
theorem exists_inverse_of_eq_ok {worked : Worked RatMatrix}
    (h : a.invertByElimination = .ok worked) :
    a.rows = a.cols ∧ ∃ q : RatMatrix, q.cols = a.rows
      ∧ q.times a = identity a.rows ∧ a.times q = identity a.rows := by
  have hsq : a.rows = a.cols := by
    by_contra hne
    unfold invertByElimination at h
    rw [isSquare, beq_eq_false_iff_ne.mpr hne] at h
    cases h
  refine ⟨hsq, a.rowTransform a.cols, cols_rowTransform a a.cols, ?_⟩
  have hle : (a.reduceColumns a.cols).rank ≤ a.cols :=
    Nat.le.intro (rank_reduceAll_add_length_freeColumns a)
  refine rowTransform_inverse_of_full hsq
    (Nat.le_antisymm hle (Nat.le_of_not_lt fun hlt => ?_))
  obtain ⟨v, hv, _⟩ := invertByElimination_of_lt hsq hlt
  rw [hv] at h
  cases h

/-! ## The decision -/

/-- **Elimination decides whether a matrix has an inverse.** For a square
matrix with at least one row the determinant is worked out. If it is not zero
elimination returns an inverse on both sides; if it is zero elimination refuses,
with a vector that is not zero and that the matrix sends to zero. -/
theorem invertByElimination_decides (hpos : 0 < a.rows) :
    ∃ det, a.determinant = .ok det
      ∧ (det.result ≠ 0 → ∃ inverse, a.invertByElimination = .ok inverse
          ∧ a.product inverse.result = .ok (identity a.rows)
          ∧ inverse.result.product a = .ok (identity a.rows))
      ∧ (det.result = 0 → ∃ v : List Rat,
          a.invertByElimination = .error (.notInvertible v)
            ∧ v.length = a.rows
            ∧ v ≠ List.replicate a.rows 0
            ∧ a.mulVector v = .ok (List.replicate a.rows 0)) := by
  have hdet : (a.expand 0).result = (a.toMatrix a.rows).det :=
    result_expand rfl hsq.symm
  refine ⟨a.expand 0, ?_, ?_⟩
  · rw [determinant, isSquare, if_pos (beq_iff_eq.mpr hsq)]
  rw [hdet]
  have hle : (a.reduceColumns a.cols).rank ≤ a.cols :=
    Nat.le.intro (isEchelon_reduceAll a).length_add_length_freeColumns
  rcases Nat.lt_or_eq_of_le hle with hlt | hfull
  · obtain ⟨v, hv, hlen, hne, hzero⟩ := invertByElimination_of_lt hsq hlt
    have hsingular : (a.toMatrix a.rows).det = 0 :=
      (det_eq_zero_iff rfl hsq.symm).mpr ⟨v, hlen, hne, hzero⟩
    exact ⟨fun h => absurd hsingular h, fun _ => ⟨v, hv, hlen, hne, hzero⟩⟩
  · obtain ⟨inverse, hok, hinverse⟩ :=
      invertByElimination_of_full hsq hpos hfull
    obtain ⟨hleft, hright⟩ := rowTransform_inverse_of_full hsq hfull
    have hregular : (a.toMatrix a.rows).det ≠ 0 :=
      det_ne_zero_of_times_eq_identity (cols_rowTransform a a.cols) hleft
    refine ⟨fun _ => ⟨inverse, hok, ?_, ?_⟩, fun h => absurd h hregular⟩
    · rw [hinverse, product_eq_times
        (hsq.symm.trans (rows_rowTransform a a.cols).symm), hright]
    · rw [hinverse, product_eq_times (cols_rowTransform a a.cols), hleft]

end Square

/-- A matrix of order two with an inverse, and one of order three whose third
column is the sum of the others. -/
theorem invertByElimination_two_three :
    let a : RatMatrix := ⟨2, 2, #[1, 2, 3, 4], rfl⟩
    let c : RatMatrix := ⟨3, 3, #[1, 2, 3, 4, 5, 9, 7, 8, 15], rfl⟩
    (a.rows = a.cols ∧ 0 < a.rows ∧ a.determinantValue = .ok (-2)
        ∧ ∃ inverse, a.invertByElimination = .ok inverse
          ∧ a.product inverse.result = .ok (identity 2)
          ∧ inverse.result.product a = .ok (identity 2))
      ∧ c.rows = c.cols ∧ 0 < c.rows ∧ c.determinantValue = .ok 0
        ∧ ∃ v : List Rat, c.invertByElimination = .error (.notInvertible v)
          ∧ v ≠ [0, 0, 0]
          ∧ c.mulVector v = .ok [0, 0, 0] := by
  intro a c
  have ha : a.determinantValue = .ok (-2) := by decide +kernel
  have hc : c.determinantValue = .ok 0 := by decide +kernel
  refine ⟨⟨rfl, by decide, ha, ?_⟩, rfl, by decide, hc, ?_⟩
  · obtain ⟨det, hdet, hregular, _⟩ :=
      invertByElimination_decides (a := a) rfl (by decide)
    rw [determinantValue, hdet] at ha
    refine hregular ?_
    rw [show det.result = -2 from Except.ok.inj ha]
    decide
  · obtain ⟨det, hdet, _, hsingular⟩ :=
      invertByElimination_decides (a := c) rfl (by decide)
    rw [determinantValue, hdet] at hc
    obtain ⟨v, hv, _, hne, hzero⟩ := hsingular (Except.ok.inj hc)
    exact ⟨v, hv, hne, hzero⟩

end Stepwise.RatMatrix
