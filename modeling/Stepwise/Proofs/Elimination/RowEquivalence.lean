import Stepwise.Proofs.Elimination.Moves

/-!
# Reduction is multiplication by one invertible matrix

The row operations of a reduction make of the identity a matrix,
`RatMatrix.rowTransform`, and reducing is multiplying by it. It has an inverse,
since every operation can be undone, so no vector is sent to zero after the
reduction that was not before.

The operations are chosen by looking at the columns that may hold a pivot. In
`[A | B]`, with pivots allowed in `A` only, they are those of `A` alone, and the
one matrix that reduces `A` is what `B` is multiplied by, whatever `B` is. This
is why `[A | I]` becomes `[I | A⁻¹]` and `[A | b]` keeps its solutions.
-/

namespace Stepwise.RatMatrix

open Elimination

/-! ## The matrix of a reduction -/

section Transform

variable (m : RatMatrix) (limit : Nat)

/-- The row operations of a reduction, in order. -/
def rowOperations : List RowOp :=
  Move.operations (m.eliminate limit).moves

/-- **The matrix of a reduction**: what its row operations make of the
identity. -/
def rowTransform : RatMatrix :=
  RowOp.applyAll (m.rowOperations limit) (identity m.rows)

/-- The matrix of taking a reduction back. -/
def rowTransformBack : RatMatrix :=
  RowOp.applyAll (RowOp.undoAll (m.rowOperations limit)) (identity m.rows)

@[simp] theorem rows_rowTransform : (m.rowTransform limit).rows = m.rows :=
  RowOp.rows_applyAll _ _

@[simp] theorem cols_rowTransform : (m.rowTransform limit).cols = m.rows :=
  RowOp.cols_applyAll _ _

@[simp] theorem rows_rowTransformBack :
    (m.rowTransformBack limit).rows = m.rows :=
  RowOp.rows_applyAll _ _

@[simp] theorem cols_rowTransformBack :
    (m.rowTransformBack limit).cols = m.rows :=
  RowOp.cols_applyAll _ _

/-- Each of them can be undone. -/
theorem isElementary_rowOperations :
    ∀ op ∈ m.rowOperations limit, op.IsElementary m.rows :=
  (leads_sweep m (min limit m.cols)).isElementary

theorem rref_eq_applyAll :
    (m.reduceColumns limit).rref = RowOp.applyAll (m.rowOperations limit) m :=
  (leads_sweep m (min limit m.cols)).eq_applyAll

/-- **Reducing is multiplying** by the matrix of the reduction. -/
theorem rref_eq_times :
    (m.reduceColumns limit).rref = (m.rowTransform limit).times m := by
  rw [rref_eq_applyAll, RowOp.applyAll_eq_times]
  rfl

/-- **The matrix of a reduction is invertible.** -/
theorem rowTransform_inverse :
    (m.rowTransformBack limit).times (m.rowTransform limit)
        = identity m.rows
      ∧ (m.rowTransform limit).times (m.rowTransformBack limit)
        = identity m.rows :=
  RowOp.applyAll_identity_inverse (m.isElementary_rowOperations limit)

theorem rowTransformBack_times_rref :
    (m.rowTransformBack limit).times (m.reduceColumns limit).rref = m := by
  rw [rref_eq_times, ← times_assoc, (m.rowTransform_inverse limit).1,
    identity_times]

/-- **Reduction keeps the null space**: a vector is sent to zero after it
exactly when it was before. -/
theorem apply_rref_eq_zero_iff (v : List Rat) :
    (m.reduceColumns limit).rref.apply v = List.replicate m.rows 0
      ↔ m.apply v = List.replicate m.rows 0 := by
  constructor
  · intro h
    rw [← m.rowTransformBack_times_rref limit, apply_times, h,
      apply_replicate_zero, rows_times, rows_rowTransformBack]
  · intro h
    rw [rref_eq_times, apply_times, h, apply_replicate_zero,
      rows_rowTransform]

end Transform

/-! ## Carried columns -/

/-- **The elimination over the first columns** is that of these columns, as far
as they go. -/
theorem restrict_eliminate {m : RatMatrix} {k : Nat} (hk : k ≤ m.cols) :
    (m.eliminate k).restrict k = (m.leftColumns k).eliminate k := by
  unfold eliminate
  rw [cols_leftColumns, Nat.min_eq_left hk, Nat.min_self,
    restrict_sweep _ (Nat.le_refl k)]

/-- The columns further to the right play no part in the choice of pivots. -/
theorem pivots_reduceColumns_leftColumns {m : RatMatrix} {k : Nat}
    (hk : k ≤ m.cols) :
    ((m.leftColumns k).reduceColumns k).pivots
      = (m.reduceColumns k).pivots := by
  show ((m.leftColumns k).eliminate k).pivots = _
  rw [← restrict_eliminate hk]
  rfl

section Carried

variable {a b : RatMatrix} (h : b.rows = a.rows)

include h

/-- The elimination of `[A | B]` is that of `A`, as far as `A` goes. -/
theorem restrict_eliminate_beside :
    ((a.beside b).eliminate a.cols).restrict a.cols = a.eliminate a.cols := by
  rw [restrict_eliminate (Nat.le_add_right _ _), leftColumns_beside h]

theorem pivots_reduceColumns_beside :
    ((a.beside b).reduceColumns a.cols).pivots
      = (a.reduceColumns a.cols).pivots := by
  rw [← pivots_reduceColumns_leftColumns (Nat.le_add_right _ _),
    leftColumns_beside h]

theorem rowTransform_beside :
    (a.beside b).rowTransform a.cols = a.rowTransform a.cols := by
  have hops : (a.beside b).rowOperations a.cols = a.rowOperations a.cols := by
    unfold rowOperations
    rw [← restrict_eliminate_beside h]
    exact (Move.operations_restrict _ _).symm
  unfold rowTransform
  rw [hops, rows_beside]

/-- **One matrix reduces `A` and is what any carried columns are multiplied
by.** -/
theorem rref_beside :
    ((a.beside b).reduceColumns a.cols).rref
      = ((a.rowTransform a.cols).times a).beside
          ((a.rowTransform a.cols).times b) := by
  rw [rref_eq_times, rowTransform_beside h, times_beside h]

end Carried

/-- **Reduction is row equivalence, and the carried columns play no part in
it.** For every matrix `A` there is one invertible matrix `P` such that, for
every `B` of the same height, reducing `[A | B]` with pivots in `A` gives
`[P A | P B]`, with the pivots and the left block of `A` alone, and with each
carried column `c` turned into `P c`. And whatever part of a matrix is reduced,
it sends the same vectors to zero before and after. -/
theorem reduceColumns_row_equivalence (a : RatMatrix) :
    (∃ p q : RatMatrix,
      p.product q = .ok (identity a.rows)
        ∧ q.product p = .ok (identity a.rows)
        ∧ ∀ b : RatMatrix, b.rows = a.rows → ∃ system pa pb,
          a.augment b = .ok system
            ∧ p.product a = .ok pa
            ∧ p.product b = .ok pb
            ∧ pa.augment pb = .ok (system.reduceColumns a.cols).rref
            ∧ pa = (a.reduceColumns a.cols).rref
            ∧ (system.reduceColumns a.cols).pivots
              = (a.reduceColumns a.cols).pivots
            ∧ ∀ j, j < b.cols → p.mulVector (b.column j)
              = .ok ((system.reduceColumns a.cols).rref.column (a.cols + j)))
      ∧ ∀ limit x,
        (a.reduceColumns limit).rref.mulVector x
            = .ok (List.replicate a.rows 0)
          ↔ a.mulVector x = .ok (List.replicate a.rows 0) := by
  constructor
  · refine ⟨a.rowTransform a.cols, a.rowTransformBack a.cols, ?_, ?_,
      fun b hb => ?_⟩
    · rw [product_eq_times (by simp), (a.rowTransform_inverse a.cols).2]
    · rw [product_eq_times (by simp), (a.rowTransform_inverse a.cols).1]
    · have hrref := rref_beside hb
      refine ⟨a.beside b, (a.rowTransform a.cols).times a,
        (a.rowTransform a.cols).times b, augment_eq_beside hb,
        product_eq_times (cols_rowTransform a a.cols),
        product_eq_times ((cols_rowTransform a a.cols).trans hb.symm), ?_,
        (rref_eq_times a a.cols).symm, pivots_reduceColumns_beside hb,
        fun j _ => ?_⟩
      · rw [hrref]
        exact augment_eq_beside rfl
      · have hcol := column_beside_add (a := (a.rowTransform a.cols).times a)
          (b := (a.rowTransform a.cols).times b) rfl j
        rw [cols_times] at hcol
        rw [hrref, hcol, column_times, mulVector, if_pos (by simp [hb])]
  · intro limit x
    rw [mulVector_eq_zero_iff, mulVector_eq_zero_iff, cols_rref,
      apply_rref_eq_zero_iff]

/-- For `x + 2 y = 5` and `3 x + 4 y = 6` the matrix that reduces the left
sides solves for the right sides. -/
theorem reduceColumns_row_equivalence_two_by_two :
    let a : RatMatrix := ⟨2, 2, #[1, 2, 3, 4], rfl⟩
    let b : RatMatrix := ⟨2, 1, #[5, 6], rfl⟩
    b.rows = a.rows ∧ ∃ p q : RatMatrix,
      p.product q = .ok (identity 2) ∧ q.product p = .ok (identity 2)
        ∧ p.product a = .ok (identity 2)
        ∧ p.mulVector [5, 6] = .ok [-4, 9 / 2] := by
  intro a b
  have hb : b.rows = a.rows := rfl
  obtain ⟨⟨p, q, hpq, hqp, hall⟩, _⟩ := reduceColumns_row_equivalence a
  obtain ⟨system, pa, pb, hs, hpa, _, _, hleft, _, hcol⟩ := hall b hb
  obtain rfl : a.beside b = system := Except.ok.inj hs
  refine ⟨hb, p, q, hpq, hqp, ?_, ?_⟩
  · rw [hpa, hleft]
    decide +kernel
  · have h0 := hcol 0 (by decide)
    rw [show b.column 0 = [5, 6] by decide +kernel] at h0
    rw [h0]
    decide +kernel

end Stepwise.RatMatrix
