import Stepwise.Proofs.Determinant.Singular
import Stepwise.Proofs.RatMatrix.Edit

/-!
# The laws of the determinant

A determinant is worked out along the first row, and after a row operation the
recursion goes another way: it leaves out other terms, and it finds other minors
triangular. None of that is felt in the result, which is the determinant of the
matrix as a function of two indices. There a row operation replaces a row and an
exchange permutes rows or columns, so that each of them changes the determinant
by its factor (`RatMatrix.det_swapRows`, `RatMatrix.det_scaleRow`,
`RatMatrix.det_subtractScaledRow`, `RatMatrix.det_of_column_swap`). The laws are
put together for the operations themselves in `RatMatrix.determinant_laws`.
-/

namespace Stepwise.RatMatrix

section Square

variable {m : RatMatrix} {n : Nat}

/-! ## Rows replaced and exchanged -/

section Rows

variable (hr : m.rows = n)

include hr

/-- An exchange permutes the rows. -/
theorem toMatrix_swapRows (a b : Fin n) :
    (m.swapRows a b).toMatrix n
      = (m.toMatrix n).submatrix (Equiv.swap a b) id := by
  ext i j
  rw [toMatrix_apply, entry_swapRows (hr.symm ▸ i.isLt)]
  exact congrArg (m.entry · j) (Fin.val_injective.swap_apply a b i)

omit hr in
/-- Scaling a row replaces it by a multiple. -/
theorem toMatrix_scaleRow (i : Fin n) (f : Rat) :
    (m.scaleRow i f).toMatrix n
      = (m.toMatrix n).updateRow i (f • m.toMatrix n i) := by
  ext r j
  rw [toMatrix_apply, entry_scaleRow, Matrix.updateRow_apply]
  simp only [Fin.ext_iff]
  split
  · rename_i h
    rw [Fin.ext h]
    exact mul_comm _ _
  · rfl

/-- Subtracting a multiple of a row replaces the target row. -/
theorem toMatrix_subtractScaledRow (t s : Fin n) (f : Rat) :
    (m.subtractScaledRow t s f).toMatrix n
      = (m.toMatrix n).updateRow t
          (m.toMatrix n t + (-f) • m.toMatrix n s) := by
  ext r j
  rw [toMatrix_apply, entry_subtractScaledRow (hr.symm ▸ r.isLt),
    Matrix.updateRow_apply]
  simp only [Fin.ext_iff]
  split
  · rename_i h
    rw [Fin.ext h, Pi.add_apply, Pi.smul_apply, smul_eq_mul, neg_mul,
      ← sub_eq_add_neg, mul_comm f]
    rfl
  · rfl

/-- **Exchanging two rows** changes the sign of the determinant. -/
theorem det_swapRows {i j : Nat} (hi : i < n) (hj : j < n) (hne : i ≠ j) :
    ((m.swapRows i j).toMatrix n).det = -(m.toMatrix n).det := by
  have hne' : (⟨i, hi⟩ : Fin n) ≠ ⟨j, hj⟩ := fun h => hne (Fin.mk.inj h)
  have hswap := toMatrix_swapRows hr ⟨i, hi⟩ ⟨j, hj⟩
  rw [hswap, Matrix.det_permute, Equiv.Perm.sign_swap hne']
  simp

omit hr in
/-- **Multiplying a row** multiplies the determinant. -/
theorem det_scaleRow {i : Nat} (hi : i < n) (f : Rat) :
    ((m.scaleRow i f).toMatrix n).det = f * (m.toMatrix n).det := by
  have hscale := toMatrix_scaleRow (m := m) ⟨i, hi⟩ f
  rw [hscale, Matrix.det_updateRow_smul, Matrix.updateRow_eq_self]

/-- **Subtracting a multiple of another row** keeps the determinant. -/
theorem det_subtractScaledRow {t s : Nat} (ht : t < n) (hs : s < n)
    (hne : t ≠ s) (f : Rat) :
    ((m.subtractScaledRow t s f).toMatrix n).det = (m.toMatrix n).det := by
  have hne' : (⟨t, ht⟩ : Fin n) ≠ ⟨s, hs⟩ := fun h => hne (Fin.mk.inj h)
  have hsubtract := toMatrix_subtractScaledRow hr ⟨t, ht⟩ ⟨s, hs⟩ f
  rw [hsubtract, Matrix.det_updateRow_add_smul_self _ hne']

end Rows

/-! ## Columns exchanged -/

/-- **Exchanging two columns** changes the sign of the determinant. -/
theorem det_of_column_swap {m' : RatMatrix} {i j : Nat} (hi : i < n)
    (hj : j < n) (hne : i ≠ j)
    (h : ∀ k, k < n → m'.column k = m.column (Equiv.swap i j k)) :
    (m'.toMatrix n).det = -(m.toMatrix n).det := by
  have hne' : (⟨i, hi⟩ : Fin n) ≠ ⟨j, hj⟩ := fun heq => hne (Fin.mk.inj heq)
  have hswap : m'.toMatrix n
      = (m.toMatrix n).submatrix id (Equiv.swap ⟨i, hi⟩ ⟨j, hj⟩) := by
    ext r c
    rw [toMatrix_apply, ← getD_column, h c c.isLt, getD_column]
    exact congrArg (m.entry r)
      (Fin.val_injective.swap_apply ⟨i, hi⟩ ⟨j, hj⟩ c)
  rw [hswap, Matrix.det_permute', Equiv.Perm.sign_swap hne']
  simp

end Square

/-! ## The laws -/

/-- **The laws of the determinant.** The determinant of a product is the product
of the determinants, and that of the transposed matrix is the same. Exchanging
two different rows, or two different columns, changes its sign, multiplying a
row by any number multiplies it, and subtracting a multiple of a row from
another one keeps it. -/
theorem determinant_laws {a : RatMatrix} (hsq : a.rows = a.cols) :
    ∃ det, a.determinantValue = .ok det
      ∧ (∀ b : RatMatrix, b.rows = a.rows → b.cols = a.rows →
        ∃ ab detB, a.product b = .ok ab ∧ b.determinantValue = .ok detB
          ∧ ab.determinantValue = .ok (det * detB))
      ∧ a.transpose.determinantValue = .ok det
      ∧ (∀ i j, i < a.rows → j < a.rows → i ≠ j →
        ∃ swapped, a.swapRowsInPlace i j = .ok swapped
          ∧ swapped.determinantValue = .ok (-det))
      ∧ (∀ i j, i < a.rows → j < a.rows → i ≠ j →
        ∀ swapped : RatMatrix, swapped.rows = a.rows →
          swapped.cols = a.rows →
          (∀ k, k < a.rows →
            swapped.column k = a.column (Equiv.swap i j k)) →
          swapped.determinantValue = .ok (-det))
      ∧ (∀ i f, i < a.rows →
        ∃ scaled, a.scaleRowInPlace i f = .ok scaled
          ∧ scaled.determinantValue = .ok (det * f))
      ∧ ∀ t s f, t < a.rows → s < a.rows → t ≠ s →
        ∃ subtracted, a.subtractScaledRowInPlace t s f = .ok subtracted
          ∧ subtracted.determinantValue = .ok det := by
  have hc : a.cols = a.rows := hsq.symm
  refine ⟨(a.toMatrix a.rows).det, determinantValue_eq_ok rfl hc,
    fun b hbr hbc => ?_, ?_, fun i j hi hj hne => ?_,
    fun i j hi hj hne swapped hr' hc' hcolumn => ?_, fun i f hi => ?_,
    fun t s f ht hs hne => ?_⟩
  · refine ⟨a.times b, (b.toMatrix a.rows).det,
      product_eq_times (hc.trans hbr.symm), determinantValue_eq_ok hbr hbc, ?_⟩
    rw [determinantValue_eq_ok (rows_times a b) hbc, toMatrix_times hc,
      Matrix.det_mul]
  · have hcols : a.transpose.cols = a.rows := rfl
    rw [determinantValue_eq_ok hc hcols, toMatrix_transpose,
      Matrix.det_transpose]
  · refine ⟨a.swapRows i j, swapRowsInPlace_eq_ok hi hj, ?_⟩
    have hrows : (a.swapRows i j).rows = a.rows := rfl
    rw [determinantValue_eq_ok hrows hc, det_swapRows rfl hi hj hne]
  · rw [determinantValue_eq_ok hr' hc', det_of_column_swap hi hj hne hcolumn]
  · refine ⟨a.scaleRow i f, scaleRowInPlace_eq_ok hi f, ?_⟩
    have hrows : (a.scaleRow i f).rows = a.rows := rfl
    rw [determinantValue_eq_ok hrows hc, det_scaleRow hi, mul_comm]
  · refine ⟨a.subtractScaledRow t s f,
      subtractScaledRowInPlace_eq_ok ht hs f, ?_⟩
    have hrows : (a.subtractScaledRow t s f).rows = a.rows := rfl
    rw [determinantValue_eq_ok hrows hc, det_subtractScaledRow rfl ht hs hne]

/-- The laws for a matrix of order three whose first term is left out. -/
theorem determinant_laws_three :
    let a : RatMatrix := ⟨3, 3, #[0, 2, 1, 1, 0, 3, 2, 1, 1], rfl⟩
    let b : RatMatrix := ⟨3, 3, #[1, 2, 0, 0, 1, 1, 1, 0, 1], rfl⟩
    let exchanged : RatMatrix := ⟨3, 3, #[2, 0, 1, 0, 1, 3, 1, 2, 1], rfl⟩
    a.rows = a.cols ∧ a.determinantValue = .ok 11
      ∧ b.determinantValue = .ok 3
      ∧ (∃ ab, a.product b = .ok ab ∧ ab.determinantValue = .ok (11 * 3))
      ∧ a.transpose.determinantValue = .ok 11
      ∧ (∃ swapped, a.swapRowsInPlace 0 2 = .ok swapped
        ∧ swapped.determinantValue = .ok (-11))
      ∧ (∀ k, k < 3 → exchanged.column k = a.column (Equiv.swap 0 1 k))
      ∧ exchanged.determinantValue = .ok (-11)
      ∧ (∃ scaled, a.scaleRowInPlace 1 0 = .ok scaled
        ∧ scaled.determinantValue = .ok (11 * 0))
      ∧ ∃ subtracted, a.subtractScaledRowInPlace 2 1 2 = .ok subtracted
        ∧ subtracted.determinantValue = .ok 11 := by
  intro a b exchanged
  have ha : a.determinantValue = .ok 11 := by decide +kernel
  have hb : b.determinantValue = .ok 3 := by decide +kernel
  have hcolumns : ∀ k, k < 3 →
      exchanged.column k = a.column (Equiv.swap 0 1 k) := by
    decide +kernel
  obtain ⟨det, hdet, hproduct, htranspose, hswap, hexchange, hscale,
    hsubtract⟩ := determinant_laws (a := a) rfl
  obtain rfl : 11 = det := Except.ok.inj (ha.symm.trans hdet)
  obtain ⟨ab, detB, hab, hdetB, hvalue⟩ := hproduct b rfl rfl
  obtain rfl : 3 = detB := Except.ok.inj (hb.symm.trans hdetB)
  exact ⟨rfl, ha, hb, ⟨ab, hab, hvalue⟩, htranspose,
    hswap 0 2 (by decide) (by decide) (by decide), hcolumns,
    hexchange 0 1 (by decide) (by decide) (by decide) exchanged rfl rfl
      hcolumns,
    hscale 1 0 (by decide),
    hsubtract 2 1 2 (by decide) (by decide) (by decide)⟩

end Stepwise.RatMatrix
