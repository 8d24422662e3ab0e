import Mathlib.LinearAlgebra.Matrix.Adjugate
import Stepwise.Proofs.Determinant.Singular

/-!
# The adjugate

The determinant is worked out along the first row only, but cofactors are taken
anywhere. Since a minor is a submatrix whose determinant is worked out right,
the matrix of cofactors, transposed, is the adjugate of the theory
(`RatMatrix.toMatrix_transpose_cofactors`). Hence the entries of a row against
the cofactors of a row give the determinant, or zero if the rows are two, and
likewise for columns (`RatMatrix.adjugate_product`).
-/

namespace Stepwise.RatMatrix

/-- **Square matrices are equal** when they are as functions of two indices. -/
theorem eq_of_toMatrix_eq {a b : RatMatrix} {n : Nat} (har : a.rows = n)
    (hac : a.cols = n) (hbr : b.rows = n) (hbc : b.cols = n)
    (h : a.toMatrix n = b.toMatrix n) : a = b := by
  refine ext_entry (har.trans hbr.symm) (hac.trans hbc.symm)
    fun i j hi hj => ?_
  exact congrFun (congrFun h ⟨i, har ▸ hi⟩) ⟨j, hac ▸ hj⟩

theorem toMatrix_scale {m : RatMatrix} {n : Nat} (hr : m.rows = n)
    (hc : m.cols = n) (f : Rat) :
    (m.scale f).toMatrix n = f • m.toMatrix n := by
  ext i j
  rw [toMatrix_apply, scale, hr, hc, entry_ofFn_of_lt _ i.isLt j.isLt]
  exact mul_comm _ _

/-! ## Cofactors -/

section Cofactors

variable {m : RatMatrix}

/-- The determinant of a minor is that of a submatrix, also when the minor is
empty. -/
theorem minorValue_eq_det {n : Nat} (hr : m.rows = n + 1)
    (hc : m.cols = n + 1) (i j : Fin (n + 1)) :
    m.minorValue i j
      = ((m.toMatrix (n + 1)).submatrix i.succAbove j.succAbove).det := by
  unfold minorValue
  split
  · obtain rfl : n = 0 := Nat.succ.inj (hr.symm.trans ‹_›)
    exact Matrix.det_isEmpty.symm
  · rw [← toMatrix_minor hr hc]
    exact result_expand (congrArg (· - 1) hr) (congrArg (· - 1) hc)

variable {n : Nat} (hr : m.rows = n) (hc : m.cols = n)

include hr hc

/-- **A cofactor is an entry of the adjugate**, with the indices exchanged. -/
theorem cofactorValue_eq_adjugate (i j : Fin n) :
    m.cofactorValue i j = (m.toMatrix n).adjugate j i := by
  cases n with
  | zero => exact i.elim0
  | succ n =>
    rw [Matrix.adjugate_fin_succ_eq_det_submatrix, ← minorValue_eq_det hr hc]
    exact ite_even_neg (i + j) (m.minorValue i j)

/-- **The transposed matrix of cofactors is the adjugate.** -/
theorem toMatrix_transpose_cofactors :
    m.cofactors.transpose.toMatrix n = (m.toMatrix n).adjugate := by
  ext i j
  rw [toMatrix_transpose, Matrix.transpose_apply, toMatrix_apply, cofactors, hr,
    entry_ofFn_of_lt _ j.isLt i.isLt, cofactorValue_eq_adjugate hr hc]

/-- **A row against the cofactors of a row**: the determinant is expanded along
every row, and two different rows cancel. -/
theorem sum_row_mul_cofactorValue {i i' : Nat} (hi : i < n) (hi' : i' < n) :
    ∑ k ∈ Finset.range n, m.entry i k * m.cofactorValue i' k
      = if i = i' then (m.expand 0).result else 0 := by
  have hentry := congrFun (congrFun (m.toMatrix n).mul_adjugate ⟨i, hi⟩)
    ⟨i', hi'⟩
  rw [Matrix.mul_apply, Matrix.smul_apply, Matrix.one_apply,
    ← result_expand hr hc, smul_eq_mul, mul_ite, mul_one, mul_zero] at hentry
  simp only [Fin.mk.injEq] at hentry
  rw [← hentry, Finset.sum_range]
  refine Finset.sum_congr rfl fun k _ => ?_
  rw [← cofactorValue_eq_adjugate hr hc, toMatrix_apply]

/-- **A column against the cofactors of a column**: the determinant is expanded
along every column, and two different columns cancel. -/
theorem sum_column_mul_cofactorValue {j j' : Nat} (hj : j < n) (hj' : j' < n) :
    ∑ k ∈ Finset.range n, m.entry k j * m.cofactorValue k j'
      = if j = j' then (m.expand 0).result else 0 := by
  have hentry := congrFun (congrFun (m.toMatrix n).adjugate_mul ⟨j', hj'⟩)
    ⟨j, hj⟩
  rw [Matrix.mul_apply, Matrix.smul_apply, Matrix.one_apply,
    ← result_expand hr hc, smul_eq_mul, mul_ite, mul_one, mul_zero] at hentry
  simp only [Fin.mk.injEq, eq_comm (a := j')] at hentry
  rw [← hentry, Finset.sum_range]
  refine Finset.sum_congr rfl fun k _ => ?_
  rw [← cofactorValue_eq_adjugate hr hc, toMatrix_apply, mul_comm]

end Cofactors

/-! ## The identity -/

section Identity

variable {a : RatMatrix} (hsq : a.rows = a.cols)

include hsq

/-- A cofactor can be taken at every place of a square matrix. -/
theorem cofactor_eq_ok {i j : Nat} (hi : i < a.rows) (hj : j < a.rows) :
    a.cofactor i j = .ok (a.cofactorValue i j) := by
  have hplace : ¬(a.rows ≤ i ∨ a.cols ≤ j) := by
    omega
  unfold cofactor checkMinor
  rw [isSquare, beq_iff_eq.mpr hsq]
  simp only [Bool.not_true, Bool.false_eq_true, if_false, if_neg hplace]
  rfl

theorem adjugate_eq_ok : a.adjugate = .ok a.cofactors.transpose := by
  rw [adjugate, cofactorMatrix, isSquare, if_pos (beq_iff_eq.mpr hsq)]
  rfl

/-- The identity, scaled by the determinant, as a function of two indices. -/
theorem toMatrix_scale_identity :
    ((identity a.rows).scale (a.expand 0).result).toMatrix a.rows
      = (a.toMatrix a.rows).det • (1 : Matrix (Fin a.rows) (Fin a.rows) Rat) := by
  rw [toMatrix_scale (rows_identity _) (cols_identity _), toMatrix_identity,
    result_expand rfl hsq.symm]

/-- **The adjugate identity.** The product of a square matrix with its adjugate,
in either order, is the identity multiplied by the determinant. In other words
the determinant is the expansion by cofactors along every row and every column,
and a row or column against the cofactors of another one gives zero. -/
theorem adjugate_product :
    ∃ adj det, a.adjugate = .ok adj ∧ a.determinant = .ok det
      ∧ a.product adj = .ok ((identity a.rows).scale det.result)
      ∧ adj.product a = .ok ((identity a.rows).scale det.result)
      ∧ (∀ i j, i < a.rows → j < a.rows →
        a.cofactor i j = .ok (a.cofactorValue i j))
      ∧ (∀ i i', i < a.rows → i' < a.rows →
        ∑ k ∈ Finset.range a.rows, a.entry i k * a.cofactorValue i' k
          = if i = i' then det.result else 0)
      ∧ ∀ j j', j < a.rows → j' < a.rows →
        ∑ k ∈ Finset.range a.rows, a.entry k j * a.cofactorValue k j'
          = if j = j' then det.result else 0 := by
  have hadj := toMatrix_transpose_cofactors rfl hsq.symm
  refine ⟨a.cofactors.transpose, a.expand 0, adjugate_eq_ok hsq, ?_, ?_, ?_,
    fun i j hi hj => cofactor_eq_ok hsq hi hj,
    fun i i' hi hi' => sum_row_mul_cofactorValue rfl hsq.symm hi hi',
    fun j j' hj hj' => sum_column_mul_cofactorValue rfl hsq.symm hj hj'⟩
  · rw [determinant, isSquare, if_pos (beq_iff_eq.mpr hsq)]
  · have hfit : a.cols = a.cofactors.transpose.rows := hsq.symm
    rw [product_eq_times hfit]
    refine congrArg Except.ok (eq_of_toMatrix_eq rfl rfl rfl rfl ?_)
    rw [rows_times, toMatrix_times hsq.symm, hadj, Matrix.mul_adjugate,
      toMatrix_scale_identity hsq]
  · have hfit : a.cofactors.transpose.cols = a.rows := rfl
    have hrows : (a.cofactors.transpose.times a).rows = a.rows := rfl
    rw [product_eq_times hfit]
    refine congrArg Except.ok
      (eq_of_toMatrix_eq hrows hsq.symm rfl rfl ?_)
    rw [toMatrix_times hfit, hadj, Matrix.adjugate_mul,
      toMatrix_scale_identity hsq]

end Identity

/-- A matrix of order three, whose second row is taken against its own cofactors
and against those of the first row. -/
theorem adjugate_product_three :
    let a : RatMatrix := ⟨3, 3, #[0, 2, 1, 1, 0, 3, 2, 1, 1], rfl⟩
    let adj : RatMatrix := ⟨3, 3, #[-3, -1, 6, 5, -2, 1, 1, 4, -2], rfl⟩
    a.rows = a.cols ∧ a.adjugate = .ok adj
      ∧ a.product adj = .ok ((identity 3).scale 11)
      ∧ adj.product a = .ok ((identity 3).scale 11)
      ∧ ∑ k ∈ Finset.range 3, a.entry 1 k * a.cofactorValue 1 k = 11
      ∧ ∑ k ∈ Finset.range 3, a.entry 1 k * a.cofactorValue 0 k = 0 := by
  intro a adj
  have hvalue : a.determinantValue = .ok 11 := by decide +kernel
  have hadj : a.adjugate = .ok adj := by decide +kernel
  obtain ⟨adj', det, hok, hdet, hright, hleft, _, hrow, _⟩ :=
    adjugate_product (a := a) rfl
  obtain rfl : adj = adj' := Except.ok.inj (hadj.symm.trans hok)
  rw [determinantValue, hdet] at hvalue
  have hresult : det.result = 11 := Except.ok.inj hvalue
  rw [hresult] at hright hleft
  refine ⟨rfl, hadj, hright, hleft, ?_, ?_⟩
  · exact (hrow 1 1 (by decide) (by decide)).trans
      ((if_pos rfl).trans hresult)
  · exact (hrow 1 0 (by decide) (by decide)).trans (if_neg (by decide))

end Stepwise.RatMatrix
