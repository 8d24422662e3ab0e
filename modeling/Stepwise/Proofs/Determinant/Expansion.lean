import Mathlib.LinearAlgebra.Matrix.Block
import Stepwise.Linear.Determinant
import Stepwise.Proofs.RatMatrix.Entries

/-!
# Expansion along the first row is the determinant

A square matrix of order `n` is read as a function of two indices below `n`
(`RatMatrix.toMatrix`), so that the theory of determinants applies to it. Each
way of working out a determinant gives the determinant of that function: the
formulas of order one and two, the product of the diagonal of a triangular
matrix, and the expansion along the first row, where a minor is read as the
submatrix without the first row and one column. By induction on the order the
whole recursion gives the determinant (`RatMatrix.result_expandOrder`), that is
the signed sum over all permutations (`RatMatrix.determinant_eq_leibniz_sum`).
-/

namespace Stepwise.RatMatrix

/-- **A square matrix as a function of two indices** below its order. -/
def toMatrix (m : RatMatrix) (n : Nat) : Matrix (Fin n) (Fin n) Rat :=
  Matrix.of fun i j => m.entry i j

@[simp] theorem toMatrix_apply (m : RatMatrix) {n : Nat} (i j : Fin n) :
    m.toMatrix n i j = m.entry i j := rfl

section Expansion

variable {m : RatMatrix} {n : Nat} (hr : m.rows = n) (hc : m.cols = n)

include hr hc

/-! ## Triangular matrices -/

/-- The product of the diagonal. -/
theorem result_diagonalProduct (depth : Nat) :
    (m.diagonalProduct depth).result = ∏ i, m.toMatrix n i i := by
  show m.diagonal.foldl (fun product entry => product * entry) 1 = _
  rw [← List.prod_eq_foldl, diagonal, hr, hc, Nat.min_self]
  exact (Finset.prod_range fun i => m.entry i i)

omit hc in
/-- A matrix that passes for upper triangular is. -/
theorem isUpperTriangular_toMatrix (h : m.isUpperTriangular = true) :
    (m.toMatrix n).IsUpperTriangular := by
  intro i j hji
  have hrow := (Bool.and_eq_true _ _ ▸ h).2
  rw [List.all_eq_true] at hrow
  have hentry := hrow i (List.mem_range.mpr (hr.symm ▸ i.isLt))
  rw [List.all_eq_true] at hentry
  exact of_decide_eq_true (hentry j (List.mem_range.mpr hji))

/-- A matrix that passes for lower triangular is. -/
theorem isLowerTriangular_toMatrix (h : m.isLowerTriangular = true) :
    (m.toMatrix n).IsLowerTriangular := by
  intro i j hij
  have hrow := (Bool.and_eq_true _ _ ▸ h).2
  rw [List.all_eq_true] at hrow
  have hentry := hrow i (List.mem_range.mpr (hr.symm ▸ i.isLt))
  rw [List.all_eq_true] at hentry
  exact of_decide_eq_true
    (hentry j (List.mem_range.mpr (hc.symm ▸ j.isLt))) hij

/-- **The determinant of a triangular matrix** is the product of its
diagonal. -/
theorem result_diagonalProduct_eq_det (depth : Nat)
    (h : m.isUpperTriangular = true ∨ m.isLowerTriangular = true) :
    (m.diagonalProduct depth).result = (m.toMatrix n).det := by
  rw [result_diagonalProduct hr hc]
  rcases h with hu | hl
  · rw [Matrix.det_of_isUpperTriangular (isUpperTriangular_toMatrix hr hu)]
  · rw [Matrix.det_of_isLowerTriangular _
      (isLowerTriangular_toMatrix hr hc hl)]

end Expansion

/-! ## Minors and terms -/

/-- Passing over an index is what `Fin.succAbove` does. -/
theorem skip_eq_succAbove {n : Nat} (p : Fin (n + 1)) (k : Fin n) :
    skip p k = p.succAbove k := by
  unfold skip Fin.succAbove
  by_cases h : (k : Nat) < p
  · rw [if_pos h, if_pos (Fin.lt_def.mpr h)]
    rfl
  · rw [if_neg h, if_neg fun hlt => h (Fin.lt_def.mp hlt)]
    rfl

/-- **A minor is the submatrix** without its row and column. -/
theorem toMatrix_minor {m : RatMatrix} {n : Nat} (hr : m.rows = n + 1)
    (hc : m.cols = n + 1) (i j : Fin (n + 1)) :
    (m.minor i j).toMatrix n
      = (m.toMatrix (n + 1)).submatrix i.succAbove j.succAbove := by
  ext r c
  rw [toMatrix_apply, minor, hr, hc, Nat.add_sub_cancel,
    entry_ofFn_of_lt _ r.isLt c.isLt, skip_eq_succAbove, skip_eq_succAbove]
  rfl

/-- A number that changes its sign for every odd place. -/
theorem ite_even_neg (k : Nat) (x : Rat) :
    (if k % 2 = 0 then x else -x) = (-1) ^ k * x := by
  split
  · rw [(Nat.even_iff.mpr ‹_›).neg_one_pow, one_mul]
  · rw [(Nat.not_even_iff_odd.mp (mt Nat.even_iff.mp ‹_›)).neg_one_pow,
      neg_one_mul]

/-- **A term of the expansion**, signed by its column. -/
theorem result_expansionTerm (m : RatMatrix) (depth col : Nat)
    (minor : Worked Rat) :
    (m.expansionTerm depth col minor).result
      = (-1) ^ col * m.entry 0 col * minor.result :=
  (ite_even_neg col (m.entry 0 col * minor.result)).trans
    (mul_assoc _ _ _).symm

/-- The sum of the terms of an expansion. -/
theorem result_expansionSum (m : RatMatrix) (depth : Nat)
    (term : Nat → Worked Rat) :
    (m.expansionSum depth ((List.range m.cols).map term)).result
      = ∑ col ∈ Finset.range m.cols, (term col).result := by
  show (((List.range m.cols).map term).map (·.result)).foldl
    (fun sum term => sum + term) 0 = _
  rw [List.map_map, List.foldl_map]
  exact sumRange_eq_sum m.cols fun col => (term col).result

/-! ## The recursion -/

/-- **The expansion along the first row** is the determinant, when the minors
are worked out right. -/
theorem result_expansionSum_eq_det {m : RatMatrix} {n : Nat}
    (hr : m.rows = n + 1) (hc : m.cols = n + 1) (depth : Nat)
    (minor : Nat → Worked Rat)
    (hminor : ∀ j : Fin (n + 1),
      (minor j).result = ((m.minor 0 j).toMatrix n).det) :
    (m.expansionSum depth ((List.range m.cols).map fun col =>
        if m.entry 0 col = 0 then omittedTerm depth col
        else m.expansionTerm depth col (minor col))).result
      = (m.toMatrix (n + 1)).det := by
  rw [result_expansionSum, hc, Finset.sum_range, Matrix.det_succ_row_zero]
  refine Finset.sum_congr rfl fun j _ => ?_
  have hsub : (m.toMatrix (n + 1)).submatrix Fin.succ j.succAbove
      = (m.minor 0 j).toMatrix n := by
    rw [← Fin.succAbove_zero]
    exact (toMatrix_minor hr hc 0 j).symm
  rw [hsub, ← hminor j, toMatrix_apply]
  show _ = (-1) ^ (j : Nat) * m.entry 0 j * _
  split
  · -- the term left out is zero
    rw [‹m.entry 0 j = 0›, mul_zero, zero_mul]
    rfl
  · exact result_expansionTerm m depth j _

/-- **The recursion gives the determinant**, by induction on the order. -/
theorem result_expandOrder {n : Nat} {m : RatMatrix} (hr : m.rows = n)
    (hc : m.cols = n) (depth : Nat) :
    (expandOrder n m depth).result = (m.toMatrix n).det := by
  induction n, m, depth using expandOrder.induct with
  | case1 m depth =>
    rw [expandOrder, result_diagonalProduct hr hc, Matrix.det_isEmpty]
    exact Finset.prod_eq_one fun i _ => i.elim0
  | case2 m depth =>
    rw [Matrix.det_fin_one]
    rfl
  | case3 m depth =>
    rw [Matrix.det_fin_two]
    rfl
  | case4 n m depth htriangular =>
    rw [expandOrder, if_pos htriangular]
    exact result_diagonalProduct_eq_det hr hc depth
      ((Bool.or_eq_true _ _).mp htriangular)
  | case5 n m depth htriangular ih =>
    rw [expandOrder, if_neg htriangular]
    -- a minor has one row and one column less
    exact result_expansionSum_eq_det hr hc depth _ fun j =>
      ih j (congrArg (· - 1) hr) (congrArg (· - 1) hc)

/-- **The determinant is the Leibniz sum**: over all permutations, the product
of the entries that the permutation picks, one from each row, with its sign. -/
theorem determinant_eq_leibniz_sum {m : RatMatrix} (hm : m.rows = m.cols) :
    ∃ worked, m.determinant = .ok worked
      ∧ worked.result = ∑ σ : Equiv.Perm (Fin m.rows),
          ((Equiv.Perm.sign σ : ℤ) : Rat)
            * ∏ i : Fin m.rows, m.entry i (σ i) := by
  refine ⟨m.expand 0, by rw [determinant, isSquare, if_pos (beq_iff_eq.mpr hm)],
    ?_⟩
  have hdet : (m.expand 0).result = (m.toMatrix m.rows).det :=
    result_expandOrder rfl hm.symm 0
  rw [hdet, ← Matrix.det_transpose, Matrix.det_apply']
  rfl

/-- A matrix of order three whose first term is left out. -/
theorem determinant_zero_two_one :
    (⟨3, 3, #[0, 2, 1, 1, 0, 3, 2, 1, 1], rfl⟩ : RatMatrix).rows
        = (⟨3, 3, #[0, 2, 1, 1, 0, 3, 2, 1, 1], rfl⟩ : RatMatrix).cols
      ∧ (⟨3, 3, #[0, 2, 1, 1, 0, 3, 2, 1, 1], rfl⟩ : RatMatrix).determinantValue
        = .ok 11
      ∧ ∑ σ : Equiv.Perm (Fin 3), ((Equiv.Perm.sign σ : ℤ) : Rat)
          * ∏ i : Fin 3,
            (⟨3, 3, #[0, 2, 1, 1, 0, 3, 2, 1, 1], rfl⟩ : RatMatrix).entry
              i (σ i) = 11 := by
  have hvalue : (⟨3, 3, #[0, 2, 1, 1, 0, 3, 2, 1, 1], rfl⟩ :
      RatMatrix).determinantValue = .ok 11 := by
    decide +kernel
  refine ⟨rfl, hvalue, ?_⟩
  obtain ⟨worked, hok, hresult⟩ := determinant_eq_leibniz_sum
    (m := ⟨3, 3, #[0, 2, 1, 1, 0, 3, 2, 1, 1], rfl⟩) rfl
  rw [determinantValue, hok] at hvalue
  exact hresult.symm.trans (Except.ok.inj hvalue)

end Stepwise.RatMatrix
