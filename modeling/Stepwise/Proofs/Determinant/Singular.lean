import Mathlib.LinearAlgebra.Matrix.ToLinearEquiv
import Stepwise.Proofs.Determinant.Expansion

/-!
# When a determinant is zero

Products, transposes and vectors are read as those of square matrices of a given
order, as determinants are. So a matrix with an inverse has a determinant that
is not zero (`RatMatrix.det_ne_zero_of_times_eq_identity`), and a determinant is
zero exactly when some vector that is not zero is sent to zero
(`RatMatrix.det_eq_zero_iff`).
-/

namespace Stepwise.RatMatrix

open Matrix

/-! ## Products and transposes -/

theorem toMatrix_identity (n : Nat) : (identity n).toMatrix n = 1 := by
  ext i j
  rw [toMatrix_apply, entry_identity i.isLt j.isLt, Matrix.one_apply]
  simp only [Fin.ext_iff]

theorem toMatrix_times {a : RatMatrix} {n : Nat} (hc : a.cols = n)
    (b : RatMatrix) :
    (a.times b).toMatrix n = a.toMatrix n * b.toMatrix n :=
  toBlock_times hc b n n

theorem toMatrix_transpose (m : RatMatrix) (n : Nat) :
    m.transpose.toMatrix n = (m.toMatrix n)ᵀ :=
  toBlock_transpose m n n

/-- **A matrix with an inverse** has a determinant that is not zero. -/
theorem det_ne_zero_of_times_eq_identity {a b : RatMatrix} {n : Nat}
    (hc : a.cols = n) (h : a.times b = identity n) :
    (b.toMatrix n).det ≠ 0 := by
  have hdet : (a.toMatrix n).det * (b.toMatrix n).det = 1 := by
    rw [← Matrix.det_mul, ← toMatrix_times hc, h, toMatrix_identity,
      Matrix.det_one]
  exact right_ne_zero_of_mul_eq_one hdet

/-! ## Vectors -/

/-- **A vector as a function of an index** below its length. -/
def toVector (v : List Rat) (n : Nat) : Fin n → Rat :=
  fun i => v.getD i 0

theorem toVector_apply (v : List Rat) {n : Nat} (i : Fin n) :
    toVector v n i = v.getD i 0 := rfl

theorem toVector_eq_iff {v w : List Rat} {n : Nat} (hv : v.length = n)
    (hw : w.length = n) : toVector v n = toVector w n ↔ v = w := by
  refine ⟨fun h => vector_ext (hv.trans hw.symm) fun i hi => ?_,
    fun h => congrArg (toVector · n) h⟩
  exact congrFun h ⟨i, hv ▸ hi⟩

theorem toVector_replicate_zero (n : Nat) :
    toVector (List.replicate n 0) n = 0 := by
  funext i
  exact getD_replicate_zero n i

/-- Every function of an index is a vector. -/
theorem toVector_ofFn {n : Nat} (f : Fin n → Rat) :
    toVector (List.ofFn f) n = f := by
  funext i
  rw [toVector_apply, List.getD_eq_getElem _ _ (by simp), List.getElem_ofFn]

theorem toVector_apply_eq_mulVec {m : RatMatrix} {n : Nat} (hc : m.cols = n)
    (v : List Rat) :
    toVector (m.apply v) n = m.toMatrix n *ᵥ toVector v n := by
  funext i
  rw [toVector_apply, getD_apply, hc, Finset.sum_range]
  rfl

/-! ## Determinants -/

section Square

variable {m : RatMatrix} {n : Nat} (hr : m.rows = n) (hc : m.cols = n)

include hr hc

/-- What is worked out for a square matrix is its determinant. -/
theorem result_expand : (m.expand 0).result = (m.toMatrix n).det := by
  rw [expand, hr]
  exact result_expandOrder hr hc 0

/-- A square matrix always has its determinant worked out. -/
theorem determinantValue_eq_ok :
    m.determinantValue = .ok (m.toMatrix n).det := by
  have hsq : m.isSquare = true := beq_iff_eq.mpr (hr.trans hc.symm)
  rw [determinantValue, determinant, if_pos hsq]
  exact congrArg Except.ok (result_expand hr hc)

/-- What a square matrix makes of a vector, as functions of an index. -/
theorem mulVector_eq_ok_iff_mulVec {v w : List Rat} (hv : v.length = n)
    (hw : w.length = n) :
    m.mulVector v = .ok w ↔ m.toMatrix n *ᵥ toVector v n = toVector w n := by
  rw [mulVector, if_pos (hv.trans hc.symm), Except.ok.injEq,
    ← toVector_apply_eq_mulVec hc,
    toVector_eq_iff ((length_apply m v).trans hr) hw]

/-- **The determinant is zero exactly when some vector that is not zero is sent
to zero.** -/
theorem det_eq_zero_iff :
    (m.toMatrix n).det = 0 ↔ ∃ v : List Rat, v.length = n
      ∧ v ≠ List.replicate n 0
      ∧ m.mulVector v = .ok (List.replicate n 0) := by
  have hzero : (List.replicate n (0 : Rat)).length = n :=
    List.length_replicate
  rw [← Matrix.exists_mulVec_eq_zero_iff]
  constructor
  · rintro ⟨f, hne, hf⟩
    have hlen : (List.ofFn f).length = n := List.length_ofFn
    refine ⟨List.ofFn f, hlen, fun hz => hne ?_, ?_⟩
    · rw [← toVector_ofFn f, hz, toVector_replicate_zero]
    · rw [mulVector_eq_ok_iff_mulVec hr hc hlen hzero, toVector_ofFn, hf,
        toVector_replicate_zero]
  · rintro ⟨v, hv, hne, hmul⟩
    refine ⟨toVector v n, fun hz => hne ?_, ?_⟩
    · rwa [← toVector_replicate_zero n, toVector_eq_iff hv hzero] at hz
    · rwa [mulVector_eq_ok_iff_mulVec hr hc hv hzero,
        toVector_replicate_zero] at hmul

end Square

end Stepwise.RatMatrix
