import Stepwise.Proofs.RatMatrix.Operations

/-!
# The algebra of matrices

Products of three matrices do not depend on the brackets, an identity changes
nothing, and transposing a product exchanges its factors. A matrix is applied to
a vector by other loops than it is multiplied by, so that a product applied to a
vector is the one factor after the other is a law of its own.

None of these operations takes all arguments. The two sides of a law refuse
different pairs on their way, and in the end the same ones: in each of the
`MultiplicationLaws` both sides come to one value under one condition. The sizes
are arbitrary, and may be zero. The main result,
`multiplicationLaws_formulas_loops`, is that the laws hold for the formulas and
for the loops, since they hold for all operations that follow the formulas.
-/

namespace Stepwise

open RatMatrix

namespace RatMatrix

theorem transpose_transpose (m : RatMatrix) : m.transpose.transpose = m :=
  ext_entry rfl rfl fun i j _ _ => by rw [entry_transpose, entry_transpose]

/-- A transposed product is the product of the transposed factors, the last one
first. -/
theorem transpose_times {a b : RatMatrix} (h : a.cols = b.rows) :
    (a.times b).transpose = b.transpose.times a.transpose := by
  refine ext_entry rfl rfl fun i j _ _ => ?_
  rw [entry_transpose, entry_times, entry_times, cols_transpose, h]
  refine Finset.sum_congr rfl fun k _ => ?_
  rw [entry_transpose, entry_transpose, mul_comm]

end RatMatrix

namespace MatrixOperations

variable {σ : Type}

/-- **The laws of multiplication** for matrices of any sizes that are kept in
one way. -/
structure MultiplicationLaws (ops : MatrixOperations σ) : Prop where
  product_assoc (a b c : RatMatrix) :
    ∃ abc,
      ComesTo
        (do ops.product (← ops.product (ops.keep a) (ops.keep b)) (ops.keep c))
        (a.cols = b.rows ∧ b.cols = c.rows) abc
      ∧ ComesTo
        (do ops.product (ops.keep a) (← ops.product (ops.keep b) (ops.keep c)))
        (a.cols = b.rows ∧ b.cols = c.rows) abc
  identity_product (m : RatMatrix) :
    (do ops.product (← ops.identity m.rows) (ops.keep m)) = .ok (ops.keep m)
  product_identity (m : RatMatrix) :
    (do ops.product (ops.keep m) (← ops.identity m.cols)) = .ok (ops.keep m)
  transpose_transpose (m : RatMatrix) :
    (do ops.transpose (← ops.transpose (ops.keep m))) = .ok (ops.keep m)
  transpose_product (a b : RatMatrix) :
    ∃ transposed,
      ComesTo (do ops.transpose (← ops.product (ops.keep a) (ops.keep b)))
        (a.cols = b.rows) transposed
      ∧ ComesTo
        (do
          ops.product (← ops.transpose (ops.keep b))
            (← ops.transpose (ops.keep a)))
        (a.cols = b.rows) transposed
  mulVector_product (a b : RatMatrix) (v : List Rat) :
    ∃ w,
      ComesTo (do ops.mulVector (← ops.product (ops.keep a) (ops.keep b)) v)
        (a.cols = b.rows ∧ v.length = b.cols) w
      ∧ ComesTo (do ops.mulVector (ops.keep a) (← ops.mulVector (ops.keep b) v))
        (a.cols = b.rows ∧ v.length = b.cols) w

section Following

variable {ops : MatrixOperations σ} (h : ops.Follows)

include h

/-- The products of three matrices, bracketed from the left and from the
right. -/
theorem Follows.product_assoc (a b c : RatMatrix) :
    ComesTo
        (do ops.product (← ops.product (ops.keep a) (ops.keep b)) (ops.keep c))
        (a.cols = b.rows ∧ b.cols = c.rows) (ops.keep ((a.times b).times c))
      ∧ ComesTo
        (do ops.product (ops.keep a) (← ops.product (ops.keep b) (ops.keep c)))
        (a.cols = b.rows ∧ b.cols = c.rows)
        (ops.keep ((a.times b).times c)) := by
  constructor
  · exact (h.product a b).bind _ (h.product (a.times b) c)
  · rw [times_assoc, and_comm]
    exact (h.product b c).bind _ (h.product a (b.times c))

theorem Follows.identity_product (m : RatMatrix) :
    (do ops.product (← ops.identity m.rows) (ops.keep m))
      = .ok (ops.keep m) := by
  have hproduct := (h.product (.identity m.rows) m).eq_ok rfl
  rw [identity_times] at hproduct
  rw [h.identity]
  exact hproduct

theorem Follows.product_identity (m : RatMatrix) :
    (do ops.product (ops.keep m) (← ops.identity m.cols))
      = .ok (ops.keep m) := by
  have hproduct := (h.product m (.identity m.cols)).eq_ok rfl
  rw [times_identity] at hproduct
  rw [h.identity]
  exact hproduct

theorem Follows.transpose_transpose (m : RatMatrix) :
    (do ops.transpose (← ops.transpose (ops.keep m))) = .ok (ops.keep m) := by
  have htranspose := h.transpose m.transpose
  rw [RatMatrix.transpose_transpose] at htranspose
  rw [h.transpose]
  exact htranspose

/-- A transposed product and the product of the transposed factors. -/
theorem Follows.transpose_product (a b : RatMatrix) :
    ComesTo (do ops.transpose (← ops.product (ops.keep a) (ops.keep b)))
        (a.cols = b.rows) (ops.keep (a.times b).transpose)
      ∧ ComesTo
        (do
          ops.product (← ops.transpose (ops.keep b))
            (← ops.transpose (ops.keep a)))
        (a.cols = b.rows) (ops.keep (a.times b).transpose) := by
  constructor
  · rw [← and_true (a.cols = b.rows)]
    exact (h.product a b).bind _ (.of_eq_ok (h.transpose (a.times b)))
  · rw [h.transpose b, h.transpose a]
    intro result
    refine (h.product b.transpose a.transpose result).trans ?_
    rw [rows_transpose, cols_transpose, eq_comm (a := b.rows)]
    exact and_congr_right fun hab => by rw [transpose_times hab]

/-- A product applied to a vector and the one factor after the other. -/
theorem Follows.mulVector_product (a b : RatMatrix) (v : List Rat) :
    ComesTo (do ops.mulVector (← ops.product (ops.keep a) (ops.keep b)) v)
        (a.cols = b.rows ∧ v.length = b.cols) ((a.times b).apply v)
      ∧ ComesTo (do ops.mulVector (ops.keep a) (← ops.mulVector (ops.keep b) v))
        (a.cols = b.rows ∧ v.length = b.cols) ((a.times b).apply v) := by
  constructor
  · exact (h.product a b).bind _ (h.mulVector (a.times b) v)
  · rw [apply_times, and_comm, eq_comm (a := a.cols), ← length_apply b v]
    exact (h.mulVector b v).bind _ (h.mulVector a (b.apply v))

/-- **The laws hold** for all operations that follow the formulas. -/
theorem Follows.multiplicationLaws : ops.MultiplicationLaws where
  product_assoc a b c := ⟨_, h.product_assoc a b c⟩
  identity_product := h.identity_product
  product_identity := h.product_identity
  transpose_transpose := h.transpose_transpose
  transpose_product a b := ⟨_, h.transpose_product a b⟩
  mulVector_product a b v := ⟨_, h.mulVector_product a b v⟩

end Following

/-- **Matrices of any sizes multiply as they should**, by the formulas and by
the loops. -/
theorem multiplicationLaws_formulas_loops :
    formulas.MultiplicationLaws ∧ loops.MultiplicationLaws :=
  ⟨follows_formulas.multiplicationLaws, follows_loops.multiplicationLaws⟩

end MatrixOperations

end Stepwise
