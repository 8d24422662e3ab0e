import Stepwise.Proofs.Determinant.Laws
import Stepwise.Proofs.Elimination.PivotRows
import Stepwise.Proofs.Elimination.Replay

/-!
# The trace of an elimination certifies the determinant

An elementary row operation changes the determinant by a factor: an exchange by
its sign, a division by its divisor, a subtraction not at all
(`RowOp.det_eq_factor_mul`). The factors of a whole elimination are read off its
trace. If every column has a pivot the reduced matrix is the identity, so the
determinant is their product; if not its last row is zero, and so is the
determinant (`RatMatrix.determinant_eq_of_trace`). The determinant itself is
worked out along the first row and knows nothing of row operations.
-/

namespace Stepwise

open RatMatrix

/-! ## The factor of an operation -/

namespace RowOp

/-- Whether the operation exchanges two rows. -/
def isSwap : RowOp → Bool
  | .swap _ _ => true
  | _ => false

/-- What the operation divides a row by, if it does. -/
def divisor? : RowOp → Option Rat
  | .divide _ divisor => some divisor
  | _ => none

/-- **The factor of an operation**: what the determinant after it is to be
multiplied by to give the one before. -/
def detFactor : RowOp → Rat
  | .swap _ _ => -1
  | .divide _ divisor => divisor
  | .subtract _ _ _ => 1

/-- The factors of several operations are the signs of the exchanges and the
divisors. -/
theorem prod_detFactor (ops : List RowOp) :
    (ops.map detFactor).prod
      = (-1) ^ ops.countP isSwap * (ops.filterMap divisor?).prod := by
  induction ops with
  | nil => exact (one_mul 1).symm
  | cons op ops ih =>
    rw [List.map_cons, List.prod_cons, ih]
    cases op with
    | swap a b =>
      rw [List.countP_cons_of_pos rfl, List.filterMap_cons_none rfl, pow_succ',
        mul_assoc]
      rfl
    | divide i divisor =>
      have hdivisors : (divide i divisor :: ops).filterMap divisor?
          = divisor :: ops.filterMap divisor? := rfl
      rw [List.countP_cons_of_neg Bool.false_ne_true, hdivisors,
        List.prod_cons]
      exact mul_left_comm _ _ _
    | subtract target source factor =>
      rw [List.countP_cons_of_neg Bool.false_ne_true,
        List.filterMap_cons_none rfl]
      exact one_mul _

section Square

variable {m : RatMatrix} {n : Nat} (hr : m.rows = n)

include hr

/-- **An elementary operation changes the determinant by its factor.** -/
theorem det_eq_factor_mul {op : RowOp} (h : op.IsElementary n) :
    (m.toMatrix n).det = op.detFactor * ((op.apply m).toMatrix n).det := by
  cases op with
  | swap a b =>
    obtain ⟨ha, hb, hne⟩ := h
    show _ = -1 * ((m.swapRows a b).toMatrix n).det
    rw [det_swapRows hr ha hb hne, neg_mul_neg, one_mul]
  | divide i d =>
    obtain ⟨hi, hd⟩ := h
    show _ = d * ((m.scaleRow i d⁻¹).toMatrix n).det
    rw [det_scaleRow hi, mul_inv_cancel_left₀ hd]
  | subtract t s f =>
    obtain ⟨ht, hs, hne⟩ := h
    show _ = 1 * ((m.subtractScaledRow t s f).toMatrix n).det
    rw [det_subtractScaledRow hr ht hs hne, one_mul]

/-- **A sequence of elementary operations** changes the determinant by the
product of its factors. -/
theorem det_eq_prod_mul {ops : List RowOp}
    (h : ∀ op ∈ ops, op.IsElementary n) :
    (m.toMatrix n).det
      = (ops.map detFactor).prod * ((applyAll ops m).toMatrix n).det := by
  induction ops generalizing m with
  | nil => exact (one_mul _).symm
  | cons op ops ih =>
    have hr' : (op.apply m).rows = n := (rows_apply op m).trans hr
    rw [det_eq_factor_mul hr (h op List.mem_cons_self),
      ih hr' fun o ho => h o (List.mem_cons_of_mem op ho), List.map_cons,
      List.prod_cons, mul_assoc]
    rfl

end Square

end RowOp

/-! ## The certificate -/

/-- The number of exchanges that a trace names. -/
def Trace.swaps (trace : Trace) : Nat :=
  trace.operations.countP RowOp.isSwap

/-- What the divisions that a trace names divide by, in order. -/
def Trace.divisors (trace : Trace) : List Rat :=
  trace.operations.filterMap RowOp.divisor?

namespace RatMatrix

/-- **A reduced square matrix has determinant one or zero**, as every column
has a pivot or not. -/
theorem IsEchelon.det_eq {m : RatMatrix} {n : Nat} {pivots : List Nat}
    (h : m.IsEchelon n pivots) (hr : m.rows = n) (hc : m.cols = n) :
    (m.toMatrix n).det = if pivots.length = n then 1 else 0 := by
  split
  · rename_i hfull
    rw [h.eq_identity hr hc hfull, toMatrix_identity, Matrix.det_one]
  · rename_i hne
    have hlt : pivots.length < n :=
      Nat.lt_of_le_of_ne (hr ▸ h.length_le) hne
    -- the rows without pivot are zero
    exact Matrix.det_eq_zero_of_row_eq_zero ⟨pivots.length, hlt⟩ fun j =>
      h.zero_below pivots.length (Nat.le_refl _) j j.isLt

/-- **The trace certifies the determinant.** Reduce a square matrix over all its
columns. If every column has a pivot, the determinant is the product of the
divisors that the trace names, with the sign changed for each exchange that it
names. If some column has none, the determinant is zero. -/
theorem determinant_eq_of_trace {a : RatMatrix} (hsq : a.rows = a.cols) :
    let r := a.reduceColumns a.rows
    ∃ det, a.determinant = .ok det
      ∧ r.rank ≤ a.rows
      ∧ (r.rank = a.rows →
        det.result = (-1) ^ r.trace.swaps * r.trace.divisors.prod)
      ∧ (r.rank < a.rows → det.result = 0) := by
  intro r
  have h : r.rref.IsEchelon a.rows r.pivots :=
    isEchelon_reduceColumns_of_le (Nat.le_of_eq hsq)
  have hrows : r.rref.rows = a.rows := rows_rref a a.rows
  have hcols : r.rref.cols = a.rows := (cols_rref a a.rows).trans hsq.symm
  have hdet := calc (a.expand 0).result
      = (a.toMatrix a.rows).det := result_expand rfl hsq.symm
    _ = ((a.rowOperations a.rows).map RowOp.detFactor).prod
        * ((RowOp.applyAll (a.rowOperations a.rows) a).toMatrix a.rows).det :=
      RowOp.det_eq_prod_mul rfl (a.isElementary_rowOperations a.rows)
    _ = (-1) ^ r.trace.swaps * r.trace.divisors.prod
        * if r.rank = a.rows then 1 else 0 := by
      rw [← rref_eq_applyAll, h.det_eq hrows hcols, RowOp.prod_detFactor,
        ← operations_trace]
      rfl
  refine ⟨a.expand 0, ?_, hrows ▸ h.length_le, fun hfull => ?_, fun hlt => ?_⟩
  · rw [determinant, isSquare, if_pos (beq_iff_eq.mpr hsq)]
  · rw [hdet, if_pos hfull, mul_one]
  · rw [hdet, if_neg (Nat.ne_of_lt hlt), mul_zero]

/-- A matrix of order three with one exchange, and one of order two that is
singular. -/
theorem determinant_of_trace_three_two :
    let a : RatMatrix := ⟨3, 3, #[0, 2, 1, 1, 0, 3, 2, 1, 1], rfl⟩
    let c : RatMatrix := ⟨2, 2, #[1, 2, 2, 4], rfl⟩
    (a.rows = a.cols ∧ (a.reduceColumns 3).rank = a.rows
        ∧ (a.reduceColumns 3).trace.swaps = 1
        ∧ (a.reduceColumns 3).trace.divisors = [2, -11 / 2]
        ∧ a.determinantValue = .ok 11)
      ∧ c.rows = c.cols ∧ (c.reduceColumns 2).rank < c.rows
        ∧ c.determinantValue = .ok 0 := by
  intro a c
  have hrank : (a.reduceColumns 3).rank = a.rows := by decide +kernel
  have hswaps : (a.reduceColumns 3).trace.swaps = 1 := by decide +kernel
  have hdivisors : (a.reduceColumns 3).trace.divisors = [2, -11 / 2] := by
    decide +kernel
  have hlt : (c.reduceColumns 2).rank < c.rows := by decide +kernel
  obtain ⟨det, hdet, _, hfull, _⟩ := determinant_eq_of_trace (a := a) rfl
  obtain ⟨det', hdet', _, _, hsingular⟩ :=
    determinant_eq_of_trace (a := c) rfl
  refine ⟨⟨rfl, hrank, hswaps, hdivisors, ?_⟩, rfl, hlt, ?_⟩
  · rw [determinantValue, hdet]
    refine congrArg Except.ok ((hfull hrank).trans ?_)
    show (-1) ^ (a.reduceColumns 3).trace.swaps
      * (a.reduceColumns 3).trace.divisors.prod = 11
    rw [hswaps, hdivisors]
    decide +kernel
  · rw [determinantValue, hdet']
    exact congrArg Except.ok (hsingular hlt)

end RatMatrix

end Stepwise
