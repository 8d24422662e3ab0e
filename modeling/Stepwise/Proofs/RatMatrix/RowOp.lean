import Mathlib.Logic.Equiv.Basic
import Mathlib.Tactic.Ring
import Stepwise.Proofs.RatMatrix.Entries
import Stepwise.RatMatrix.RowOp

/-!
# Row operations, products and blocks

A row operation does the same to every column, and to each on its own:
`RowOp.onColumn` says what, and `RowOp.entry_apply` reads the entries of the
result off it. An operation may therefore be applied to the left factor of a
product instead of the product (`RowOp.apply_times`), and before or after
columns are dropped (`RowOp.apply_leftColumns`). The first of these makes a
sequence of operations one matrix to multiply with, `RowOp.applyAll_eq_times`;
the operations being elementary, that matrix has an inverse,
`RowOp.applyAll_identity_inverse`.
-/

namespace Stepwise

namespace RatMatrix

/-- Exchanging two rows reads row `i` where `i` goes when they are swapped. -/
theorem entry_swapRows {m : RatMatrix} {i : Nat} (hi : i < m.rows)
    (a b j : Nat) :
    (m.swapRows a b).entry i j = m.entry (Equiv.swap a b i) j := by
  rw [swapRows, entry_ofFn, Equiv.swap_apply_def]
  by_cases hj : j < m.cols
  · rw [if_pos ⟨hi, hj⟩]
  · rw [if_neg fun h => hj h.2, entry_eq_zero_of_cols_le (Nat.not_lt.mp hj)]

/-- Scaling a row multiplies its entries and leaves the others. -/
theorem entry_scaleRow (m : RatMatrix) (i : Nat) (f : Rat) (r j : Nat) :
    (m.scaleRow i f).entry r j
      = if r = i then m.entry r j * f else m.entry r j := by
  refine entry_ofFn_of_zero (fun r j h => ?_) r j
  rw [entry_eq_zero h, zero_mul, ite_self]

/-- Subtracting a multiple of a row changes the target row only. -/
theorem entry_subtractScaledRow {m : RatMatrix} {i : Nat} (hi : i < m.rows)
    (t s : Nat) (f : Rat) (j : Nat) :
    (m.subtractScaledRow t s f).entry i j
      = if i = t then m.entry i j - m.entry s j * f else m.entry i j := by
  rw [subtractScaledRow, entry_ofFn]
  by_cases hj : j < m.cols
  · rw [if_pos ⟨hi, hj⟩]
  · have hz : ∀ r, m.entry r j = 0 :=
      entry_eq_zero_of_cols_le (Nat.not_lt.mp hj)
    rw [if_neg fun h => hj h.2, hz, hz, zero_mul, sub_zero, ite_self]

end RatMatrix

open RatMatrix

namespace RowOp

@[simp] theorem rows_apply (op : RowOp) (m : RatMatrix) :
    (op.apply m).rows = m.rows := by
  cases op <;> rfl

@[simp] theorem cols_apply (op : RowOp) (m : RatMatrix) :
    (op.apply m).cols = m.cols := by
  cases op <;> rfl

/-- **What an operation does to a single column**, given as a function of the
row. -/
def onColumn : RowOp → (Nat → Rat) → Nat → Rat
  | .swap a b, f, i => f (Equiv.swap a b i)
  | .divide r divisor, f, i => if i = r then f i * divisor⁻¹ else f i
  | .subtract target source factor, f, i =>
    if i = target then f i - f source * factor else f i

theorem onColumn_swap (a b : Nat) (f : Nat → Rat) (i : Nat) :
    (swap a b).onColumn f i = f (Equiv.swap a b i) := rfl

theorem onColumn_divide (r : Nat) (d : Rat) (f : Nat → Rat) (i : Nat) :
    (divide r d).onColumn f i = if i = r then f i * d⁻¹ else f i := rfl

theorem onColumn_subtract (t s : Nat) (c : Rat) (f : Nat → Rat) (i : Nat) :
    (subtract t s c).onColumn f i = if i = t then f i - f s * c else f i := rfl

/-- **Each column is transformed on its own**, and each in the same way. -/
theorem entry_apply (op : RowOp) {m : RatMatrix} {i : Nat} (hi : i < m.rows)
    (j : Nat) :
    (op.apply m).entry i j = op.onColumn (fun r => m.entry r j) i := by
  cases op with
  | swap a b => exact entry_swapRows hi a b j
  | divide r d => exact entry_scaleRow m r d⁻¹ i j
  | subtract t s f => exact entry_subtractScaledRow hi t s f j

/-- What an operation does to a column is linear in the column. -/
theorem onColumn_sum (op : RowOp) (n : Nat) (f : Nat → Nat → Rat)
    (g : Nat → Rat) (i : Nat) :
    op.onColumn (fun r => ∑ k ∈ Finset.range n, f r k * g k) i
      = ∑ k ∈ Finset.range n, op.onColumn (fun r => f r k) i * g k := by
  cases op with
  | swap a b => rfl
  | divide r d =>
    simp only [onColumn_divide]
    split
    · rw [Finset.sum_mul]
      exact Finset.sum_congr rfl fun k _ => mul_right_comm _ _ _
    · rfl
  | subtract t s c =>
    simp only [onColumn_subtract]
    split
    · rw [Finset.sum_mul, ← Finset.sum_sub_distrib]
      exact Finset.sum_congr rfl fun k _ => by ring
    · rfl

/-- **A row operation on a product** is one on the left factor. -/
theorem apply_times (op : RowOp) (a b : RatMatrix) :
    op.apply (a.times b) = (op.apply a).times b := by
  refine ext_entry (by simp) (by simp) fun i j hi _ => ?_
  have hi' : i < a.rows := by simpa using hi
  rw [entry_apply op (show i < (a.times b).rows from hi'), entry_times,
    cols_apply, show (fun r => (a.times b).entry r j) = _ from
      funext fun r => entry_times a b r j, onColumn_sum]
  exact Finset.sum_congr rfl fun k _ => by rw [entry_apply op hi']

/-- A row operation does not look to the right: columns may be dropped before
or after it. -/
theorem apply_leftColumns (op : RowOp) (m : RatMatrix) (k : Nat) :
    op.apply (m.leftColumns k) = (op.apply m).leftColumns k := by
  refine ext_entry (by simp) (by simp) fun i j hi hj => ?_
  have hi' : i < m.rows := by simpa using hi
  have hj' : j < k := by simpa using hj
  rw [entry_leftColumns_of_lt _ hj', entry_apply op hi',
    entry_apply op (show i < (m.leftColumns k).rows from hi'),
    show (fun r => (m.leftColumns k).entry r j) = _ from
      funext fun r => entry_leftColumns_of_lt m hj' r]

/-! ## Undoing an operation -/

/-- **An operation that can be undone** on matrices with the given number of
rows: it names existing rows, two different ones where it names two, and does
not divide by zero. -/
def IsElementary (rows : Nat) : RowOp → Prop
  | .swap a b => a < rows ∧ b < rows ∧ a ≠ b
  | .divide i divisor => i < rows ∧ divisor ≠ 0
  | .subtract target source _ =>
    target < rows ∧ source < rows ∧ target ≠ source

/-- The operation that takes back what an elementary operation did. -/
def undo : RowOp → RowOp
  | .swap a b => .swap a b
  | .divide i divisor => .divide i divisor⁻¹
  | .subtract target source factor => .subtract target source (-factor)

theorem undo_undo (op : RowOp) : op.undo.undo = op := by
  cases op with
  | swap a b => rfl
  | divide i d => rw [undo, undo, inv_inv]
  | subtract t s f => rw [undo, undo, neg_neg]

theorem IsElementary.undo {rows : Nat} {op : RowOp}
    (h : op.IsElementary rows) : op.undo.IsElementary rows := by
  cases op with
  | swap a b => exact h
  | divide i d => exact ⟨h.1, inv_ne_zero h.2⟩
  | subtract t s f => exact h

/-- An elementary operation keeps the rows outside the matrix zero, so that
its formula holds for every row. -/
theorem entry_apply_of_isElementary {op : RowOp} {m : RatMatrix}
    (h : op.IsElementary m.rows) (i j : Nat) :
    (op.apply m).entry i j = op.onColumn (fun r => m.entry r j) i := by
  by_cases hi : i < m.rows
  · exact entry_apply op hi j
  · have hz : m.entry i j = 0 := entry_eq_zero_of_rows_le (Nat.not_lt.mp hi) j
    rw [entry_eq_zero_of_rows_le (by simpa using hi)]
    cases op with
    | swap a b =>
      have ha : i ≠ a := fun hia => hi (hia ▸ h.1)
      have hb : i ≠ b := fun hib => hi (hib ▸ h.2.1)
      rw [onColumn_swap, Equiv.swap_apply_of_ne_of_ne ha hb, hz]
    | divide r d =>
      have hr : i ≠ r := fun hir => hi (hir ▸ h.1)
      rw [onColumn_divide, if_neg hr, hz]
    | subtract t s f =>
      have ht : i ≠ t := fun hit => hi (hit ▸ h.1)
      rw [onColumn_subtract, if_neg ht, hz]

/-- **Undoing an elementary operation** gives the matrix back. -/
theorem undo_apply {op : RowOp} {m : RatMatrix}
    (h : op.IsElementary m.rows) : op.undo.apply (op.apply m) = m := by
  refine ext_entry (by simp) (by simp) fun i j hi _ => ?_
  rw [entry_apply op.undo (by simpa using hi),
    show (fun r => (op.apply m).entry r j) = _ from
      funext fun r => entry_apply_of_isElementary h r j]
  cases op with
  | swap a b => exact congrArg (m.entry · j) (Equiv.swap_apply_self a b i)
  | divide r d =>
    simp only [undo, onColumn_divide, inv_inv]
    split
    · exact inv_mul_cancel_right₀ h.2 _
    · rfl
  | subtract t s f =>
    -- the source row is another one, so what comes back is what was taken
    simp only [undo, onColumn_subtract, if_neg h.2.2.symm]
    split
    · ring
    · rfl

/-! ## Sequences of operations -/

/-- The matrix after all operations of a list, in order. -/
def applyAll (ops : List RowOp) (m : RatMatrix) : RatMatrix :=
  ops.foldl (fun m op => op.apply m) m

theorem applyAll_cons (op : RowOp) (ops : List RowOp) (m : RatMatrix) :
    applyAll (op :: ops) m = applyAll ops (op.apply m) := rfl

theorem applyAll_append (ops ops' : List RowOp) (m : RatMatrix) :
    applyAll (ops ++ ops') m = applyAll ops' (applyAll ops m) :=
  List.foldl_append

@[simp] theorem rows_applyAll (ops : List RowOp) (m : RatMatrix) :
    (applyAll ops m).rows = m.rows := by
  induction ops generalizing m with
  | nil => rfl
  | cons op ops ih => rw [applyAll_cons, ih, rows_apply]

@[simp] theorem cols_applyAll (ops : List RowOp) (m : RatMatrix) :
    (applyAll ops m).cols = m.cols := by
  induction ops generalizing m with
  | nil => rfl
  | cons op ops ih => rw [applyAll_cons, ih, cols_apply]

theorem applyAll_times (ops : List RowOp) (a b : RatMatrix) :
    applyAll ops (a.times b) = (applyAll ops a).times b := by
  induction ops generalizing a with
  | nil => rfl
  | cons op ops ih => rw [applyAll_cons, applyAll_cons, apply_times, ih]

/-- **A sequence of operations is one matrix**: what the operations make of
the identity. -/
theorem applyAll_eq_times (ops : List RowOp) (m : RatMatrix) :
    applyAll ops m = (applyAll ops (identity m.rows)).times m := by
  rw [← applyAll_times, identity_times]

/-- The operations that take back a sequence: the last one first. -/
def undoAll (ops : List RowOp) : List RowOp :=
  (ops.map undo).reverse

theorem undoAll_undoAll (ops : List RowOp) : undoAll (undoAll ops) = ops := by
  unfold undoAll
  rw [List.map_reverse, List.reverse_reverse, List.map_map]
  exact (List.map_congr_left fun op _ => undo_undo op).trans (List.map_id _)

/-- Taking back a sequence of elementary operations gives the matrix back. -/
theorem applyAll_undoAll {ops : List RowOp} {m : RatMatrix}
    (h : ∀ op ∈ ops, op.IsElementary m.rows) :
    applyAll (undoAll ops) (applyAll ops m) = m := by
  induction ops generalizing m with
  | nil => rfl
  | cons op ops ih =>
    have hop : op.IsElementary m.rows := h op List.mem_cons_self
    have hops : ∀ o ∈ ops, o.IsElementary (op.apply m).rows := fun o ho => by
      rw [rows_apply]
      exact h o (List.mem_cons_of_mem _ ho)
    have hsplit : undoAll (op :: ops) = undoAll ops ++ [op.undo] := by
      unfold undoAll
      rw [List.map_cons, List.reverse_cons]
    rw [applyAll_cons, hsplit, applyAll_append, ih hops]
    exact undo_apply hop

theorem isElementary_undoAll {ops : List RowOp} {rows : Nat}
    (h : ∀ op ∈ ops, op.IsElementary rows) :
    ∀ op ∈ undoAll ops, op.IsElementary rows := by
  intro op hop
  obtain ⟨o, ho, rfl⟩ := List.mem_map.mp (List.mem_reverse.mp hop)
  exact (h o ho).undo

/-- **The matrix of a sequence of elementary operations has an inverse**: the
matrix of the sequence that takes it back. -/
theorem applyAll_identity_inverse {ops : List RowOp} {n : Nat}
    (h : ∀ op ∈ ops, op.IsElementary n) :
    (applyAll (undoAll ops) (identity n)).times (applyAll ops (identity n))
        = identity n
      ∧ (applyAll ops (identity n)).times
          (applyAll (undoAll ops) (identity n)) = identity n := by
  have key : ∀ os : List RowOp, (∀ op ∈ os, op.IsElementary n) →
      (applyAll (undoAll os) (identity n)).times (applyAll os (identity n))
        = identity n := by
    intro os hos
    have hrows : (applyAll os (identity n)).rows = n := rows_applyAll _ _
    calc (applyAll (undoAll os) (identity n)).times (applyAll os (identity n))
        = applyAll (undoAll os) (applyAll os (identity n)) := by
          rw [applyAll_eq_times (undoAll os) (applyAll os (identity n)), hrows]
      _ = identity n := applyAll_undoAll hos
  -- the other equation is the first one for the sequence that takes back
  refine ⟨key ops h, ?_⟩
  have hback := key (undoAll ops) (isElementary_undoAll h)
  rwa [undoAll_undoAll] at hback

end RowOp

end Stepwise
