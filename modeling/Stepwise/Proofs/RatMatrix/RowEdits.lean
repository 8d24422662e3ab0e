import Stepwise.Proofs.RatMatrix.Operations

/-!
# Edits that are taken back

An edit of rows writes where it reads, one column after the other, and might
spoil what it has still to read. It does not: a cell is read before its column
is written and not after that, also where a row is subtracted from itself. So an
edit in range makes what the row operation makes of the matrix as it was. It
changes the rows that the operation writes (`RowOp.touched`), and every other
row keeps its cells (`RatMatrix.AgreesOutside`).

The edit that undoes the operation then restores the matrix. Only from another
row is a multiple taken back: a row that is subtracted from itself is scaled,
and with factor one it is lost.

These are the `EditLaws`. The last of them is about any number of edits: they
change the rows that some of them write, and they are taken back in the opposite
order. The laws hold for the edits of a matrix and for those of its list of
cells, `editLaws_formulas_loops`.
-/

namespace Stepwise

open RatMatrix

/-! ## Rows that are not written -/

/-- **Two matrices of one size that agree** in all but the given rows. -/
structure RatMatrix.AgreesOutside (rows : List Nat) (m m' : RatMatrix) :
    Prop where
  rows_eq : m'.rows = m.rows
  cols_eq : m'.cols = m.cols
  entry_eq : ∀ i j, i ∉ rows → m'.entry i j = m.entry i j

namespace RowOp

/-- The rows that an operation writes. -/
def touched : RowOp → List Nat
  | .swap a b => [a, b]
  | .divide i _ => [i]
  | .subtract target _ _ => [target]

/-- An operation does nothing to a row that it does not write. -/
theorem onColumn_of_notMem {op : RowOp} {i : Nat} (h : i ∉ op.touched)
    (f : Nat → Rat) : op.onColumn f i = f i := by
  cases op with
  | swap a b =>
    obtain ⟨ha, hb⟩ : i ≠ a ∧ i ≠ b := by simpa [touched] using h
    rw [onColumn_swap, Equiv.swap_apply_of_ne_of_ne ha hb]
  | divide r d => exact if_neg fun hi => h (List.mem_singleton.mpr hi)
  | subtract t s c => exact if_neg fun hi => h (List.mem_singleton.mpr hi)

/-- **An operation changes the rows it writes only.** -/
theorem agreesOutside_apply (op : RowOp) (m : RatMatrix) :
    AgreesOutside op.touched m (op.apply m) where
  rows_eq := rows_apply op m
  cols_eq := cols_apply op m
  entry_eq i j h := by
    by_cases hi : i < m.rows
    · rw [entry_apply op hi, onColumn_of_notMem h]
    · have hle : m.rows ≤ i := Nat.not_lt.mp hi
      rw [entry_eq_zero_of_rows_le hle,
        entry_eq_zero_of_rows_le ((rows_apply op m).symm ▸ hle)]

/-- Any number of operations change the rows that some of them write. -/
theorem agreesOutside_applyAll (ops : List RowOp) (m : RatMatrix) :
    AgreesOutside (ops.flatMap touched) m (applyAll ops m) := by
  induction ops generalizing m with
  | nil => exact ⟨rfl, rfl, fun _ _ _ => rfl⟩
  | cons op ops ih =>
    have hfirst := agreesOutside_apply op m
    have hrest := ih (op.apply m)
    refine ⟨hrest.rows_eq.trans hfirst.rows_eq,
      hrest.cols_eq.trans hfirst.cols_eq, fun i j h => ?_⟩
    rw [List.flatMap_cons, List.mem_append, not_or] at h
    exact (hrest.entry_eq i j h.2).trans (hfirst.entry_eq i j h.1)

end RowOp

/-! ## Restoring -/

namespace RatMatrix

variable {m : RatMatrix}

/-- Two rows exchanged twice, which may be one and the same. -/
theorem swapRows_swapRows {a b : Nat} (ha : a < m.rows) (hb : b < m.rows) :
    (m.swapRows a b).swapRows a b = m := by
  by_cases hab : a = b
  · rw [hab, swapRows_self, swapRows_self]
  · have hop : (RowOp.swap a b).IsElementary m.rows := ⟨ha, hb, hab⟩
    exact RowOp.undo_apply hop

theorem scaleRow_scaleRow {i : Nat} (hi : i < m.rows) {factor : Rat}
    (hfactor : factor ≠ 0) :
    (m.scaleRow i factor).scaleRow i (1 / factor) = m := by
  have hop : (RowOp.divide i factor⁻¹).IsElementary m.rows :=
    ⟨hi, inv_ne_zero hfactor⟩
  have hundo := RowOp.undo_apply hop
  simpa only [RowOp.undo, RowOp.apply, inv_inv, one_div] using hundo

theorem subtractScaledRow_subtractScaledRow {target source : Nat}
    (ht : target < m.rows) (hs : source < m.rows) (hne : target ≠ source)
    (factor : Rat) :
    (m.subtractScaledRow target source factor).subtractScaledRow target source
      (-factor) = m := by
  have hop : (RowOp.subtract target source factor).IsElementary m.rows :=
    ⟨ht, hs, hne⟩
  exact RowOp.undo_apply hop

end RatMatrix

namespace MatrixOperations

variable {σ : Type}

/-- **The operations, with edits of rows among them.** -/
structure WithEdits (σ : Type) extends MatrixOperations σ where
  swapRows : σ → Nat → Nat → Except σ σ
  scaleRow : σ → Nat → Rat → Except σ σ
  subtractScaledRow : σ → Nat → Nat → Rat → Except σ σ

namespace WithEdits

/-- The edits of a matrix. -/
def formulas : WithEdits RatMatrix where
  toMatrixOperations := .formulas
  swapRows m a b := m.swapRowsInPlace a b
  scaleRow m i factor := m.scaleRowInPlace i factor
  subtractScaledRow m target source factor :=
    m.subtractScaledRowInPlace target source factor

/-- The edits of a list of cells. -/
def loops : WithEdits FlatMatrix where
  toMatrixOperations := .loops
  swapRows m a b := m.swapRows a b
  scaleRow m i factor := m.scaleRow i factor
  subtractScaledRow m target source factor :=
    m.subtractScaledRow target source factor

/-- A row operation carried out as an edit. -/
def edit (ops : WithEdits σ) (kept : σ) : RowOp → Except σ σ
  | .swap a b => ops.swapRows kept a b
  | .divide i divisor => ops.scaleRow kept i divisor⁻¹
  | .subtract target source factor =>
    ops.subtractScaledRow kept target source factor

/-- Row operations carried out one after the other. -/
def editAll (ops : WithEdits σ) (kept : σ) (edits : List RowOp) :
    Except σ σ :=
  edits.foldlM ops.edit kept

/-- Operations that follow the formulas, with edits that make of rows in range
what the row operations make. -/
structure Follows (ops : WithEdits σ) : Prop
    extends ops.toMatrixOperations.Follows where
  swapRows (m : RatMatrix) {a b : Nat} (ha : a < m.rows) (hb : b < m.rows) :
    ops.swapRows (ops.keep m) a b = .ok (ops.keep (m.swapRows a b))
  scaleRow (m : RatMatrix) {i : Nat} (hi : i < m.rows) (factor : Rat) :
    ops.scaleRow (ops.keep m) i factor = .ok (ops.keep (m.scaleRow i factor))
  subtractScaledRow (m : RatMatrix) {target source : Nat}
      (ht : target < m.rows) (hs : source < m.rows) (factor : Rat) :
    ops.subtractScaledRow (ops.keep m) target source factor
      = .ok (ops.keep (m.subtractScaledRow target source factor))

theorem follows_formulas : formulas.Follows where
  toFollows := MatrixOperations.follows_formulas
  swapRows _ _ _ ha hb := swapRowsInPlace_eq_ok ha hb
  scaleRow _ _ hi factor := scaleRowInPlace_eq_ok hi factor
  subtractScaledRow _ _ _ ht hs factor :=
    subtractScaledRowInPlace_eq_ok ht hs factor

theorem follows_loops : loops.Follows where
  toFollows := MatrixOperations.follows_loops
  swapRows m a b ha hb :=
    (swapRows_flat m a b).trans
      (congrArg Edited.flat (swapRowsInPlace_eq_ok ha hb))
  scaleRow m i hi factor :=
    (scaleRow_flat m i factor).trans
      (congrArg Edited.flat (scaleRowInPlace_eq_ok hi factor))
  subtractScaledRow m target source ht hs factor :=
    (subtractScaledRow_flat m target source factor).trans
      (congrArg Edited.flat (subtractScaledRowInPlace_eq_ok ht hs factor))

/-- **The laws of edits** of matrices that are kept in one way. -/
structure EditLaws (ops : WithEdits σ) : Prop where
  /-- What is kept of a matrix are its entries. -/
  get (m : RatMatrix) (i j : Nat) :
    ComesTo (ops.get (ops.keep m) i j) (i < m.rows ∧ j < m.cols) (m.entry i j)
  swapRows (m : RatMatrix) {a b : Nat} (ha : a < m.rows) (hb : b < m.rows) :
    ∃ m', ops.swapRows (ops.keep m) a b = .ok (ops.keep m')
      ∧ AgreesOutside [a, b] m m'
      ∧ (∀ j, m'.entry a j = m.entry b j ∧ m'.entry b j = m.entry a j)
      ∧ ops.swapRows (ops.keep m') a b = .ok (ops.keep m)
  scaleRow (m : RatMatrix) {i : Nat} (hi : i < m.rows) (factor : Rat) :
    ∃ m', ops.scaleRow (ops.keep m) i factor = .ok (ops.keep m')
      ∧ AgreesOutside [i] m m'
      ∧ (∀ j, m'.entry i j = factor * m.entry i j)
      ∧ (factor ≠ 0 →
        ops.scaleRow (ops.keep m') i (1 / factor) = .ok (ops.keep m))
  /-- The row that is subtracted is the one of the matrix as it was, also when
  it is the row that is written. -/
  subtractScaledRow (m : RatMatrix) {target source : Nat}
      (ht : target < m.rows) (hs : source < m.rows) (factor : Rat) :
    ∃ m', ops.subtractScaledRow (ops.keep m) target source factor
        = .ok (ops.keep m')
      ∧ AgreesOutside [target] m m'
      ∧ (∀ j, m'.entry target j
        = m.entry target j - factor * m.entry source j)
      ∧ (target = source → ∀ j,
        m'.entry target j = (1 - factor) * m.entry target j)
      ∧ (target ≠ source →
        ops.subtractScaledRow (ops.keep m') target source (-factor)
          = .ok (ops.keep m))
  /-- Any number of edits, and the edits that take them back. -/
  editAll (m : RatMatrix) {edits : List RowOp}
      (hedits : ∀ op ∈ edits, op.IsElementary m.rows) :
    ∃ m', ops.editAll (ops.keep m) edits = .ok (ops.keep m')
      ∧ AgreesOutside (edits.flatMap RowOp.touched) m m'
      ∧ ops.editAll (ops.keep m') (RowOp.undoAll edits) = .ok (ops.keep m)

section Following

variable {ops : WithEdits σ} (h : ops.Follows) {m : RatMatrix}

include h

theorem Follows.swapRows_restores {a b : Nat} (ha : a < m.rows)
    (hb : b < m.rows) :
    ops.swapRows (ops.keep (m.swapRows a b)) a b = .ok (ops.keep m) := by
  rw [h.swapRows (m.swapRows a b) ha hb, swapRows_swapRows ha hb]

theorem Follows.scaleRow_restores {i : Nat} (hi : i < m.rows) {factor : Rat}
    (hfactor : factor ≠ 0) :
    ops.scaleRow (ops.keep (m.scaleRow i factor)) i (1 / factor)
      = .ok (ops.keep m) := by
  rw [h.scaleRow (m.scaleRow i factor) hi, scaleRow_scaleRow hi hfactor]

theorem Follows.subtractScaledRow_restores {target source : Nat}
    (ht : target < m.rows) (hs : source < m.rows) (hne : target ≠ source)
    (factor : Rat) :
    ops.subtractScaledRow (ops.keep (m.subtractScaledRow target source factor))
      target source (-factor) = .ok (ops.keep m) := by
  rw [h.subtractScaledRow (m.subtractScaledRow target source factor) ht hs,
    subtractScaledRow_subtractScaledRow ht hs hne]

/-- An elementary operation is carried out by its edit. -/
theorem Follows.edit_eq_ok {op : RowOp} (hop : op.IsElementary m.rows) :
    ops.edit (ops.keep m) op = .ok (ops.keep (op.apply m)) := by
  cases op with
  | swap a b => exact h.swapRows m hop.1 hop.2.1
  | divide i d => exact h.scaleRow m hop.1 d⁻¹
  | subtract t s f => exact h.subtractScaledRow m hop.1 hop.2.1 f

/-- **Elementary operations are carried out** by their edits, one after the
other. By induction on the operations: each leaves the number of rows, so the
next one is elementary as well. -/
theorem Follows.editAll_eq_ok {edits : List RowOp}
    (hedits : ∀ op ∈ edits, op.IsElementary m.rows) :
    ops.editAll (ops.keep m) edits
      = .ok (ops.keep (RowOp.applyAll edits m)) := by
  induction edits generalizing m with
  | nil => rfl
  | cons op edits ih =>
    rw [editAll, List.foldlM_cons,
      h.edit_eq_ok (hedits op List.mem_cons_self)]
    refine ih fun op' hop' => ?_
    rw [RowOp.rows_apply]
    exact hedits op' (List.mem_cons_of_mem op hop')

theorem Follows.editAll_restores {edits : List RowOp}
    (hedits : ∀ op ∈ edits, op.IsElementary m.rows) :
    ops.editAll (ops.keep (RowOp.applyAll edits m)) (RowOp.undoAll edits)
      = .ok (ops.keep m) := by
  have hback : ∀ op ∈ RowOp.undoAll edits,
      op.IsElementary (RowOp.applyAll edits m).rows := by
    rw [RowOp.rows_applyAll]
    exact RowOp.isElementary_undoAll hedits
  rw [h.editAll_eq_ok hback, RowOp.applyAll_undoAll hedits]

/-- **The laws hold** for all operations that follow the formulas. -/
theorem Follows.editLaws : ops.EditLaws where
  get := h.get
  swapRows m a b ha hb := by
    refine ⟨m.swapRows a b, h.swapRows m ha hb,
      RowOp.agreesOutside_apply (.swap a b) m, fun j => ⟨?_, ?_⟩,
      h.swapRows_restores ha hb⟩
    · rw [entry_swapRows ha, Equiv.swap_apply_left]
    · rw [entry_swapRows hb, Equiv.swap_apply_right]
  scaleRow m i hi factor := by
    have hagrees := RowOp.agreesOutside_apply (.divide i factor⁻¹) m
    rw [RowOp.apply, inv_inv] at hagrees
    refine ⟨m.scaleRow i factor, h.scaleRow m hi factor, hagrees, fun j => ?_,
      h.scaleRow_restores hi⟩
    rw [entry_scaleRow, if_pos rfl, mul_comm]
  subtractScaledRow m target source ht hs factor := by
    have hentry (j : Nat) :
        (m.subtractScaledRow target source factor).entry target j
          = m.entry target j - factor * m.entry source j := by
      rw [entry_subtractScaledRow ht, if_pos rfl, mul_comm]
    refine ⟨m.subtractScaledRow target source factor,
      h.subtractScaledRow m ht hs factor,
      RowOp.agreesOutside_apply (.subtract target source factor) m, hentry,
      fun hsame j => ?_, fun hne => h.subtractScaledRow_restores ht hs hne _⟩
    rw [hentry, ← hsame, sub_mul, one_mul]
  editAll m edits hedits :=
    ⟨RowOp.applyAll edits m, h.editAll_eq_ok hedits,
      RowOp.agreesOutside_applyAll edits m, h.editAll_restores hedits⟩

end Following

/-- **Edits of rows in range** change their rows as they should, leave the
others and can be taken back, whichever way the matrix is kept. -/
theorem editLaws_formulas_loops : formulas.EditLaws ∧ loops.EditLaws :=
  ⟨follows_formulas.editLaws, follows_loops.editLaws⟩

/-- A row that is subtracted from itself once is lost. -/
example :
    FlatMatrix.subtractScaledRow ⟨2, 2, [2, 4, 1, 3]⟩ 0 0 1
      = .ok ⟨2, 2, [0, 0, 1, 3]⟩ := by
  decide +kernel

end WithEdits

end MatrixOperations

end Stepwise
