import Stepwise.Proofs.RatMatrix.Operations

/-!
# Blocks

Two matrices of one height are put side by side, and a matrix is taken apart
between two columns. Each undoes the other, as long as neither block is empty: a
matrix without columns can be put beside another one, but not taken off again. A
product with `[A | B]` is a product with each block, a vector beside a matrix is
a block of one column (`RatMatrix.columnMatrix`), and a column that is replaced
is read back, with no other cell changed.

These are the `BlockLaws`, each with the condition under which the operations
take their arguments. They hold for the formulas and for the loops
(`blockLaws_formulas_loops`), where the widths of the blocks are the strides at
which cells are found.
-/

namespace Stepwise

open RatMatrix

namespace RatMatrix

variable {m a : RatMatrix} {v : List Rat}

/-- The matrix with one column. -/
def columnMatrix (v : List Rat) : RatMatrix where
  rows := v.length
  cols := 1
  cells := v.toArray
  size_cells := (Nat.mul_one v.length).symm

theorem entry_columnMatrix (v : List Rat) (i : Nat) :
    (columnMatrix v).entry i 0 = v.getD i 0 := by
  by_cases hi : i < v.length
  · have hcell : i < (columnMatrix v).rows ∧ 0 < (columnMatrix v).cols :=
      ⟨hi, Nat.one_pos⟩
    rw [entry, if_pos hcell]
    simp [columnMatrix, hi]
  · rw [entry_eq_zero_of_rows_le (Nat.not_lt.mp hi),
      List.getD_eq_default _ _ (Nat.not_lt.mp hi)]

/-- A vector to the right of a matrix is a block of one column. -/
theorem beside_columnMatrix (h : v.length = a.rows) :
    a.beside (columnMatrix v) = a.besideColumn v := by
  refine ext_entry rfl rfl fun i j hi hj => ?_
  have hi' : i < a.rows := hi
  have hj' : j < a.cols + 1 := hj
  rw [entry_beside h, entry_besideColumn hi' (Nat.le_of_lt_succ hj')]
  split
  · rfl
  · rw [show j - a.cols = 0 by omega, entry_columnMatrix]

theorem column_besideColumn (h : v.length = a.rows) :
    (a.besideColumn v).column a.cols = v := by
  refine vector_ext (by rw [length_column, rows_besideColumn, h])
    fun i hi => ?_
  rw [length_column, rows_besideColumn] at hi
  rw [getD_column, entry_besideColumn hi (Nat.le_refl _),
    if_neg (Nat.lt_irrefl _)]

/-- **Blocks are put together** where they were taken apart. -/
theorem beside_leftColumns_rightColumns {k : Nat} (hk : k ≤ m.cols) :
    (m.leftColumns k).beside (m.rightColumns k) = m := by
  refine ext_entry rfl (Nat.add_sub_cancel' hk) fun i j hi hj => ?_
  have hi' : i < m.rows := hi
  have hj' : j < k + (m.cols - k) := hj
  have hrows : (m.rightColumns k).rows = (m.leftColumns k).rows := rfl
  rw [entry_beside hrows, cols_leftColumns]
  split
  · exact entry_leftColumns_of_lt m ‹_› i
  · rw [rightColumns, entry_ofFn_of_lt _ hi' (by omega),
      Nat.add_sub_cancel' (Nat.not_lt.mp ‹_›)]

theorem entry_replaceColumn_of_ne {j k : Nat} (hk : k ≠ j) (i : Nat) :
    (m.replaceColumn j v).entry i k = m.entry i k := by
  rw [replaceColumn, entry_ofFn, if_neg hk]
  split
  · rfl
  · exact (entry_eq_zero ‹_›).symm

theorem column_replaceColumn {j : Nat} (hj : j < m.cols)
    (hv : v.length = m.rows) : (m.replaceColumn j v).column j = v := by
  have hrows : (m.replaceColumn j v).rows = m.rows := rfl
  refine vector_ext (by rw [length_column, hrows, hv]) fun i hi => ?_
  rw [length_column, hrows] at hi
  rw [getD_column, replaceColumn, entry_ofFn_of_lt _ hi hj, if_pos rfl]

end RatMatrix

namespace MatrixOperations

variable {σ : Type}

/-- **The laws of blocks** for matrices of any sizes that are kept in one
way. -/
structure BlockLaws (ops : MatrixOperations σ) : Prop where
  split_augment (a b : RatMatrix) :
    ComesTo
      (do ops.splitColumns (← ops.augment (ops.keep a) (ops.keep b)) a.cols)
      (b.rows = a.rows ∧ 0 < a.cols ∧ 0 < b.cols) (ops.keep a, ops.keep b)
  augment_split (m : RatMatrix) (position : Nat) :
    ComesTo
      (do
        let parts ← ops.splitColumns (ops.keep m) position
        ops.augment parts.1 parts.2)
      (0 < position ∧ position < m.cols) (ops.keep m)
  product_augment (p a b : RatMatrix) :
    ∃ blocks,
      ComesTo
        (do ops.product (ops.keep p) (← ops.augment (ops.keep a) (ops.keep b)))
        (b.rows = a.rows ∧ p.cols = a.rows) blocks
      ∧ ComesTo
        (do
          ops.augment (← ops.product (ops.keep p) (ops.keep a))
            (← ops.product (ops.keep p) (ops.keep b)))
        (b.rows = a.rows ∧ p.cols = a.rows) blocks
  augmentColumn_eq_augment (a : RatMatrix) (v : List Rat) :
    ∃ system,
      ComesTo (ops.augmentColumn (ops.keep a) v) (v.length = a.rows) system
      ∧ ComesTo (ops.augment (ops.keep a) (ops.keep (columnMatrix v)))
        (v.length = a.rows) system
  column_augmentColumn (a : RatMatrix) (v : List Rat) :
    ComesTo (do ops.column (← ops.augmentColumn (ops.keep a) v) a.cols)
      (v.length = a.rows) v
  /-- The column is read back, and every other cell is as before. -/
  withColumn (m : RatMatrix) (j : Nat) (v : List Rat) :
    ∃ replaced : RatMatrix,
      ComesTo (ops.withColumn (ops.keep m) j v)
        (j < m.cols ∧ v.length = m.rows) (ops.keep replaced)
      ∧ replaced.rows = m.rows ∧ replaced.cols = m.cols
      ∧ (j < m.cols → v.length = m.rows →
        ops.column (ops.keep replaced) j = .ok v)
      ∧ ∀ i k, k ≠ j → ∀ value,
        ops.get (ops.keep replaced) i k = .ok value
          ↔ ops.get (ops.keep m) i k = .ok value

section Following

variable {ops : MatrixOperations σ} (h : ops.Follows)

include h

theorem Follows.split_augment (a b : RatMatrix) :
    ComesTo
      (do ops.splitColumns (← ops.augment (ops.keep a) (ops.keep b)) a.cols)
      (b.rows = a.rows ∧ 0 < a.cols ∧ 0 < b.cols)
      (ops.keep a, ops.keep b) := by
  have hfits : 0 < a.cols ∧ a.cols < (a.beside b).cols
      ↔ 0 < a.cols ∧ 0 < b.cols := by
    rw [cols_beside, Nat.lt_add_right_iff_pos]
  have hparts := (h.augment a b).bind (ops.splitColumns · a.cols)
    ((h.splitColumns (a.beside b) a.cols).congr hfits)
  refine hparts.congr_value fun hrows => ?_
  rw [leftColumns_beside hrows.1, rightColumns_beside hrows.1]

theorem Follows.augment_split (m : RatMatrix) (position : Nat) :
    ComesTo
      (do
        let parts ← ops.splitColumns (ops.keep m) position
        ops.augment parts.1 parts.2)
      (0 < position ∧ position < m.cols) (ops.keep m) := by
  have hrows : (m.rightColumns position).rows
    = (m.leftColumns position).rows := rfl
  have hwhole := (h.splitColumns m position).bind
    (fun parts => ops.augment parts.1 parts.2)
    (h.augment (m.leftColumns position) (m.rightColumns position))
  refine (hwhole.congr (and_iff_left hrows)).congr_value fun hposition => ?_
  rw [beside_leftColumns_rightColumns (Nat.le_of_lt hposition.2)]

/-- A product with blocks side by side, and the products with each block. -/
theorem Follows.product_augment (p a b : RatMatrix) :
    ComesTo
        (do ops.product (ops.keep p) (← ops.augment (ops.keep a) (ops.keep b)))
        (b.rows = a.rows ∧ p.cols = a.rows) (ops.keep (p.times (a.beside b)))
      ∧ ComesTo
        (do
          ops.augment (← ops.product (ops.keep p) (ops.keep a))
            (← ops.product (ops.keep p) (ops.keep b)))
        (b.rows = a.rows ∧ p.cols = a.rows)
        (ops.keep (p.times (a.beside b))) := by
  constructor
  · exact (h.augment a b).bind _ (h.product p (a.beside b))
  · have hrows : (p.times b).rows = (p.times a).rows := rfl
    have hblocks := (h.product p a).bind
      (fun pa => do ops.augment pa (← ops.product (ops.keep p) (ops.keep b)))
      ((h.product p b).bind _ (h.augment (p.times a) (p.times b)))
    -- both products fit exactly when the one with the blocks does
    have hfits : p.cols = a.rows ∧ p.cols = b.rows ∧ (p.times b).rows
        = (p.times a).rows ↔ b.rows = a.rows ∧ p.cols = a.rows := by
      omega
    refine (hblocks.congr hfits).congr_value fun hab => ?_
    rw [times_beside hab.1]

/-- A vector beside a matrix, as a vector and as a block of one column. -/
theorem Follows.augmentColumn_eq_augment (a : RatMatrix) (v : List Rat) :
    ComesTo (ops.augmentColumn (ops.keep a) v) (v.length = a.rows)
        (ops.keep (a.besideColumn v))
      ∧ ComesTo (ops.augment (ops.keep a) (ops.keep (columnMatrix v)))
        (v.length = a.rows) (ops.keep (a.besideColumn v)) :=
  ⟨h.augmentColumn a v, (h.augment a (columnMatrix v)).congr_value
    fun hv => by rw [beside_columnMatrix hv]⟩

theorem Follows.column_augmentColumn (a : RatMatrix) (v : List Rat) :
    ComesTo (do ops.column (← ops.augmentColumn (ops.keep a) v) a.cols)
      (v.length = a.rows) v := by
  have hlast : (a.besideColumn v).rows = 0
      ∨ a.cols < (a.besideColumn v).cols := .inr (Nat.lt_succ_self _)
  have hcolumn := (h.augmentColumn a v).bind (ops.column · a.cols)
    (h.column (a.besideColumn v) a.cols)
  exact (hcolumn.congr (and_iff_left hlast)).congr_value column_besideColumn

theorem Follows.column_replaceColumn {m : RatMatrix} {j : Nat} {v : List Rat}
    (hj : j < m.cols) (hv : v.length = m.rows) :
    ops.column (ops.keep (m.replaceColumn j v)) j = .ok v := by
  have hcolumn := (h.column (m.replaceColumn j v) j).eq_ok (.inr hj)
  rwa [RatMatrix.column_replaceColumn hj hv] at hcolumn

theorem Follows.get_replaceColumn_of_ne (m : RatMatrix) {j k : Nat}
    (hk : k ≠ j) (v : List Rat) (i : Nat) (value : Rat) :
    ops.get (ops.keep (m.replaceColumn j v)) i k = .ok value
      ↔ ops.get (ops.keep m) i k = .ok value := by
  have hget := h.get (m.replaceColumn j v) i k
  rw [entry_replaceColumn_of_ne hk] at hget
  exact (hget value).trans (h.get m i k value).symm

/-- **The laws hold** for all operations that follow the formulas. -/
theorem Follows.blockLaws : ops.BlockLaws where
  split_augment := h.split_augment
  augment_split := h.augment_split
  product_augment p a b := ⟨_, h.product_augment p a b⟩
  augmentColumn_eq_augment a v := ⟨_, h.augmentColumn_eq_augment a v⟩
  column_augmentColumn := h.column_augmentColumn
  withColumn m j v :=
    ⟨m.replaceColumn j v, h.withColumn m j v, rfl, rfl,
      h.column_replaceColumn,
      fun i _ hk => h.get_replaceColumn_of_ne m hk v i⟩

end Following

/-- **Blocks of any widths** are put side by side and taken apart as they
should, by the formulas and by the loops. -/
theorem blockLaws_formulas_loops : formulas.BlockLaws ∧ loops.BlockLaws :=
  ⟨follows_formulas.blockLaws, follows_loops.blockLaws⟩

end MatrixOperations

end Stepwise
