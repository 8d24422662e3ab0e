import Stepwise.Proofs.RatMatrix.Operations

/-!
# Minors

The cells of a minor are written one after the other, row by row, leaving out a
row and a column. Nothing records which cell came from where. That the cell in
row `r` comes from row `r`, or from the next one if `r` is not above the row
left out, is a fact about the loop, and it is the one on which the signs of an
expansion rest.

Two rows can be left out one after the other, in either order. The second one
has moved up when it was below the first, so the two orders remove rows under
different numbers (`closeUp`), and they leave the same rows because skipping two
indices comes to the same whichever is skipped first (`skip_skip`). The order of
the rows and that of the columns are independent of each other. Rows and columns
are treated alike, so the transpose of a minor is the minor of the transpose
with the two indices exchanged (`transpose_minor`).

These are the `MinorLaws`, each with the condition under which there is a minor
at all. They hold for the formula and for the loop, `minorLaws_formulas_loops`.
-/

namespace Stepwise

open RatMatrix

namespace RatMatrix

variable {m : RatMatrix}

/-! ## Indices -/

/-- **The index that `k` has without `removed`**: what comes later closes up. -/
def closeUp (removed k : Nat) : Nat :=
  if removed < k then k - 1 else k

theorem closeUp_of_lt {removed k : Nat} (h : removed < k) :
    closeUp removed k = k - 1 :=
  if_pos h

theorem closeUp_of_gt {removed k : Nat} (h : k < removed) :
    closeUp removed k = k :=
  if_neg (Nat.lt_asymm h)

/-- Another index is in range after closing up when it was in range before. -/
theorem closeUp_lt_iff {n removed k : Nat} (hremoved : removed < n)
    (hk : removed ≠ k) : closeUp removed k < n - 1 ↔ k < n := by
  unfold closeUp
  split <;> omega

theorem skip_lt {n k : Nat} (hk : k < n - 1) (removed : Nat) :
    skip removed k < n := by
  unfold skip
  split <;> omega

theorem skip_of_lt {removed k : Nat} (h : k < removed) : skip removed k = k :=
  if_pos h

theorem skip_of_le {removed k : Nat} (h : removed ≤ k) :
    skip removed k = k + 1 :=
  if_neg (Nat.not_lt.mpr h)

/-- From the place of the index that is left out on, it is the next one. -/
theorem skip_eq_ite (removed k : Nat) :
    skip removed k = if removed ≤ k then k + 1 else k := by
  split
  · exact skip_of_le ‹_›
  · exact skip_of_lt (Nat.not_le.mp ‹_›)

/-- Two gaps, and the later one made first, under the number it has while the
other one is still closed. -/
theorem skip_skip_of_lt {i i' : Nat} (h : i < i') (k : Nat) :
    skip i (skip (i' - 1) k) = skip i' (skip i k) := by
  rcases Nat.lt_or_ge k i with hk | hk
  · -- before both gaps
    rw [skip_of_lt (Nat.lt_of_lt_of_le hk (Nat.le_sub_one_of_lt h)),
      skip_of_lt hk, skip_of_lt (hk.trans h)]
  rcases Nat.lt_or_ge k (i' - 1) with hk' | hk'
  · -- between the gaps
    rw [skip_of_lt hk', skip_of_le hk, skip_of_lt (Nat.add_lt_of_lt_sub hk')]
  · -- after both gaps
    have hle : i' ≤ k + 1 := Nat.le_add_of_sub_le hk'
    rw [skip_of_le hk', skip_of_le (Nat.le_succ_of_le hk), skip_of_le hk,
      skip_of_le hle]

/-- **Skipping two indices** comes to the same in either order. -/
theorem skip_skip {i i' : Nat} (h : i ≠ i') (k : Nat) :
    skip i (skip (closeUp i i') k) = skip i' (skip (closeUp i' i) k) := by
  rcases Nat.lt_or_gt_of_ne h with hlt | hgt
  · rw [closeUp_of_lt hlt, closeUp_of_gt hlt, skip_skip_of_lt hlt]
  · rw [closeUp_of_gt hgt, closeUp_of_lt hgt, skip_skip_of_lt hgt]

/-! ## Cells -/

@[simp] theorem rows_minor (m : RatMatrix) (i j : Nat) :
    (m.minor i j).rows = m.rows - 1 := rfl

@[simp] theorem cols_minor (m : RatMatrix) (i j : Nat) :
    (m.minor i j).cols = m.cols - 1 := rfl

/-- **A cell of a minor** is the cell of the matrix with both indices
skipped. -/
theorem entry_minor {r c : Nat} (hr : r < m.rows - 1) (hc : c < m.cols - 1)
    (i j : Nat) :
    (m.minor i j).entry r c = m.entry (skip i r) (skip j c) :=
  entry_ofFn_of_lt _ hr hc

/-- **The transpose of a minor** is a minor of the transpose. -/
theorem transpose_minor (m : RatMatrix) (i j : Nat) :
    (m.minor i j).transpose = m.transpose.minor j i := by
  refine ext_entry rfl rfl fun c r hc hr => ?_
  have hc' : c < m.cols - 1 := hc
  have hr' : r < m.rows - 1 := hr
  rw [entry_transpose, entry_minor hr' hc', entry_minor hc' hr',
    entry_transpose]

/-- A cell of a minor of a minor: what was removed last is skipped first. -/
theorem entry_minor_minor {r c : Nat} (hr : r < m.rows - 1 - 1)
    (hc : c < m.cols - 1 - 1) (i j p q : Nat) :
    ((m.minor i j).minor p q).entry r c
      = m.entry (skip i (skip p r)) (skip j (skip q c)) := by
  rw [entry_minor (m := m.minor i j) hr hc,
    entry_minor (skip_lt hr p) (skip_lt hc q)]

/-- What is left after removing two rows and two columns depends on the indices
that are skipped. -/
theorem minor_minor_congr (m : RatMatrix) {i p i' p' j q j' q' : Nat}
    (hr : ∀ k, skip i (skip p k) = skip i' (skip p' k))
    (hc : ∀ k, skip j (skip q k) = skip j' (skip q' k)) :
    (m.minor i j).minor p q = (m.minor i' j').minor p' q' := by
  refine ext_entry rfl rfl fun r c hrow hcol => ?_
  have hrow' : r < m.rows - 1 - 1 := hrow
  have hcol' : c < m.cols - 1 - 1 := hcol
  rw [entry_minor_minor hrow' hcol', entry_minor_minor hrow' hcol', hr, hc]

end RatMatrix

namespace MatrixOperations

variable {σ : Type}

/-- **The operations, with minors among them.** -/
structure WithMinors (σ : Type) extends MatrixOperations σ where
  minor : σ → Nat → Nat → Except FlatFailure σ

namespace WithMinors

/-- A minor by its formula. -/
def formulas : WithMinors RatMatrix where
  toMatrixOperations := .formulas
  minor m i j := within (m.minor? i j)

/-- A minor by the loop that leaves out a row and a column. -/
def loops : WithMinors FlatMatrix where
  toMatrixOperations := .loops
  minor m i j := m.minor i j

/-- Operations that follow the formulas, that of the minor among them. -/
structure Follows (ops : WithMinors σ) : Prop
    extends ops.toMatrixOperations.Follows where
  minor (m : RatMatrix) (i j : Nat) :
    ComesTo (ops.minor (ops.keep m) i j)
      (2 ≤ m.rows ∧ 2 ≤ m.cols ∧ i < m.rows ∧ j < m.cols)
      (ops.keep (m.minor i j))

theorem minor_flat_eq_within (m : RatMatrix) (i j : Nat) :
    m.flat.minor i j = (within (m.minor? i j)).map flat := by
  rw [minor_flat]
  cases m.minor? i j <;> rfl

theorem follows_formulas : formulas.Follows where
  toFollows := MatrixOperations.follows_formulas
  minor _ _ _ := comesTo_within_ite

theorem follows_loops : loops.Follows where
  toFollows := MatrixOperations.follows_loops
  minor m i j :=
    ((follows_formulas.minor m i j).map flat).of_eq
      (minor_flat_eq_within m i j)

/-- **Removing two rows and two columns**: first row `i` and column `j`, then
row `i'` and column `j'` by the indices they have by then. The matrix must have
them, and others besides. -/
def RemovesTwo (ops : WithMinors σ) (m : RatMatrix) (i i' j j' : Nat)
    (rest : σ) : Prop :=
  ComesTo
    (do
      ops.minor (← ops.minor (ops.keep m) i j) (closeUp i i') (closeUp j j'))
    (3 ≤ m.rows ∧ 3 ≤ m.cols ∧ (i < m.rows ∧ i' < m.rows)
      ∧ j < m.cols ∧ j' < m.cols) rest

/-- **The laws of minors** of matrices that are kept in one way. -/
structure MinorLaws (ops : WithMinors σ) : Prop where
  /-- What is kept of a matrix are its entries. -/
  get (m : RatMatrix) (i j : Nat) :
    ComesTo (ops.get (ops.keep m) i j) (i < m.rows ∧ j < m.cols) (m.entry i j)
  /-- There is one row and one column less, and each cell comes from where it
  was, or from the next row or column. -/
  minor (m : RatMatrix) (i j : Nat) :
    ∃ minor : RatMatrix,
      ComesTo (ops.minor (ops.keep m) i j)
        (2 ≤ m.rows ∧ 2 ≤ m.cols ∧ i < m.rows ∧ j < m.cols) (ops.keep minor)
      ∧ minor.rows = m.rows - 1 ∧ minor.cols = m.cols - 1
      ∧ ∀ r c, r < m.rows - 1 → c < m.cols - 1 →
        minor.entry r c
          = m.entry (if i ≤ r then r + 1 else r) (if j ≤ c then c + 1 else c)
  transpose_minor (m : RatMatrix) (i j : Nat) :
    ∃ transposed,
      ComesTo (do ops.transpose (← ops.minor (ops.keep m) i j))
        (2 ≤ m.rows ∧ 2 ≤ m.cols ∧ i < m.rows ∧ j < m.cols) transposed
      ∧ ComesTo (do ops.minor (← ops.transpose (ops.keep m)) j i)
        (2 ≤ m.rows ∧ 2 ≤ m.cols ∧ i < m.rows ∧ j < m.cols) transposed
  /-- Two rows and two columns, each pair in either order. -/
  minor_minor (m : RatMatrix) {i i' j j' : Nat} (hi : i ≠ i') (hj : j ≠ j') :
    ∃ rest, ops.RemovesTwo m i i' j j' rest ∧ ops.RemovesTwo m i' i j' j rest
      ∧ ops.RemovesTwo m i i' j' j rest ∧ ops.RemovesTwo m i' i j j' rest

section Following

variable {ops : WithMinors σ} (h : ops.Follows)

include h

theorem Follows.transpose_minor (m : RatMatrix) (i j : Nat) :
    ComesTo (do ops.transpose (← ops.minor (ops.keep m) i j))
        (2 ≤ m.rows ∧ 2 ≤ m.cols ∧ i < m.rows ∧ j < m.cols)
        (ops.keep (m.minor i j).transpose)
      ∧ ComesTo (do ops.minor (← ops.transpose (ops.keep m)) j i)
        (2 ≤ m.rows ∧ 2 ≤ m.cols ∧ i < m.rows ∧ j < m.cols)
        (ops.keep (m.minor i j).transpose) := by
  constructor
  · have hboth := (h.minor m i j).bind _
      (.of_eq_ok (h.transpose (m.minor i j)))
    exact hboth.congr (iff_of_eq (and_true _))
  · have hfits : 2 ≤ m.cols ∧ 2 ≤ m.rows ∧ j < m.cols ∧ i < m.rows
        ↔ 2 ≤ m.rows ∧ 2 ≤ m.cols ∧ i < m.rows ∧ j < m.cols := by
      rw [and_left_comm, and_comm (a := j < m.cols)]
    rw [h.transpose m, RatMatrix.transpose_minor]
    exact (h.minor m.transpose j i).congr hfits

theorem Follows.removesTwo (m : RatMatrix) {i i' j j' : Nat} (hi : i ≠ i')
    (hj : j ≠ j') :
    ops.RemovesTwo m i i' j j'
      (ops.keep ((m.minor i j).minor (closeUp i i') (closeUp j j'))) := by
  refine ((h.minor m i j).bind _ (h.minor (m.minor i j) _ _)).congr ?_
  rw [rows_minor, cols_minor]
  constructor
  · rintro ⟨⟨-, -, hr, hc⟩, hrows, hcols, hr', hc'⟩
    exact ⟨by omega, by omega, ⟨hr, (closeUp_lt_iff hr hi).mp hr'⟩, hc,
      (closeUp_lt_iff hc hj).mp hc'⟩
  · rintro ⟨hrows, hcols, ⟨hr, hr'⟩, hc, hc'⟩
    exact ⟨⟨by omega, by omega, hr, hc⟩, by omega, by omega,
      (closeUp_lt_iff hr hi).mpr hr', (closeUp_lt_iff hc hj).mpr hc'⟩

/-- **The order makes no difference**, neither that of the rows nor that of the
columns. -/
theorem Follows.minor_minor (m : RatMatrix) {i i' j j' : Nat} (hi : i ≠ i')
    (hj : j ≠ j') :
    ∃ rest, ops.RemovesTwo m i i' j j' rest ∧ ops.RemovesTwo m i' i j' j rest
      ∧ ops.RemovesTwo m i i' j' j rest
      ∧ ops.RemovesTwo m i' i j j' rest := by
  refine ⟨_, h.removesTwo m hi hj, ?_, ?_, ?_⟩
  · rw [minor_minor_congr m (skip_skip hi) (skip_skip hj)]
    exact h.removesTwo m hi.symm hj.symm
  · rw [minor_minor_congr m (fun _ => rfl) (skip_skip hj)]
    exact h.removesTwo m hi hj.symm
  · rw [minor_minor_congr m (skip_skip hi) (fun _ => rfl)]
    exact h.removesTwo m hi.symm hj

/-- **The laws hold** for all operations that follow the formulas. -/
theorem Follows.minorLaws : ops.MinorLaws where
  get := h.get
  minor m i j :=
    ⟨m.minor i j, h.minor m i j, rfl, rfl, fun r c hr hc => by
      rw [entry_minor hr hc, skip_eq_ite, skip_eq_ite]⟩
  transpose_minor m i j := ⟨_, h.transpose_minor m i j⟩
  minor_minor m _ _ _ _ hi hj := h.minor_minor m hi hj

end Following

/-- **Minors of matrices of any sizes** have the cells they should, by the
formula and by the loop, and removing rows and columns does not depend on the
order. -/
theorem minorLaws_formulas_loops : formulas.MinorLaws ∧ loops.MinorLaws :=
  ⟨follows_formulas.minorLaws, follows_loops.minorLaws⟩

/-- The last row and the first column are removed after the first row and the
middle column, or before them. -/
example :
    let m : FlatMatrix := ⟨3, 3, [1, 2, 3, 4, 5, 6, 7, 8, 9]⟩
    (do (← m.minor 0 1).minor 1 0) = .ok ⟨1, 1, [6]⟩
      ∧ (do (← m.minor 2 0).minor 0 0) = .ok ⟨1, 1, [6]⟩ :=
  ⟨rfl, rfl⟩

end WithMinors

end MatrixOperations

end Stepwise
