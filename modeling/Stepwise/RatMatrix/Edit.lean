import Stepwise.RatMatrix.RowOp

/-!
# Edits in place

An edit changes a matrix cell by cell, and it stops at the first cell that
lies outside. What it has written by then stays written, so the outcome of an
edit is a matrix in any case: the finished one, or the one at which the edit
stopped.
-/

namespace Stepwise

/-- The outcome of an edit. An error holds the matrix as it was when the edit
met a cell outside. -/
abbrev Edited := Except RatMatrix RatMatrix

namespace RatMatrix

/-- The cell in row `i` and column `j` replaced. -/
def set (m : RatMatrix) (i j : Nat) (value : Rat) : RatMatrix :=
  ofFn m.rows m.cols fun r c => if r = i ∧ c = j then value else m.entry r c

/-- Writes one cell. -/
def setCell (m : RatMatrix) (i j : Nat) (value : Rat) : Edited :=
  if i < m.rows ∧ j < m.cols then .ok (m.set i j value) else .error m

/-- Exchanges the cells at two places. -/
def swapPlaces (m : RatMatrix) (p q : Nat) : Edited :=
  match m.cells[p]?, m.cells[q]? with
  | some atP, some atQ =>
    .ok { m with
      cells := (m.cells.setIfInBounds p atQ).setIfInBounds q atP
      size_cells := by
        rw [Array.size_setIfInBounds, Array.size_setIfInBounds, m.size_cells] }
  | _, _ => .error m

/-- **Exchanges two rows**, one column after the other. A row is never
exchanged with itself. The indices are not checked: what stops the edit is a
place without a cell. -/
def swapRowsInPlace (m : RatMatrix) (a b : Nat) : Edited :=
  if a = b then .ok m
  else (List.range m.cols).foldlM
    (fun out j => out.swapPlaces (wordPlace m.rows m.cols a j)
      (wordPlace m.rows m.cols b j)) m

/-- Multiplies the cells from one place up to another, which must lie in the
array. -/
def scaleSlice (m : RatMatrix) (start stop : Nat) (factor : Rat) : Edited :=
  if start ≤ stop ∧ stop ≤ m.cells.size then
    .ok { m with
      cells := m.cells.mapIdx fun place value =>
        if start ≤ place ∧ place < stop then value * factor else value
      size_cells := Array.size_mapIdx.trans m.size_cells }
  else .error m

/-- **Multiplies a row**, all cells from where it starts to where the next row
does. The index is not checked. -/
def scaleRowInPlace (m : RatMatrix) (i : Nat) (factor : Rat) : Edited :=
  m.scaleSlice (wordPlace m.rows m.cols i 0)
    (wordPlace m.rows m.cols (i + 1) 0) factor

/-- Subtracts from one cell of row `target` the multiple of the cell in row
`source`. Both indices are checked. -/
def subtractCell (m : RatMatrix) (target source : Nat) (factor : Rat)
    (j : Nat) : Edited :=
  match m.get? source j, m.get? target j with
  | some subtrahend, some value =>
    m.setCell target j (value - subtrahend * factor)
  | _, _ => .error m

/-- **Subtracts a multiple of a row** from another, one column after the
other. -/
def subtractScaledRowInPlace (m : RatMatrix) (target source : Nat)
    (factor : Rat) : Edited :=
  (List.range m.cols).foldlM
    (fun m j => m.subtractCell target source factor j) m

end RatMatrix

end Stepwise
