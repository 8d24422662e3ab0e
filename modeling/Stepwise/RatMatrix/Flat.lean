import Stepwise.RatMatrix.Edit
import Stepwise.RatMatrix.Text

/-!
# Matrices cell by cell

A matrix is kept as two sizes and one list of cells, row by row. In a
`FlatMatrix` nothing says that the list is as long as the sizes ask for. A cell
is looked for at its place, `i * cols + j`, a row between the places where it
starts and ends, and where there is no cell the operation stops. The operations
of `RatMatrix`, which are given there by formulas, are given here by how they go
about it: which cells they read, in which order, and which ones they write.
An index that is checked first has its place among the cells. One that is taken
unchecked has it computed in words, `RatMatrix.wordPlace`, and may be given the
place of another cell.
-/

namespace Stepwise

/-- **A matrix as it is kept**: its sizes and its cells row by row. -/
structure FlatMatrix where
  rows : Nat
  cols : Nat
  cells : List Rat
  deriving DecidableEq

/-- Why an operation gives no matrix. -/
inductive FlatFailure where
  | refused (error : LinearError)
  /-- An index is outside the matrix or the list of its cells. -/
  | outside
  deriving DecidableEq

/-- The matrix as it is kept. -/
def RatMatrix.flat (m : RatMatrix) : FlatMatrix :=
  ⟨m.rows, m.cols, m.cells.toList⟩

/-- The outcome of an edit, with the matrix as it is kept. -/
def Edited.flat : Edited → Except FlatMatrix FlatMatrix
  | .ok m => .ok m.flat
  | .error m => .error m.flat

namespace FlatMatrix

open RatMatrix (wordPlace)

/-- Pairs of a row and a column, row by row. -/
def places (rows cols : List Nat) : List (Nat × Nat) :=
  rows.flatMap fun i => cols.map fun j => (i, j)

/-- The cell in row `i` and column `j`. -/
def get (m : FlatMatrix) (i j : Nat) : Except FlatFailure Rat :=
  if i < m.rows ∧ j < m.cols then
    match m.cells[i * m.cols + j]? with
    | some value => .ok value
    | none => .error .outside
  else .error .outside

/-- The cells from one place up to another. -/
def slice (m : FlatMatrix) (start stop : Nat) :
    Except FlatFailure (List Rat) :=
  if start ≤ stop ∧ stop ≤ m.cells.length then
    .ok ((m.cells.drop start).take (stop - start))
  else .error .outside

/-- The cells from where row `i` starts to where the next one does. -/
def row (m : FlatMatrix) (i : Nat) : Except FlatFailure (List Rat) :=
  m.slice (wordPlace m.rows m.cols i 0) (wordPlace m.rows m.cols (i + 1) 0)

/-- The cells of column `j`, from the top. -/
def column (m : FlatMatrix) (j : Nat) : Except FlatFailure (List Rat) :=
  (List.range m.rows).mapM fun i => m.get i j

/-- Writes the cell in row `i` and column `j`. -/
def set (m : FlatMatrix) (i j : Nat) (value : Rat) :
    Except FlatFailure FlatMatrix :=
  if i < m.rows ∧ j < m.cols ∧ i * m.cols + j < m.cells.length then
    .ok { m with cells := m.cells.set (i * m.cols + j) value }
  else .error .outside

/-! ## Building -/

/-- The rows, which must be non-empty and of one length, one after the
other. -/
def ofRows (rows : List (List Rat)) : Except FlatFailure FlatMatrix :=
  match rows with
  | [] => .error (.refused (.shape .noRows))
  | first :: _ =>
    let cols := first.length
    if cols = 0 then .error (.refused (.shape .noColumns))
    else match rows.findIdx? fun row => row.length ≠ cols with
      | some index =>
        .error (.refused
          (.shape (.raggedRow index (rows.getD index []).length cols)))
      | none => .ok ⟨rows.length, cols, rows.flatten⟩

def ofIntegers (rows : List (List Int)) : Except FlatFailure FlatMatrix :=
  ofRows (rows.map fun row => row.map Rat.ofInt)

/-- Reads all cells, then puts the rows one after the other. -/
def parse (grid : List (List String)) : Except FlatFailure FlatMatrix :=
  (grid.mapM parseVector).mapError .refused >>= ofRows

def zeros (rows cols : Nat) : FlatMatrix :=
  ⟨rows, cols, List.replicate (rows * cols) 0⟩

/-- Ones written on the diagonal of a matrix of zeros. -/
def identity (n : Nat) : Except FlatFailure FlatMatrix :=
  (List.range n).foldlM (fun out i => out.set i i 1) (zeros n n)

/-! ## Algebra -/

/-- Each cell, row by row, written where row and column are exchanged. -/
def transpose (m : FlatMatrix) : Except FlatFailure FlatMatrix :=
  (places (List.range m.rows) (List.range m.cols)).foldlM
    (fun out (i, j) => do out.set j i (← m.get i j)) (zeros m.cols m.rows)

def scale (m : FlatMatrix) (factor : Rat) : FlatMatrix :=
  { m with cells := m.cells.map fun value => value * factor }

/-- Row `i` of `a` against column `j` of `b`. -/
def dot (a b : FlatMatrix) (i j : Nat) : Except FlatFailure Rat :=
  (List.range a.cols).foldlM
    (fun sum k => do return sum + (← a.get i k) * (← b.get k j)) 0

def product (a b : FlatMatrix) : Except FlatFailure FlatMatrix :=
  if a.cols = b.rows then
    (places (List.range a.rows) (List.range b.cols)).foldlM
      (fun out (i, j) => do out.set i j (← a.dot b i j))
      (zeros a.rows b.cols)
  else .error (.refused (.shape (.product a.rows a.cols b.rows b.cols)))

/-- The running sum of each row against the vector, entry by entry. -/
def mulVector (m : FlatMatrix) (v : List Rat) :
    Except FlatFailure (List Rat) :=
  if v.length = m.cols then
    (List.range m.rows).mapM fun i => do
      return ((← m.row i).zip v).foldl (fun sum (a, b) => sum + a * b) 0
  else .error (.refused (.shape (.vector v.length m.cols)))

/-- The rows of `a`, each with the row of `b` after it. -/
def augment (a b : FlatMatrix) : Except FlatFailure FlatMatrix :=
  if b.rows = a.rows then do
    let rows ← (List.range a.rows).mapM fun i => do
      return (← a.row i) ++ (← b.row i)
    return ⟨a.rows, a.cols + b.cols, rows.flatten⟩
  else .error (.refused (.shape (.augment a.rows b.rows)))

/-- The rows, each with its entry of the vector after it. -/
def augmentColumn (a : FlatMatrix) (b : List Rat) :
    Except FlatFailure FlatMatrix :=
  if b.length = a.rows then do
    let rows ← b.zipIdx.mapM fun (value, i) => do
      return (← a.row i) ++ [value]
    return ⟨a.rows, a.cols + 1, rows.flatten⟩
  else .error (.refused (.shape (.rightHandSide b.length a.rows)))

/-- The first cells of each row, and the others. -/
def splitColumns (m : FlatMatrix) (position : Nat) :
    Except FlatFailure (FlatMatrix × FlatMatrix) :=
  if position = 0 ∨ m.cols ≤ position then
    .error (.refused (.shape (.split m.cols position)))
  else do
    let rows ← (List.range m.rows).mapM m.row
    return (⟨m.rows, position, rows.flatMap (List.take position)⟩,
      ⟨m.rows, m.cols - position, rows.flatMap (List.drop position)⟩)

/-- The entries of the vector written into a column, from the top. -/
def withColumn (m : FlatMatrix) (j : Nat) (values : List Rat) :
    Except FlatFailure FlatMatrix :=
  if m.cols ≤ j ∨ values.length ≠ m.rows then
    .error (.refused
      (.shape (.replacedColumn j m.rows m.cols values.length)))
  else values.zipIdx.foldlM (fun out (value, i) => out.set i j value) m

/-- The cells of the other rows and columns, row by row. -/
def minor (m : FlatMatrix) (i j : Nat) : Except FlatFailure FlatMatrix :=
  if 2 ≤ m.rows ∧ 2 ≤ m.cols ∧ i < m.rows ∧ j < m.cols then do
    let cells ← (places ((List.range m.rows).filter (· ≠ i))
      ((List.range m.cols).filter (· ≠ j))).mapM fun (r, c) => m.get r c
    return ⟨m.rows - 1, m.cols - 1, cells⟩
  else .error .outside

/-! ## Edits of rows

As for `RatMatrix`, an edit that stops leaves the matrix as it is by then. -/

/-- Exchanges the cells at two places. -/
def swapPlaces (m : FlatMatrix) (p q : Nat) : Except FlatMatrix FlatMatrix :=
  match m.cells[p]?, m.cells[q]? with
  | some atP, some atQ =>
    .ok { m with cells := (m.cells.set p atQ).set q atP }
  | _, _ => .error m

def swapRows (m : FlatMatrix) (a b : Nat) : Except FlatMatrix FlatMatrix :=
  if a = b then .ok m
  else (List.range m.cols).foldlM
    (fun out j => out.swapPlaces (wordPlace m.rows m.cols a j)
      (wordPlace m.rows m.cols b j)) m

/-- Multiplies the cells from one place up to another. -/
def scaleSlice (m : FlatMatrix) (start stop : Nat) (factor : Rat) :
    Except FlatMatrix FlatMatrix :=
  if start ≤ stop ∧ stop ≤ m.cells.length then
    .ok { m with
      cells := m.cells.mapIdx fun place value =>
        if start ≤ place ∧ place < stop then value * factor else value }
  else .error m

def scaleRow (m : FlatMatrix) (i : Nat) (factor : Rat) :
    Except FlatMatrix FlatMatrix :=
  m.scaleSlice (wordPlace m.rows m.cols i 0)
    (wordPlace m.rows m.cols (i + 1) 0) factor

/-- Reads a cell of the source and one of the target, and writes the target. -/
def subtractCell (m : FlatMatrix) (target source : Nat) (factor : Rat)
    (j : Nat) : Except FlatMatrix FlatMatrix :=
  match m.get source j, m.get target j with
  | .ok subtrahend, .ok value =>
    (m.set target j (value - subtrahend * factor)).mapError fun _ => m
  | _, _ => .error m

def subtractScaledRow (m : FlatMatrix) (target source : Nat)
    (factor : Rat) : Except FlatMatrix FlatMatrix :=
  (List.range m.cols).foldlM
    (fun out j => out.subtractCell target source factor j) m

end FlatMatrix

end Stepwise
