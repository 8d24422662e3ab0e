import Stepwise.RatMatrix.RowOp
import Stepwise.Trace
import Stepwise.Event

/-!
# Gauss-Jordan elimination

Elimination sweeps over the columns from left to right. In each column the
first non-zero entry at or below the next pivot row is brought up, its row is
divided by it, and every other row is cleared; a column without such an entry
gets no pivot. A sweep is a value of `Elimination`: the matrix as it is now,
the pivot columns found so far, and the moves made, each with the matrix it was
made on. The trace and the events are read off from the moves.
-/

namespace Stepwise

/-- A move of the elimination, in the column in which it was made. -/
inductive Move where
  /-- No entry of the column from row `row` down is different from zero. -/
  | skip (column row : Nat)
  /-- A row operation, made on the matrix `before`. -/
  | operate (column : Nat) (op : RowOp) (before : RatMatrix)
  deriving DecidableEq

/-- **The state of an elimination.** -/
structure Elimination where
  /-- The matrix as it is now. -/
  current : RatMatrix
  /-- The pivot columns found so far; the `i`-th one is the pivot of row
  `i`. -/
  pivots : List Nat
  /-- The moves made so far, in order. -/
  moves : List Move

namespace Elimination

/-- Before the first column. -/
def start (m : RatMatrix) : Elimination :=
  { current := m, pivots := [], moves := [] }

/-- The state after a row operation in a column. -/
def operate (s : Elimination) (column : Nat) (op : RowOp) : Elimination :=
  { s with
    current := op.apply s.current
    moves := s.moves ++ [.operate column op s.current] }

/-- The first row from `top` on with a non-zero entry in the column. -/
def findPivot? (m : RatMatrix) (top column : Nat) : Option Nat :=
  (List.range m.rows).find? fun i => decide (top ≤ i ∧ m.entry i column ≠ 0)

/-- Brings row `found` up to row `top`. -/
def bringUp (top column found : Nat) (s : Elimination) : Elimination :=
  if found = top then s else s.operate column (.swap top found)

/-- Divides row `top` by its entry in the column. -/
def normalize (top column : Nat) (s : Elimination) : Elimination :=
  let pivot := s.current.entry top column
  if pivot = 1 then s else s.operate column (.divide top pivot)

/-- Clears the entry of row `i` in the column with the help of row `top`. -/
def clearRow (top column : Nat) (s : Elimination) (i : Nat) : Elimination :=
  let factor := s.current.entry i column
  if i = top ∨ factor = 0 then s
  else s.operate column (.subtract i top factor)

/-- Clears the column in every row but `top`. -/
def clearColumn (top column : Nat) (s : Elimination) : Elimination :=
  (List.range s.current.rows).foldl (clearRow top column) s

/-- **One column of the sweep.** Nothing is left to do once every row has its
pivot. -/
def sweepColumn (s : Elimination) (column : Nat) : Elimination :=
  let top := s.pivots.length
  if s.current.rows ≤ top then s
  else match findPivot? s.current top column with
    | none => { s with moves := s.moves ++ [.skip column top] }
    | some found =>
      let cleared :=
        clearColumn top column
          (normalize top column (bringUp top column found s))
      { cleared with pivots := cleared.pivots ++ [column] }

/-- The sweep over the first `limit` columns. -/
def sweep (m : RatMatrix) (limit : Nat) : Elimination :=
  (List.range limit).foldl sweepColumn (start m)

end Elimination

/-! ## The account of the moves -/

namespace Move

/-- The step of a trace that shows the move. -/
def toStep : Move → Step
  | .skip column row =>
    (Step.note s!"Column {column + 1} has no pivot").because
      s!"Every entry of column {column + 1} from row {row + 1} down is 0, so x{column + 1} is free"
  | .operate column op before =>
    let after := op.apply before
    let rationale :=
      match op with
      | .swap _ found =>
        s!"Row {found + 1} holds the first non-zero entry of column {column + 1}"
      | .divide _ _ => s!"Make the pivot in column {column + 1} equal to 1"
      | .subtract target source factor =>
        let scaled := (before.row source).map fun entry => entry * factor
        let text := Fraction.formatVector
        s!"scaled pivot row: {Fraction.formatOperand factor}R{source + 1} = {text scaled}\n"
          ++ s!"original row:     R{target + 1} = {text (before.row target)}\n"
          ++ s!"result row:       R{target + 1} = {text (after.row target)}"
    (Step.matrix op.label after).because rationale

/-- The event that reports the move, if one does. -/
def event? : Move → Option Event
  | .skip column _ => some (.trace s!"column {column + 1} has no pivot")
  | .operate _ (.subtract target source factor) _ =>
    some (.trace (RowOp.subtract target source factor).label)
  | .operate _ _ _ => none

end Move

/-- **A reduction**: the reduced matrix, its pivot columns in increasing
order, and the account. -/
structure Reduction where
  rref : RatMatrix
  /-- Entry `i` is the pivot column of row `i`. -/
  pivots : List Nat
  trace : Trace
  deriving DecidableEq

namespace Reduction

/-- The number of pivots. -/
def rank (r : Reduction) : Nat :=
  r.pivots.length

/-- The columns among the first `columns` that have no pivot. -/
def freeColumns (r : Reduction) (columns : Nat) : List Nat :=
  (List.range columns).filter fun c => !r.pivots.contains c

end Reduction

namespace RatMatrix

/-- The elimination behind `reduceColumns`. -/
def eliminate (m : RatMatrix) (limit : Nat) : Elimination :=
  Elimination.sweep m (min limit m.cols)

/-- What the closing step says about the pivots. -/
def pivotSummary (pivots : List Nat) : String :=
  let places :=
    if pivots.isEmpty then ""
    else
      let columns := String.intercalate ", "
        (pivots.map fun c => toString (c + 1))
      s!" in column(s) {columns}"
  s!"{pivots.length} pivot(s){places}"

/-- **The reduced row-echelon form** over the first `limit` columns. The other
columns are carried along. -/
def reduceColumns (m : RatMatrix) (limit : Nat) : Reduction :=
  let swept := m.eliminate limit
  { rref := swept.current
    pivots := swept.pivots
    trace :=
      Step.matrix "Initial matrix" m
      :: swept.moves.map Move.toStep
      ++ [(Step.matrix "Reduced row-echelon form" swept.current).because
        (pivotSummary swept.pivots)] }

/-- **The reduction of an augmented system** `[A | b]`: every column but the
last may hold a pivot. -/
def reduce (system : RatMatrix) : Reduction :=
  system.reduceColumns (system.cols - 1)

/-- What is reported during a reduction. -/
def reduceColumnsEvents (m : RatMatrix) (limit : Nat) : List Event :=
  let swept := m.eliminate limit
  let columns := String.intercalate ", " (swept.pivots.map toString)
  .debug
    s!"Gauss-Jordan on a {m.rows}x{m.cols} matrix, pivoting in {min limit m.cols} columns"
    :: swept.moves.filterMap Move.event?
    ++ [.debug
      s!"reduction finished with rank {swept.pivots.length} (pivots in columns [{columns}])"]

/-! ## Reduced matrices -/

/-- The first column among the first `limit` in which row `i` is not zero. -/
def leadingColumn? (m : RatMatrix) (limit i : Nat) : Option Nat :=
  (List.range limit).find? fun j => decide (m.entry i j ≠ 0)

/-- The columns of the leading ones, searched among the first `columns`. -/
def pivotColumnsOf (m : RatMatrix) (columns : Nat) : List Nat :=
  (List.range m.rows).filterMap fun i =>
    (m.leadingColumn? (min columns m.cols) i).filter fun j =>
      decide (m.entry i j = 1)

/-- Whether rows `i`, `i + 1`, … of a matrix are as the reduced row-echelon
form requires, where `last` is the leading column of the row above and
`zeroSeen` says that a zero row stands above. -/
def isReducedFrom (m : RatMatrix) (limit : Nat) :
    List Nat → Option Nat → Bool → Bool
  | [], _, _ => true
  | i :: rest, last, zeroSeen =>
    match m.leadingColumn? limit i with
    | none => isReducedFrom m limit rest last true
    | some j =>
      !zeroSeen && decide (∀ p ∈ last, p < j) && decide (m.entry i j = 1)
        && ((List.range m.rows).all fun r =>
          decide (r ≠ i → m.entry r j = 0))
        && isReducedFrom m limit rest (some j) zeroSeen

/-- **Whether a matrix is in reduced row-echelon form** over its first
`columns` columns. -/
def isRref (m : RatMatrix) (columns : Nat) : Bool :=
  m.isReducedFrom (min columns m.cols) (List.range m.rows) none false

/-- A row in words: `R1: [1, 0, 3/2]`. -/
def describeRow (m : RatMatrix) (i : Nat) : String :=
  s!"R{i + 1}: {Fraction.formatVector (m.row i)}"

end RatMatrix

end Stepwise
