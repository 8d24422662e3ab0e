import Stepwise.RatMatrix.Basic

/-!
# Elementary row operations

The three moves of elimination, as functions of a matrix and as values: a
`RowOp` is a move that can be named, applied and undone. Rows are counted
from zero here and from one in names.
-/

namespace Stepwise

namespace RatMatrix

/-- Rows `a` and `b` exchanged. -/
def swapRows (m : RatMatrix) (a b : Nat) : RatMatrix :=
  ofFn m.rows m.cols fun i j =>
    m.entry (if i = a then b else if i = b then a else i) j

/-- Row `i` multiplied by `factor`. -/
def scaleRow (m : RatMatrix) (i : Nat) (factor : Rat) : RatMatrix :=
  ofFn m.rows m.cols fun r j =>
    if r = i then m.entry r j * factor else m.entry r j

/-- Row `target` less `factor` times row `source`. -/
def subtractScaledRow (m : RatMatrix) (target source : Nat) (factor : Rat) :
    RatMatrix :=
  ofFn m.rows m.cols fun i j =>
    if i = target then m.entry i j - m.entry source j * factor
    else m.entry i j

end RatMatrix

/-- **An elementary row operation.** -/
inductive RowOp where
  | swap (a b : Nat)
  /-- Row `i` divided by `divisor`. -/
  | divide (i : Nat) (divisor : Rat)
  | subtract (target source : Nat) (factor : Rat)
  deriving DecidableEq

/-- The matrix after the operation. -/
def RowOp.apply : RowOp → RatMatrix → RatMatrix
  | .swap a b, m => m.swapRows a b
  | .divide i divisor, m => m.scaleRow i divisor⁻¹
  | .subtract target source factor, m =>
    m.subtractScaledRow target source factor

/-- The name of the operation: `R1 <-> R2`, `R1 -> R1 / 3`,
`R2 -> R2 - (-1/2)R1`. -/
def RowOp.label : RowOp → String
  | .swap a b => s!"R{a + 1} <-> R{b + 1}"
  | .divide i divisor =>
    s!"R{i + 1} -> R{i + 1} / {Fraction.formatOperand divisor}"
  | .subtract target source factor =>
    s!"R{target + 1} -> R{target + 1} - {Fraction.formatOperand factor}R{source + 1}"

end Stepwise
