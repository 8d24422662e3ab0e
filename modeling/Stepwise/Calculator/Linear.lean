import Stepwise.Calculator.Error
import Stepwise.Linear.Solver

/-!
# The calculator for matrices

Cells come in as texts and go out as texts, so a fraction such as `3/4` or
`0,5` survives in both directions. Each answer holds the result and the steps
that led to it, ready to be shown.
-/

namespace Stepwise.Calculator

/-- A step as it is shown. -/
structure StepView where
  label : String
  rationale : Option String
  depth : Nat
  matrix : Option (List (List String))
  value : Option String
  deriving DecidableEq

/-- How a step is shown. -/
def stepView (step : Step) : StepView :=
  let (matrix, value) :=
    match step.snapshot with
    | .matrix m => (some m.toStrings, none)
    | .scalar v => (none, some (Fraction.format v))
    | .none => (none, none)
  ⟨step.label, step.rationale, step.depth, matrix, value⟩

/-- The decimals of an approximate value. -/
def decimalDigits : Nat := 6

/-- A determinant as it is shown. -/
structure DeterminantView where
  value : String
  decimal : String
  steps : List StepView
  deriving DecidableEq

/-- The direction of a free variable as it is shown. -/
structure DirectionView where
  index : Nat
  direction : List String
  deriving DecidableEq

/-- The solution of a system as it is shown. -/
structure SystemView where
  /-- `unique`, `infinite` or `inconsistent`. -/
  kind : String
  /-- The solution, or the one with every free variable zero. -/
  values : List String
  directions : List DirectionView
  inconsistentRow : Option Nat
  summary : String
  method : LinearMethod
  steps : List StepView
  deriving DecidableEq

/-- An inverse as it is shown. -/
structure InverseView where
  inverse : List (List String)
  steps : List StepView
  deriving DecidableEq

/-- Reads the cells of a matrix. -/
def readMatrix (cells : List (List String)) :
    Except CalculatorError RatMatrix :=
  (RatMatrix.parse cells).mapError .invalidMatrix

/-- **The determinant** of a grid of cells. -/
def determinantView (cells : List (List String)) :
    Except CalculatorError DeterminantView := do
  let m ← readMatrix cells
  let worked ← m.determinant.mapError .determinantFailed
  return {
    value := Fraction.format worked.result
    decimal := Fraction.formatDecimal decimalDigits worked.result
    steps := worked.trace.map stepView }

/-- The method for linear systems that a user names; elimination when nothing
is named. -/
def readLinearMethod : String → Except CalculatorError LinearMethod
  | "" | "gauss_jordan" | "gauss-jordan" => .ok .gaussJordan
  | "cramer" => .ok .cramer
  | name => .error (.unknownLinearMethod name)

/-- The method of inversion that a user names; elimination when nothing is
named. -/
def readInverseMethod : String → Except CalculatorError InverseMethod
  | "" | "gauss_jordan" | "gauss-jordan" => .ok .gaussJordan
  | "adjugate" => .ok .adjugate
  | name => .error (.unknownInverseMethod name)

/-- How a solution is shown. -/
def solutionView (solution : LinearSolution) : SystemView :=
  let texts := List.map Fraction.format
  let base : SystemView :=
    { kind := "", values := [], directions := [], inconsistentRow := none
      summary := solution.report.render
      method := solution.methodUsed
      steps := solution.trace.map stepView }
  match solution.report with
  | .unique values => { base with kind := "unique", values := texts values }
  | .infinite family =>
    { base with
      kind := "infinite"
      values := texts family.particular
      directions := family.directions.map fun free =>
        ⟨free.index, texts free.direction⟩ }
  | .inconsistent row =>
    { base with kind := "inconsistent", inconsistentRow := some row }

/-- **The solution of a system** given by grids of cells. -/
def systemView (coefficients : List (List String)) (rhs : List String)
    (method : LinearMethod) : Except CalculatorError SystemView := do
  let a ← readMatrix coefficients
  let b ← (parseVector rhs).mapError .invalidRightHandSide
  let solution ← (a.solveLinear method b).mapError .systemFailed
  return solutionView solution

/-- **The inverse** of a grid of cells. -/
def inverseView (cells : List (List String)) (method : InverseMethod) :
    Except CalculatorError InverseView := do
  let a ← readMatrix cells
  let worked ← (a.invert method).mapError .inversionFailed
  return {
    inverse := worked.result.toStrings
    steps := worked.trace.map stepView }

end Stepwise.Calculator
