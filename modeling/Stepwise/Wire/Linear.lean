import Stepwise.Linear.Solver
import Stepwise.Wire.Basic

/-!
# The wire form of linear algebra

An integer is its sign and its digits to base `2^32`, least significant first;
an exact number is numerator and denominator; a matrix is its size and its
cells row by row. Alternatives carry their `kind`.
-/

namespace Stepwise

/-- The base `2^32` of the digits of large integers. -/
def limbBase : Nat := 0x100000000

/-- The digits of a natural number to base `limbBase`, least significant
first; none for zero. -/
def limbs (n : Nat) : List Nat :=
  if n = 0 then []
  else
    (List.range (n.log2 / 32 + 1)).map fun k =>
      n / Nat.pow limbBase k % limbBase

namespace Wire

/-- An integer of any size. -/
def ofInt (n : Int) : Wire :=
  list [int n.sign, listOf nat (limbs n.natAbs)]

/-- An exact number. -/
def ofRat (value : Rat) : Wire :=
  list [ofInt value.num, ofInt value.den]

/-- A vector. -/
def ofVector (values : List Rat) : Wire :=
  listOf ofRat values

/-- A matrix. -/
def ofMatrix (m : RatMatrix) : Wire :=
  record [("rows", nat m.rows), ("cols", nat m.cols),
    ("data", ofVector m.cells.toList)]

/-- What a step shows. -/
def ofSnapshot : Snapshot → Wire
  | .matrix value => record [("kind", text "matrix"), ("value", ofMatrix value)]
  | .scalar value => record [("kind", text "scalar"), ("value", ofRat value)]
  | .none => record [("kind", text "none")]

/-- A step. -/
def ofStep (step : Step) : Wire :=
  record [("label", text step.label),
    ("rationale", optional text step.rationale),
    ("snapshot", ofSnapshot step.snapshot), ("depth", nat step.depth)]

/-- A trace. -/
def ofTrace (trace : Trace) : Wire :=
  record [("steps", listOf ofStep trace)]

/-- A reduction. -/
def ofReduction (r : Reduction) : Wire :=
  record [("rref", ofMatrix r.rref), ("pivot_columns", listOf nat r.pivots),
    ("trace", ofTrace r.trace)]

/-- A determinant with its account. -/
def ofDeterminant (worked : Worked Rat) : Wire :=
  list [ofRat worked.result, ofTrace worked.trace]

/-- The direction of a free variable. -/
def ofDirection (free : FreeDirection) : Wire :=
  record [("variable", nat free.index), ("direction", ofVector free.direction)]

/-- A report. -/
def ofReport : SolutionReport → Wire
  | .unique values =>
    record [("kind", text "unique"), ("values", ofVector values)]
  | .infinite family =>
    record [("kind", text "infinite"),
      ("particular", ofVector family.particular),
      ("directions", listOf ofDirection family.directions),
      ("homogeneous", bool family.homogeneous)]
  | .inconsistent row =>
    record [("kind", text "inconsistent"), ("row", nat row)]

/-- What Cramer's rule says. -/
def ofCramerOutcome : CramerOutcome → Wire
  | .solved solution determinant numerators =>
    record [("kind", text "solved"), ("solution", ofVector solution),
      ("determinant", ofRat determinant), ("numerators", ofVector numerators)]
  | .notApplicable determinant =>
    record [("kind", text "not_applicable"), ("determinant", ofRat determinant)]
  | .fallback report =>
    record [("kind", text "gauss_jordan_fallback"),
      ("report", ofReport report)]

/-- The solution of a linear system. -/
def ofLinearSolution (solution : LinearSolution) : Wire :=
  record [("report", ofReport solution.report),
    ("trace", ofTrace solution.trace),
    ("method_used", text solution.methodUsed.name)]

end Wire

end Stepwise
