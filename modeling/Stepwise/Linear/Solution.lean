import Stepwise.RatMatrix.Algebra
import Stepwise.Linear.Elimination

/-!
# The solutions of a linear system

A reduced augmented matrix `[A | b]` tells all solutions of `A x = b`. If some
row reads `0 = c` with `c` not zero there are none; if every variable has a
pivot there is one; otherwise each variable without pivot is free, and the
solutions are `p + t₁ d₁ + … + tₖ dₖ` with one direction for each free
variable.
-/

namespace Stepwise

/-- The direction that belongs to a free variable, counted from zero. -/
structure FreeDirection where
  index : Nat
  direction : List Rat
  deriving DecidableEq

/-- **A family of solutions**, one for each choice of the free variables. -/
structure SolutionFamily where
  /-- The solution with every free variable zero. -/
  particular : List Rat
  directions : List FreeDirection
  /-- Whether the right-hand side of the system was zero. -/
  homogeneous : Bool
  deriving DecidableEq

/-- A point moved along a direction. An entry for which the direction has none
stays as it is. -/
def movedAlong (t : Rat) : List Rat → List Rat → List Rat
  | [], _ => []
  | point, [] => point
  | entry :: point, d :: direction =>
    (entry + d * t) :: movedAlong t point direction

/-- The member of the family for the given values of the free variables. -/
def SolutionFamily.point (family : SolutionFamily) (parameters : List Rat) :
    List Rat :=
  (family.directions.zip parameters).foldl
    (fun point (free, t) => movedAlong t point free.direction)
    family.particular

/-- **What the solutions of a system are.** -/
inductive SolutionReport where
  | unique (values : List Rat)
  | infinite (family : SolutionFamily)
  /-- Row `row` reads `0 = c` with `c` not zero. -/
  | inconsistent (row : Nat)
  deriving DecidableEq

namespace SolutionReport

/-- Whether there is exactly one solution. -/
def isUnique : SolutionReport → Bool
  | .unique _ => true
  | _ => false

/-- The variables `x1 = …`, one to a line. -/
def valueLines (values : List Rat) : List String :=
  values.zipIdx.map fun (value, i) => s!"x{i + 1} = {Fraction.format value}"

/-- The report in words, with variables named `x1`, `x2`, …. -/
def render : SolutionReport → String
  | .unique values => String.intercalate "\n" (valueLines values)
  | .inconsistent row =>
    s!"Row {row + 1} reads 0 = c with c != 0: the system has no solution"
  | .infinite family =>
    let trivialStart :=
      family.homogeneous && family.particular.all fun x => decide (x = 0)
    let start :=
      if trivialStart then [] else [Fraction.formatVector family.particular]
    let multiples := family.directions.map fun free =>
      s!"x{free.index + 1}*{Fraction.formatVector free.direction}"
    let names := family.directions.map fun free => s!"x{free.index + 1}"
    "x = " ++ String.intercalate " + " (start ++ multiples)
      ++ "  (" ++ String.intercalate ", " names ++ " free)"

/-- The headline of the report. -/
def headline : SolutionReport → String
  | .unique _ => "Unique solution"
  | .infinite _ => "Infinitely many solutions"
  | .inconsistent _ => "No solution"

end SolutionReport

/-! ## Reading a reduced system -/

namespace RatMatrix

/-- The number of unknowns of an augmented system. -/
def unknowns (system : RatMatrix) : Nat :=
  system.cols - 1

/-- The first row that reads `0 = c` with `c` not zero. -/
def contradiction? (rref : RatMatrix) : Option Nat :=
  (List.range rref.rows).find? fun i =>
    ((List.range rref.unknowns).all fun j => decide (rref.entry i j = 0))
      && decide (rref.entry i rref.unknowns ≠ 0)

/-- The pivots `(column, row)` that lie in a row of the matrix and in the
column of a variable. -/
def variablePivots (rref : RatMatrix) (pivots : List Nat) :
    List (Nat × Nat) :=
  pivots.zipIdx.filter fun (column, row) =>
    decide (row < rref.rows ∧ column < rref.unknowns)

/-- The row whose pivot determines a variable; the last one, should several
be named. -/
def pivotRow? (pivots : List (Nat × Nat)) (column : Nat) : Option Nat :=
  (pivots.reverse.find? fun pivot => decide (pivot.1 = column)).map
    fun pivot => pivot.2

/-- The solution with every free variable zero. -/
def particular (rref : RatMatrix) (pivots : List (Nat × Nat)) : List Rat :=
  (List.range rref.unknowns).map fun j =>
    match pivotRow? pivots j with
    | some i => rref.entry i rref.unknowns
    | none => 0

/-- The direction of a free variable. -/
def direction (rref : RatMatrix) (pivots : List (Nat × Nat)) (free : Nat) :
    List Rat :=
  (List.range rref.unknowns).map fun j =>
    if j = free then 1
    else match pivotRow? pivots j with
      | some i => -rref.entry i free
      | none => 0

/-- **Reads the solutions off a reduced system**, given its pivot columns in
row order. -/
def classify (rref : RatMatrix) (pivotColumns : List Nat)
    (homogeneous : Bool) : SolutionReport :=
  match rref.contradiction? with
  | some row => .inconsistent row
  | none =>
    let pivots := rref.variablePivots pivotColumns
    if pivots.length = rref.unknowns then .unique (rref.particular pivots)
    else
      let free := (List.range rref.unknowns).filter fun j =>
        pivots.all fun pivot => decide (pivot.1 ≠ j)
      .infinite
        { particular := rref.particular pivots
          directions := free.map fun j => ⟨j, rref.direction pivots j⟩
          homogeneous := homogeneous }

/-- Reads the solutions off a reduced system, if its rows have a right-hand
side. -/
def classify? (rref : RatMatrix) (pivotColumns : List Nat)
    (homogeneous : Bool) : Option SolutionReport :=
  if rref.cols = 0 ∧ 0 < rref.rows then none
  else some (rref.classify pivotColumns homogeneous)

/-- What is reported when the solutions have been read off. -/
def classifyEvent (rref : RatMatrix) : SolutionReport → Event
  | .inconsistent row => .debug s!"inconsistent: {rref.describeRow row}"
  | .unique values =>
    .debug s!"unique solution {Fraction.formatVector values}"
  | .infinite family =>
    .debug
      s!"infinitely many solutions with {family.directions.length} free variable(s)"

/-! ## Solving -/

/-- **Solves `A x = b`**: augments, reduces and reads off the solutions. -/
def solveSystem (a : RatMatrix) (b : List Rat) :
    Except LinearError (Worked SolutionReport) := do
  let system ← a.augmentColumn b
  let reduction := system.reduce
  let homogeneous := b.all fun x => decide (x = 0)
  let report := reduction.rref.classify reduction.pivots homogeneous
  return {
    result := report
    trace := reduction.trace
      ++ [(Step.note report.headline).because report.render] }

/-- What is reported while a system is solved. -/
def solveSystemEvents (a : RatMatrix) (b : List Rat) : List Event :=
  match a.augmentColumn b, a.solveSystem b with
  | .ok system, .ok solution =>
    system.reduceColumnsEvents (system.cols - 1)
      ++ [system.reduce.rref.classifyEvent solution.result]
  | _, _ => []

end RatMatrix

end Stepwise
