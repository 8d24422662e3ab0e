import Stepwise.Linear.Determinant
import Stepwise.Linear.Solution

/-!
# Cramer's rule

A square system whose determinant is not zero is solved by quotients of
determinants, `xᵢ = det(Aᵢ) / det(A)`, where column `i` of `Aᵢ` is the
right-hand side. With determinant zero the rule has no answer, and it cannot
tell whether the system has none or many; a system that is not square is
handed to elimination.
-/

namespace Stepwise

/-- **What Cramer's rule says about a system.** -/
inductive CramerOutcome where
  /-- The numerators are the determinants of the `Aᵢ`. -/
  | solved (solution : List Rat) (determinant : Rat) (numerators : List Rat)
  | notApplicable (determinant : Rat)
  /-- The system is not square. -/
  | fallback (report : SolutionReport)
  deriving DecidableEq

namespace RatMatrix

/-! ## The steps -/

/-- The step that shows the coefficient matrix. -/
def coefficientStep (a : RatMatrix) : Step :=
  .matrix "Coefficient matrix A" a

/-- The step that shows the determinant of the coefficient matrix. -/
def determinantStep (determinant : Rat) : Step :=
  .scalar "det(A)" determinant

/-- The remark that there is no answer. -/
def inapplicableStep : Step :=
  (Step.note "det(A) = 0: Cramer's rule does not apply").because
    ("The system has no unique solution; use Gauss-Jordan elimination "
      ++ "to tell whether it has none or infinitely many")

/-- The step that shows the matrix with column `i` replaced. -/
def replacedStep (a : RatMatrix) (b : List Rat) (i : Nat) : Step :=
  .matrix s!"A{i + 1} (column {i + 1} replaced by b)" (a.replaceColumn i b)

/-- The step that shows variable `i`. -/
def quotientStep (i : Nat) (numerator determinant : Rat) : Step :=
  let value := numerator / determinant
  let text := Fraction.format
  (Step.scalar s!"x{i + 1}" value).because
    (s!"x{i + 1} = det(A{i + 1}) / det(A) = "
      ++ s!"{text numerator} / {text determinant} = {text value}")

/-! ## The rule -/

/-- The determinant of the matrix with column `i` replaced, worked out one
level deeper. -/
def cramerNumerator (a : RatMatrix) (b : List Rat) (i : Nat) : Worked Rat :=
  let worked := (a.replaceColumn i b).expand 0
  ⟨worked.result, Trace.deeper 1 worked.trace⟩

/-- The steps that find variable `i`. -/
def cramerVariable (a : RatMatrix) (b : List Rat) (determinant : Rat)
    (i : Nat) : Trace :=
  let numerator := a.cramerNumerator b i
  a.replacedStep b i
    :: numerator.trace
    ++ [quotientStep i numerator.result determinant]

/-- Cramer's rule for a square matrix. -/
def cramerSquare (a : RatMatrix) (b : List Rat) : Worked CramerOutcome :=
  let worked := a.expand 0
  let determinant := worked.result
  let opening :=
    a.coefficientStep :: Trace.deeper 1 worked.trace
      ++ [determinantStep determinant]
  if determinant = 0 then
    { result := .notApplicable determinant
      trace := opening ++ [inapplicableStep] }
  else
    let columns := List.range a.cols
    let numerators := columns.map fun i => (a.cramerNumerator b i).result
    { result := .solved (numerators.map fun n => n / determinant) determinant
        numerators
      trace := opening ++ columns.flatMap (a.cramerVariable b determinant) }

/-- **Cramer's rule** for `A x = b`. -/
def cramer (a : RatMatrix) (b : List Rat) :
    Except LinearError (Worked CramerOutcome) :=
  if b.length ≠ a.rows then
    .error (.shape (.rightHandSide b.length a.rows))
  else if a.isSquare then .ok (a.cramerSquare b)
  else do
    let solution ← a.solveSystem b
    return {
      result := .fallback solution.result
      trace := Step.note
          (s!"Cramer's rule needs a square matrix; this one is {a.rows}x{a.cols}, "
            ++ "so it is solved by Gauss-Jordan elimination")
        :: solution.trace }

/-- What is reported while Cramer's rule is applied. -/
def cramerEvents (a : RatMatrix) (b : List Rat) : List Event :=
  match a.cramer b with
  | .error _ => []
  | .ok solution =>
    match solution.result with
    | .fallback _ =>
      .warn
        s!"Cramer's rule needs a square matrix, got {a.rows}x{a.cols}; using Gauss-Jordan"
        :: a.solveSystemEvents b
    | .notApplicable _ =>
      .debug s!"Cramer's rule on a {a.cols}x{a.cols} system"
        :: a.determinantEvents
    | .solved _ _ _ =>
      .debug s!"Cramer's rule on a {a.cols}x{a.cols} system"
        :: a.determinantEvents
        ++ (List.range a.cols).flatMap fun i =>
          (a.replaceColumn i b).determinantEvents

end RatMatrix

end Stepwise
