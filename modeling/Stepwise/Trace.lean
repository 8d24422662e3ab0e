import Stepwise.RatMatrix.Text
import Stepwise.Text.Lines

/-!
# Traces

A trace is the account of a computation, step by step: what was done, why, and
what the matrix or the number at hand was afterwards. The account of a part of
the computation is nested in that of the whole by moving its steps deeper.
-/

namespace Stepwise

/-- What a step shows. -/
inductive Snapshot where
  | matrix (value : RatMatrix)
  | scalar (value : Rat)
  /-- Nothing: the step is a remark. -/
  | none
  deriving DecidableEq

/-- **A step** of an account. -/
structure Step where
  /-- What was done. -/
  label : String
  /-- Why, or how. -/
  rationale : Option String
  snapshot : Snapshot
  /-- How deep the step is nested. -/
  depth : Nat
  deriving DecidableEq

namespace Step

/-- A step that shows a matrix. -/
def matrix (label : String) (value : RatMatrix) : Step :=
  ⟨label, none, .matrix value, 0⟩

/-- A step that shows a number. -/
def scalar (label : String) (value : Rat) : Step :=
  ⟨label, none, .scalar value, 0⟩

/-- A remark. -/
def note (label : String) : Step :=
  ⟨label, none, .none, 0⟩

/-- The step with a rationale. -/
def because (step : Step) (rationale : String) : Step :=
  { step with rationale := some rationale }

/-- The step at the given depth. -/
def atDepth (step : Step) (depth : Nat) : Step :=
  { step with depth := depth }

/-- The step moved `depth` levels deeper. -/
def deeper (depth : Nat) (step : Step) : Step :=
  { step with depth := step.depth + depth }

end Step

/-- **A trace**: the steps of an account in order. -/
abbrev Trace := List Step

namespace Trace

/-- A trace moved `depth` levels deeper as a whole. -/
def deeper (depth : Nat) (trace : Trace) : Trace :=
  trace.map (Step.deeper depth)

/-- The lines of what a step shows. -/
def snapshotLines : Snapshot → List String
  | .matrix value => value.lines
  | .scalar value => [s!"= {Fraction.format value}"]
  | .none => []

/-- The lines of step `number`: its label, and below it the rationale and what
the step shows. -/
def stepLines (number : Nat) (step : Step) : List String :=
  let indent := String.ofList (List.replicate (2 * step.depth) ' ')
  let detail := (step.rationale.map Text.lines).getD []
    ++ snapshotLines step.snapshot
  s!"{indent}{number}. {step.label}"
    :: detail.map fun line => s!"{indent}   {line}"

/-- The text of the steps from `number` on. -/
def renderFrom (number : Nat) : Trace → List String
  | [] => []
  | step :: rest => stepLines number step ++ renderFrom (number + 1) rest

/-- **The trace as a listing**, steps numbered from one. -/
def render (trace : Trace) : String :=
  String.join ((renderFrom 1 trace).map fun line => line ++ "\n")

end Trace

/-- A result together with the account of how it was reached. -/
structure Worked (α : Type) where
  result : α
  trace : Trace
  deriving DecidableEq

end Stepwise
