import Stepwise.Formula.Token
import Stepwise.LinearError
import Stepwise.Roots.Search

/-!
# What a user is told

The calculator answers with one line when it cannot do what was asked: what it
was doing, and the error that stopped it.
-/

namespace Stepwise

/-- **Why the calculator gave no answer.** -/
inductive CalculatorError where
  | unknownLinearMethod (name : String)
  | unknownInverseMethod (name : String)
  | unknownRootMethod (name : String)
  | invalidMatrix (error : LinearError)
  | invalidRightHandSide (error : LinearError)
  | determinantFailed (error : LinearError)
  | systemFailed (error : LinearError)
  | inversionFailed (error : LinearError)
  | invalidFunction (source : String) (error : SyntaxError)
  | searchFailed (method : RootMethod) (source : String) (error : RootError)
  | scanFailed (error : RootError)

/-- The line that the user reads. A matrix without inverse speaks for
itself. -/
def CalculatorError.message : CalculatorError → String
  | .unknownLinearMethod name => s!"Unknown linear method '{name}'"
  | .unknownInverseMethod name => s!"Unknown inverse method '{name}'"
  | .unknownRootMethod name => s!"Unknown root method '{name}'"
  | .invalidMatrix error => s!"Invalid matrix: {error.message}"
  | .invalidRightHandSide error =>
    s!"Invalid right-hand side: {error.message}"
  | .determinantFailed error => s!"Determinant failed: {error.message}"
  | .systemFailed error => s!"Linear system solve failed: {error.message}"
  | .inversionFailed (.notInvertible witness) =>
    (LinearError.notInvertible witness).message
  | .inversionFailed error => s!"Inversion failed: {error.message}"
  | .invalidFunction source error =>
    s!"Invalid function \"{source}\": {error.message}"
  | .searchFailed method source error =>
    s!"{method.title} failed on f(x) = {source}: {error.message}"
  | .scanFailed error => s!"Interval scan failed: {error.message}"

end Stepwise
