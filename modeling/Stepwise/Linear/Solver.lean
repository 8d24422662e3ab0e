import Stepwise.Linear.Cramer
import Stepwise.Linear.Inverse

/-!
# Choosing a method

The methods for linear systems and for inverses, under one name each for the
choice and for what it does.
-/

namespace Stepwise

/-- How a linear system is solved. -/
inductive LinearMethod where
  | gaussJordan
  | cramer
  deriving DecidableEq

/-- How a matrix is inverted. -/
inductive InverseMethod where
  | adjugate
  | gaussJordan
  deriving DecidableEq

/-- The name of the method. -/
def LinearMethod.name : LinearMethod → String
  | .gaussJordan => "gauss_jordan"
  | .cramer => "cramer"

/-- The method of a name. -/
def LinearMethod.ofName? (name : String) : Option LinearMethod :=
  [gaussJordan, cramer].find? fun method => method.name == name

/-- The name of the method. -/
def InverseMethod.name : InverseMethod → String
  | .adjugate => "adjugate"
  | .gaussJordan => "gauss_jordan"

/-- The method of a name. -/
def InverseMethod.ofName? (name : String) : Option InverseMethod :=
  [adjugate, gaussJordan].find? fun method => method.name == name

/-- **The solution of a linear system**, with the method that found it. -/
structure LinearSolution where
  report : SolutionReport
  trace : Trace
  /-- Elimination, when the method chosen does not apply to the shape of the
  system. -/
  methodUsed : LinearMethod
  deriving DecidableEq

/-- The solution that Cramer's rule comes to. With determinant zero it is
refused. -/
def LinearSolution.ofCramer (worked : Worked CramerOutcome) :
    Except LinearError LinearSolution :=
  match worked.result with
  | .solved values _ _ => .ok ⟨.unique values, worked.trace, .cramer⟩
  | .fallback report => .ok ⟨report, worked.trace, .gaussJordan⟩
  | .notApplicable _ => .error .singular

namespace RatMatrix

/-- **Solves `A x = b`** by the given method. -/
def solveLinear (method : LinearMethod) (a : RatMatrix) (b : List Rat) :
    Except LinearError LinearSolution :=
  match method with
  | .gaussJordan =>
    (a.solveSystem b).map fun worked =>
      ⟨worked.result, worked.trace, .gaussJordan⟩
  | .cramer => a.cramer b >>= LinearSolution.ofCramer

/-- What is reported while a system is solved. -/
def solveLinearEvents (method : LinearMethod) (a : RatMatrix)
    (b : List Rat) : List Event :=
  match method with
  | .gaussJordan => a.solveSystemEvents b
  | .cramer => a.cramerEvents b

/-- **Inverts a matrix** by the given method. -/
def invert (method : InverseMethod) (a : RatMatrix) :
    Except LinearError (Worked RatMatrix) :=
  match method with
  | .adjugate => a.invertByAdjugate
  | .gaussJordan => a.invertByElimination

/-- What is reported while a matrix is inverted. -/
def invertEvents (method : InverseMethod) (a : RatMatrix) : List Event :=
  match method with
  | .adjugate => a.invertByAdjugateEvents
  | .gaussJordan => a.invertByEliminationEvents

end RatMatrix

end Stepwise
