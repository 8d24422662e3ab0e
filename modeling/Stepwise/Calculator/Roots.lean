import Stepwise.Calculator.Error
import Stepwise.Formula.Compiled
import Stepwise.Roots.Finder

/-!
# The calculator for roots

A function of `x` is typed once, and can then be evaluated, scanned and
searched for roots.
-/

namespace Stepwise.Calculator

/-- The method that a user names, by either of its names where it has two. -/
def readRootMethod : String → Except CalculatorError RootMethod
  | "bisection" => .ok .bisection
  | "false_position" | "regula_falsi" => .ok .falsePosition
  | "newton" | "newton_raphson" => .ok .newtonRaphson
  | "secant" => .ok .secant
  | name => .error (.unknownRootMethod name)

/-- **Reads a function** of `x`. -/
def compile (source : String) : Except CalculatorError CompiledFormula :=
  (CompiledFormula.ofSource source "x").mapError (.invalidFunction source)

/-- **Finds a root** from given seeds. -/
def solve (f : CompiledFormula) (method : RootMethod) (seeds : Seeds)
    (settings : RootSettings) : Except CalculatorError Convergence :=
  (findRoot f.eval method seeds settings).mapError
    (.searchFailed method f.source)

/-- **Finds a root** in a range. -/
def autoSolve (f : CompiledFormula) (method : RootMethod)
    (scan : ScanSettings) (settings : RootSettings) :
    Except CalculatorError AutoRoot :=
  (autoFindRoot f.eval method scan settings).mapError
    (.searchFailed method f.source)

/-- All brackets in a range. -/
def brackets (f : CompiledFormula) (scan : ScanSettings) :
    Except CalculatorError (List (Float × Float)) :=
  (scanBrackets f.eval scan).mapError .scanFailed

/-- The pairs of samples in a range by score. -/
def rankedPairs (f : CompiledFormula) (scan : ScanSettings) :
    Except CalculatorError (List RankedPair) :=
  (rankPairs f.eval scan).mapError .scanFailed

/-- The value of a function of `x`, as a preview while it is typed. -/
def evaluateFunction (source : String) (x : Float) :
    Except CalculatorError Float :=
  (compile source).map fun f => f.eval x

end Stepwise.Calculator
