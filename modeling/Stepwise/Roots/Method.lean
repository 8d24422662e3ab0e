import Stepwise.Number.DoubleText

/-!
# Methods and their seeds

Four methods find roots. Two of them enclose a root between points of opposite
sign, the others follow tangents or chords; so each takes starting values of
its own form.
-/

namespace Stepwise

/-- A method of root finding. -/
inductive RootMethod where
  | bisection
  | falsePosition
  | newtonRaphson
  | secant
  deriving DecidableEq

namespace RootMethod

/-- Whether the method needs a bracket with a change of sign. -/
def isBracketing : RootMethod → Bool
  | bisection | falsePosition => true
  | newtonRaphson | secant => false

/-- The name of the method. -/
def name : RootMethod → String
  | bisection => "bisection"
  | falsePosition => "false_position"
  | newtonRaphson => "newton_raphson"
  | secant => "secant"

/-- The method of a name. -/
def ofName? (name : String) : Option RootMethod :=
  [bisection, falsePosition, newtonRaphson, secant].find? fun method =>
    method.name == name

/-- The title of the method in messages. -/
def title : RootMethod → String
  | bisection => "Bisection"
  | falsePosition => "FalsePosition"
  | newtonRaphson => "NewtonRaphson"
  | secant => "Secant"

end RootMethod

/-- **Starting values.** -/
inductive Seeds where
  | bracket (a b : Float)
  | single (x0 : Float)
  | pair (x0 x1 : Float)
  deriving DecidableEq

/-- The starting values in messages: `Bracket \x7b a: 1.0, b: 2.0 \x7d`. -/
def Seeds.describe : Seeds → String
  | .bracket a b =>
    s!"Bracket \x7b a: {annotatedText a}, b: {annotatedText b} \x7d"
  | .single x0 => s!"Single \x7b x0: {annotatedText x0} \x7d"
  | .pair x0 x1 =>
    s!"Pair \x7b x0: {annotatedText x0}, x1: {annotatedText x1} \x7d"

end Stepwise
