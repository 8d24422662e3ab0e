import Stepwise.Formula.Parser
import Stepwise.Formula.Program

/-!
# Compiled formulas

A formula as a user typed it, together with its program: it is read once and
then evaluated as often as needed.
-/

namespace Stepwise

/-- **A formula ready to be evaluated.** -/
structure CompiledFormula where
  /-- The text that was typed. -/
  source : String
  program : Program

namespace CompiledFormula

/-- Reads a formula in the given variable and compiles it. -/
def ofSource (source variableName : String) :
    Except SyntaxError CompiledFormula :=
  (Formula.parse source.toList variableName).map fun formula =>
    ⟨source, formula.compile⟩

/-- **The value of the formula** where the variable is `x`. -/
def eval (f : CompiledFormula) (x : Float) : Float :=
  (Machine.new.execute f.program x).1

/-- The values of the formula for several values of the variable, worked out
one after the other on one machine, whatever was run on it before. -/
def evalEach (f : CompiledFormula) (scratch : Machine Float)
    (xs : List Float) : List Float × Machine Float :=
  scratch.executeEach f.program xs

end CompiledFormula

end Stepwise
