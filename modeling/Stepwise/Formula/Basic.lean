/-!
# Formulas in one variable

A formula is what a user types for `f(x)`: numbers, the variable, the
arithmetic operations and a fixed list of functions. It has a value for each
value of the variable over any type of scalars; the scalars used are the
doubles and the single-precision numbers.
-/

namespace Stepwise

/-- The functions a formula may call. -/
inductive Function where
  | sin
  | cos
  | tan
  | ln
  | log10
  | exp
  | sqrt
  | abs
  deriving DecidableEq

/-- The function of a name: `sen` is a spelling of `sin`, `tg` of `tan` and
`raiz` of `sqrt`, and `log` is to base ten. -/
def Function.ofName? : String → Option Function
  | "sen" | "sin" => some .sin
  | "cos" => some .cos
  | "tan" | "tg" => some .tan
  | "ln" => some .ln
  | "log" => some .log10
  | "exp" => some .exp
  | "sqrt" | "raiz" => some .sqrt
  | "abs" => some .abs
  | _ => none

/-- The operations on two operands. -/
inductive BinaryOp where
  | add
  | sub
  | mul
  | div
  | pow
  deriving DecidableEq

/-- **A formula in one variable.** -/
inductive Formula where
  | number (value : Float)
  | var
  | binary (op : BinaryOp) (left right : Formula)
  | neg (operand : Formula)
  | call (function : Function) (argument : Formula)

/-- **Scalars**: what formulas are evaluated over. -/
class Scalar (α : Type) where
  /-- The scalar nearest to a double. -/
  ofDouble : Float → α
  /-- The result of what has no result. -/
  nan : α
  neg : α → α
  binary : BinaryOp → α → α → α
  apply : Function → α → α

instance : Scalar Float where
  ofDouble x := x
  nan := 0.0 / 0.0
  neg x := -x
  binary
    | .add, x, y => x + y
    | .sub, x, y => x - y
    | .mul, x, y => x * y
    | .div, x, y => x / y
    | .pow, x, y => x.pow y
  apply
    | .sin, x => x.sin
    | .cos, x => x.cos
    | .tan, x => x.tan
    | .ln, x => x.log
    | .log10, x => x.log10
    | .exp, x => x.exp
    | .sqrt, x => x.sqrt
    | .abs, x => x.abs

instance : Scalar Float32 where
  ofDouble x := x.toFloat32
  nan := 0.0 / 0.0
  neg x := -x
  binary
    | .add, x, y => x + y
    | .sub, x, y => x - y
    | .mul, x, y => x * y
    | .div, x, y => x / y
    | .pow, x, y => x.pow y
  apply
    | .sin, x => x.sin
    | .cos, x => x.cos
    | .tan, x => x.tan
    | .ln, x => x.log
    | .log10, x => x.log10
    | .exp, x => x.exp
    | .sqrt, x => x.sqrt
    | .abs, x => x.abs

/-- **The value of a formula** where the variable is `x`. -/
def Formula.eval {α : Type} [Scalar α] (x : α) : Formula → α
  | .number value => Scalar.ofDouble value
  | .var => x
  | .binary op left right => Scalar.binary op (left.eval x) (right.eval x)
  | .neg operand => Scalar.neg (operand.eval x)
  | .call function argument => Scalar.apply function (argument.eval x)

end Stepwise
