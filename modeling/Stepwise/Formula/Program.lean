import Stepwise.Formula.Basic

/-!
# Programs for a stack machine

A formula that is evaluated many times is first turned into a program: a list
of instructions for a machine that keeps its intermediate results on a stack.
An instruction that finds the stack empty takes a NaN for what is missing, so
running a program never fails, whatever the program.
-/

namespace Stepwise

/-- **An instruction** of the stack machine. -/
inductive Instruction where
  /-- Pushes a number. -/
  | const (value : Float)
  /-- Pushes the variable. -/
  | var
  /-- Pops the second operand, then the first, and pushes the result. -/
  | binary (op : BinaryOp)
  /-- Pops an operand and pushes its negative. -/
  | neg
  /-- Pops an argument and pushes the value of the function. -/
  | call (function : Function)

/-- A program for the stack machine. -/
abbrev Program := List Instruction

/-- **The program of a formula**: the operands of an operation in order, then
the operation. -/
def Formula.compile : Formula → Program
  | .number value => [.const value]
  | .var => [.var]
  | .binary op left right => left.compile ++ right.compile ++ [.binary op]
  | .neg operand => operand.compile ++ [.neg]
  | .call function argument => argument.compile ++ [.call function]

/-- The stack machine. What it leaves on its stack is still there when the
next program is run. -/
structure Machine (α : Type) where
  /-- The stack, topmost value first. -/
  stack : List α

namespace Machine

variable {α : Type} [Scalar α]

/-- A machine that has run nothing. -/
def new : Machine α := ⟨[]⟩

/-- The machine with an empty stack. -/
def clear (_ : Machine α) : Machine α := ⟨[]⟩

/-- A value put on the stack. -/
def push (value : α) (m : Machine α) : Machine α := ⟨value :: m.stack⟩

/-- The value on top of the stack, NaN if there is none, and the machine
without it. -/
def pop (m : Machine α) : α × Machine α :=
  match m.stack with
  | [] => (Scalar.nan, m)
  | value :: rest => (value, ⟨rest⟩)

/-- One instruction. -/
def step (x : α) (m : Machine α) : Instruction → Machine α
  | .const value => m.push (Scalar.ofDouble value)
  | .var => m.push x
  | .binary op =>
    let (b, m) := m.pop
    let (a, m) := m.pop
    m.push (Scalar.binary op a b)
  | .neg =>
    let (a, m) := m.pop
    m.push (Scalar.neg a)
  | .call function =>
    let (a, m) := m.pop
    m.push (Scalar.apply function a)

/-- The instructions of a program, one after the other. -/
def run (x : α) (m : Machine α) (program : Program) : Machine α :=
  program.foldl (step x) m

/-- **Runs a program** on an empty stack and pops the result. -/
def execute (m : Machine α) (program : Program) (x : α) : α × Machine α :=
  (m.clear.run x program).pop

/-- Runs a program for several values of the variable, one after the other on
the same machine. -/
def executeEach (m : Machine α) (program : Program) :
    List α → List α × Machine α
  | [] => ([], m)
  | x :: xs =>
    let (value, m) := m.execute program x
    let (values, m) := executeEach m program xs
    (value :: values, m)

end Machine

end Stepwise
