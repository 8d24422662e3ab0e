import Mathlib.Logic.ExistsUnique
import Mathlib.Logic.Function.Defs
import Stepwise.Proofs.Formula.Execution

/-!
# Programs and formulas correspond one to one

Formulas can be calculated with: the sum of two formulas is the formula of their
sum, and so on. A machine over these scalars is a decoder. What it has on its
stack compiles to what it has run (`Machine.code_of_run?`), so if one formula is
left, the program is the program of this formula and of no other
(`Formula.run?_eq_some_iff`).

A machine over any scalars does the same, with the values of the formulas on its
stack (`Machine.run?_evaluate`). How many values are on a stack, and whether an
instruction finds too few of them, is therefore the same for all scalars, and the
programs that run through and leave one value are the programs of formulas
(`Formula.existsUnique_compile_eq_iff`).
-/

namespace Stepwise

/-- How many values an instruction pops. -/
def Instruction.operands : Instruction → Nat
  | .const _ | .var => 0
  | .neg | .call _ => 1
  | .binary _ => 2

/-- **Formulas as scalars**: an operation gives the formula of the operation. -/
instance : Scalar Formula where
  ofDouble := .number
  nan := .number Scalar.nan
  neg := .neg
  binary := .binary
  apply := .call

/-! ## Enough values on the stack -/

namespace Machine

section Supply

variable {α : Type} [Scalar α]

/-- **No instruction of the program finds the stack empty**: when its turn
comes, there are as many values as it pops. -/
def Supplies (x : α) (m : Machine α) (program : Program) : Prop :=
  ∀ before instruction after, program = before ++ instruction :: after →
    instruction.operands ≤ (m.run x before).stack.length

theorem run_cons (x : α) (m : Machine α) (i : Instruction)
    (program : Program) : m.run x (i :: program) = (m.step x i).run x program :=
  rfl

theorem supplies_nil (x : α) (m : Machine α) : m.Supplies x [] := by
  intro before i after h
  cases before <;> cases h

theorem supplies_cons_iff (x : α) (m : Machine α) (i : Instruction)
    (program : Program) :
    m.Supplies x (i :: program)
      ↔ i.operands ≤ m.stack.length ∧ (m.step x i).Supplies x program := by
  constructor
  · intro h
    refine ⟨h [] i program rfl, fun before j after hsplit => ?_⟩
    rw [← run_cons]
    exact h (i :: before) j after (congrArg (i :: ·) hsplit)
  · rintro ⟨hfirst, hrest⟩ before j after hsplit
    cases before with
    | nil =>
      obtain ⟨rfl, -⟩ := List.cons.inj hsplit
      exact hfirst
    | cons i' before =>
      obtain ⟨rfl, hrest'⟩ := List.cons.inj hsplit
      exact hrest before j after hrest'

/-- The strict machine goes on exactly when there are enough values. -/
theorem step?_eq_some_step_iff (x : α) (m : Machine α) (i : Instruction) :
    m.step? x i = some (m.step x i) ↔ i.operands ≤ m.stack.length := by
  obtain ⟨stack⟩ := m
  cases i with
  | const value => exact iff_of_true rfl (Nat.zero_le _)
  | var => exact iff_of_true rfl (Nat.zero_le _)
  | binary op =>
    match stack with
    | [] => exact iff_of_false nofun (Nat.not_succ_le_zero _)
    | [_] => exact iff_of_false nofun (Nat.not_succ_le_self 1)
    | _ :: _ :: _ => exact iff_of_true rfl (Nat.le_add_left 2 _)
  | neg =>
    match stack with
    | [] => exact iff_of_false nofun (Nat.not_succ_le_zero _)
    | _ :: _ => exact iff_of_true rfl (Nat.le_add_left 1 _)
  | call function =>
    match stack with
    | [] => exact iff_of_false nofun (Nat.not_succ_le_zero _)
    | _ :: _ => exact iff_of_true rfl (Nat.le_add_left 1 _)

/-- **The strict machine gets through a program** exactly when no instruction
finds the stack empty. -/
theorem run?_eq_some_run_iff (x : α) (m : Machine α) (program : Program) :
    m.run? x program = some (m.run x program) ↔ m.Supplies x program := by
  induction program generalizing m with
  | nil => exact iff_of_true rfl (supplies_nil x m)
  | cons i program ih =>
    rw [supplies_cons_iff, ← step?_eq_some_step_iff, ← ih, run?_cons, run_cons]
    constructor
    · intro h
      obtain ⟨m', hstep, hrun⟩ := Option.bind_eq_some_iff.mp h
      obtain rfl := step_of_step? hstep
      exact ⟨hstep, hrun⟩
    · rintro ⟨hstep, hrun⟩
      rw [hstep]
      exact hrun

end Supply

/-! ## The machine over formulas -/

/-- The program that puts the formulas on the stack, the topmost one last. -/
def code (m : Machine Formula) : Program :=
  m.stack.reverse.flatMap Formula.compile

theorem code_push (f : Formula) (m : Machine Formula) :
    (m.push f).code = m.code ++ f.compile := by
  rw [code, push, List.reverse_cons, List.flatMap_append,
    List.flatMap_singleton]
  rfl

theorem code_of_pop? {m : Machine Formula} {r : Formula × Machine Formula}
    (h : m.pop? = some r) : m.code = r.2.code ++ r.1.compile := by
  obtain ⟨stack⟩ := m
  cases stack with
  | nil => cases h
  | cons f rest =>
    obtain rfl := Option.some.inj h
    exact code_push f ⟨rest⟩

/-- An instruction that has been run is the last one of the code. -/
theorem code_of_step? {m m' : Machine Formula} {i : Instruction}
    (h : m.step? Formula.var i = some m') : m'.code = m.code ++ [i] := by
  cases i with
  | const value =>
    obtain rfl := Option.some.inj h
    exact code_push _ m
  | var =>
    obtain rfl := Option.some.inj h
    exact code_push _ m
  | binary op =>
    obtain ⟨⟨b, m₁⟩, hb, h⟩ := Option.bind_eq_some_iff.mp h
    obtain ⟨⟨a, m₂⟩, ha, h⟩ := Option.bind_eq_some_iff.mp h
    obtain rfl := Option.some.inj h
    rw [code_push, code_of_pop? hb, code_of_pop? ha, List.append_assoc,
      List.append_assoc]
    exact congrArg _ (List.append_assoc _ _ _)
  | neg =>
    obtain ⟨⟨a, m₁⟩, ha, h⟩ := Option.bind_eq_some_iff.mp h
    obtain rfl := Option.some.inj h
    rw [code_push, code_of_pop? ha, List.append_assoc]
    rfl
  | call function =>
    obtain ⟨⟨a, m₁⟩, ha, h⟩ := Option.bind_eq_some_iff.mp h
    obtain rfl := Option.some.inj h
    rw [code_push, code_of_pop? ha, List.append_assoc]
    rfl

/-- **What is on the stack compiles to what has been run.** -/
theorem code_of_run? {m m' : Machine Formula} {program : Program}
    (h : m.run? Formula.var program = some m') :
    m'.code = m.code ++ program := by
  induction program generalizing m with
  | nil =>
    obtain rfl := Option.some.inj h
    exact (List.append_nil _).symm
  | cons i program ih =>
    rw [run?_cons] at h
    obtain ⟨m₁, hstep, hrun⟩ := Option.bind_eq_some_iff.mp h
    rw [ih hrun, code_of_step? hstep, List.append_assoc]
    rfl

/-! ## From formulas to values -/

section Evaluate

variable {α : Type} [Scalar α]

/-- The machine with the values of the formulas on its stack. -/
def evaluate (x : α) (m : Machine Formula) : Machine α :=
  ⟨m.stack.map (Formula.eval x)⟩

/-- An instruction does to the values what it does to the formulas. -/
theorem step?_evaluate (x : α) (m : Machine Formula) (i : Instruction) :
    (m.evaluate x).step? x i
      = (m.step? Formula.var i).map (evaluate x) := by
  obtain ⟨stack⟩ := m
  cases i with
  | const value => rfl
  | var => rfl
  | binary op =>
    match stack with
    | [] | [_] | _ :: _ :: _ => rfl
  | neg => cases stack <;> rfl
  | call function => cases stack <;> rfl

/-- **A program does to the values what it does to the formulas.** -/
theorem run?_evaluate (x : α) (m : Machine Formula) (program : Program) :
    (m.evaluate x).run? x program
      = (m.run? Formula.var program).map (evaluate x) := by
  induction program generalizing m with
  | nil => rfl
  | cons i program ih =>
    rw [run?_cons, run?_cons, step?_evaluate]
    cases m.step? Formula.var i with
    | none => rfl
    | some m₁ => exact ih m₁

end Evaluate

end Machine

/-! ## The correspondence -/

namespace Formula

/-- Over formulas a formula is its own value. -/
theorem eval_var (f : Formula) : f.eval var = f := by
  induction f with
  | number value => rfl
  | var => rfl
  | binary op left right ihl ihr =>
    show binary op (left.eval var) (right.eval var) = _
    rw [ihl, ihr]
  | neg operand ih => exact congrArg neg ih
  | call function argument ih => exact congrArg (call function) ih

/-- **A program is decoded to a formula** exactly when it is the program of this
formula. -/
theorem run?_eq_some_iff {program : Program} {f : Formula} :
    (Machine.new : Machine Formula).run? var program = some ⟨[f]⟩
      ↔ f.compile = program := by
  constructor
  · intro h
    have hcode := Machine.code_of_run? h
    exact (List.flatMap_singleton _ f).symm.trans hcode
  · rintro rfl
    have hrun := f.run?_compile_append var Machine.new []
    rwa [List.append_nil, Machine.run?_nil, eval_var] at hrun

/-- **No two formulas have the same program.** -/
theorem compile_injective : Function.Injective compile := by
  intro f g h
  have hf : (Machine.new : Machine Formula).run? var g.compile
      = some ⟨[f]⟩ := run?_eq_some_iff.mpr h
  have hg : (Machine.new : Machine Formula).run? var g.compile
      = some ⟨[g]⟩ := run?_eq_some_iff.mpr rfl
  rw [hf] at hg
  cases hg
  rfl

variable {α : Type} [Scalar α]

/-- The strict machine is left with one value by the programs of formulas, and
by no others. -/
theorem exists_run?_eq_some_iff (x : α) (m : Machine α) (program : Program) :
    (∃ value, m.clear.run? x program = some ⟨[value]⟩)
      ↔ ∃ f : Formula, f.compile = program := by
  have hrun : m.clear.run? x program
      = ((Machine.new : Machine Formula).run? var program).map
          (Machine.evaluate x) := Machine.run?_evaluate x Machine.new program
  rw [hrun]
  constructor
  · rintro ⟨value, h⟩
    obtain ⟨⟨stack⟩, hdecode, hvalue⟩ := Option.map_eq_some_iff.mp h
    obtain ⟨f, rfl, -⟩ :=
      List.map_eq_singleton_iff.mp (congrArg Machine.stack hvalue)
    exact ⟨f, run?_eq_some_iff.mp hdecode⟩
  · rintro ⟨f, hf⟩
    rw [run?_eq_some_iff.mpr hf]
    exact ⟨f.eval x, rfl⟩

/-- **Programs and formulas correspond one to one.** Over any scalars, a program
never finds the stack empty and leaves exactly one value if and only if it is the
program of a formula, which is then the only one. -/
theorem existsUnique_compile_eq_iff (x : α) (m : Machine α) (program : Program) :
    ((m.clear.Supplies x program
          ∧ (m.clear.run x program).stack.length = 1)
        ↔ ∃! f : Formula, f.compile = program)
      ∧ Function.Injective compile := by
  refine ⟨?_, compile_injective⟩
  have hunique : (∃! f : Formula, f.compile = program)
      ↔ ∃ f : Formula, f.compile = program := by
    refine ⟨ExistsUnique.exists, fun ⟨f, hf⟩ => ⟨f, hf, fun g hg => ?_⟩⟩
    exact compile_injective (hg.trans hf.symm)
  rw [hunique, ← exists_run?_eq_some_iff x m, ← Machine.run?_eq_some_run_iff]
  constructor
  · rintro ⟨hrun, hlength⟩
    obtain ⟨value, hvalue⟩ := List.length_eq_one_iff.mp hlength
    refine ⟨value, hrun.trans ?_⟩
    rw [← hvalue]
  · rintro ⟨value, hvalue⟩
    rw [Machine.run_of_run? hvalue]
    exact ⟨hvalue, rfl⟩

end Formula

end Stepwise
