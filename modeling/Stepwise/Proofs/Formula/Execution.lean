import Stepwise.Formula.Compiled

/-!
# Programs compute their formulas

A machine takes a NaN for a value that its stack does not hold, so running a
program never shows that a value was missing. The *strict* machine stops
instead: `Machine.execute?` has a result only when no instruction, and not the
last pop either, found the stack empty, and its result is then the one of
`Machine.execute` (`Machine.execute_of_execute?`).

The program of a formula runs on the strict machine and puts the value of the
formula on top of whatever stack it starts from. Said for any program that
follows, this is one induction on the formula (`Formula.run?_compile_append`).
-/

namespace Stepwise

namespace Machine

variable {α : Type} [Scalar α]

/-! ## The strict machine -/

/-- The value on top of the stack and the machine without it, if there is
one. -/
def pop? (m : Machine α) : Option (α × Machine α) :=
  match m.stack with
  | [] => none
  | value :: rest => some (value, ⟨rest⟩)

/-- One instruction, unless it finds the stack empty. -/
def step? (x : α) (m : Machine α) : Instruction → Option (Machine α)
  | .const value => some (m.push (Scalar.ofDouble value))
  | .var => some (m.push x)
  | .binary op => do
    let (b, m) ← m.pop?
    let (a, m) ← m.pop?
    return m.push (Scalar.binary op a b)
  | .neg => do
    let (a, m) ← m.pop?
    return m.push (Scalar.neg a)
  | .call function => do
    let (a, m) ← m.pop?
    return m.push (Scalar.apply function a)

/-- The instructions of a program, one after the other, unless one of them
finds the stack empty. -/
def run? (x : α) (m : Machine α) (program : Program) : Option (Machine α) :=
  program.foldlM (step? x) m

/-- **Runs a program** on an empty stack and pops the result, unless the stack
is found empty on the way or in the end. -/
def execute? (m : Machine α) (program : Program) (x : α) :
    Option (α × Machine α) :=
  m.clear.run? x program >>= pop?

theorem run?_nil (x : α) (m : Machine α) : m.run? x [] = some m := rfl

theorem run?_cons (x : α) (m : Machine α) (i : Instruction)
    (program : Program) :
    m.run? x (i :: program)
      = (m.step? x i).bind fun m => m.run? x program :=
  List.foldlM_cons

theorem pop_of_pop? {m : Machine α} {r : α × Machine α}
    (h : m.pop? = some r) : m.pop = r := by
  obtain ⟨stack⟩ := m
  cases stack with
  | nil => cases h
  | cons value rest => exact Option.some.inj h

theorem step_of_step? {x : α} {m m' : Machine α} {i : Instruction}
    (h : m.step? x i = some m') : m.step x i = m' := by
  cases i with
  | const value => exact Option.some.inj h
  | var => exact Option.some.inj h
  | binary op =>
    obtain ⟨⟨b, m₁⟩, hb, h⟩ := Option.bind_eq_some_iff.mp h
    obtain ⟨⟨a, m₂⟩, ha, h⟩ := Option.bind_eq_some_iff.mp h
    simp only [step, pop_of_pop? hb, pop_of_pop? ha]
    exact Option.some.inj h
  | neg =>
    obtain ⟨⟨a, m₁⟩, ha, h⟩ := Option.bind_eq_some_iff.mp h
    simp only [step, pop_of_pop? ha]
    exact Option.some.inj h
  | call function =>
    obtain ⟨⟨a, m₁⟩, ha, h⟩ := Option.bind_eq_some_iff.mp h
    simp only [step, pop_of_pop? ha]
    exact Option.some.inj h

theorem run_of_run? {x : α} {m m' : Machine α} {program : Program}
    (h : m.run? x program = some m') : m.run x program = m' := by
  induction program generalizing m with
  | nil => exact Option.some.inj h
  | cons i program ih =>
    rw [run?_cons] at h
    obtain ⟨m₁, hstep, hrun⟩ := Option.bind_eq_some_iff.mp h
    show (m.step x i).run x program = m'
    rw [step_of_step? hstep]
    exact ih hrun

/-- **Where the strict machine has a result**, the machine has the same. -/
theorem execute_of_execute? {m : Machine α} {program : Program} {x : α}
    {r : α × Machine α} (h : m.execute? program x = some r) :
    m.execute program x = r := by
  obtain ⟨m', hrun, hpop⟩ := Option.bind_eq_some_iff.mp h
  unfold execute
  rw [run_of_run? hrun]
  exact pop_of_pop? hpop

/-- **Runs on one machine are independent of each other**: each gives what a
new machine gives. -/
theorem executeEach_fst (m : Machine α) (program : Program) (xs : List α) :
    (m.executeEach program xs).1
      = xs.map fun x => (new.execute program x).1 := by
  induction xs generalizing m with
  | nil => rfl
  | cons x xs ih =>
    -- a run clears the stack first, so the first value is that of a new machine
    rw [List.map_cons, ← ih (m.execute program x).2]
    rfl

end Machine

/-! ## The program of a formula -/

namespace Formula

variable {α : Type} [Scalar α]

/-- **The program of a formula puts its value on the stack** and leaves the
rest of the stack to the program that follows. -/
theorem run?_compile_append (f : Formula) (x : α) (m : Machine α)
    (program : Program) :
    m.run? x (f.compile ++ program) = (m.push (f.eval x)).run? x program := by
  induction f generalizing m program with
  | number value => exact Machine.run?_cons x m _ program
  | var => exact Machine.run?_cons x m _ program
  | binary op left right ihl ihr =>
    rw [compile, List.append_assoc, List.append_assoc, ihl, ihr,
      List.singleton_append, Machine.run?_cons]
    rfl
  | neg operand ih =>
    rw [compile, List.append_assoc, ih, List.singleton_append,
      Machine.run?_cons]
    rfl
  | call function argument ih =>
    rw [compile, List.append_assoc, ih, List.singleton_append,
      Machine.run?_cons]
    rfl

/-- The strict machine gets to the end of the program of a formula, with the
value as the only one on its stack. -/
theorem execute?_compile (f : Formula) (x : α) (m : Machine α) :
    m.execute? f.compile x = some (f.eval x, ⟨[]⟩) := by
  have hrun := f.run?_compile_append x m.clear []
  rw [List.append_nil, Machine.run?_nil] at hrun
  unfold Machine.execute?
  rw [hrun]
  rfl

/-- **Compilation preserves meaning.** Over every type of scalars, and whatever
is on the stack before, the program of a formula gives the value of the formula
and leaves the stack empty, and no pop finds the stack empty on the way. Hence
a compiled formula has the same values when it is evaluated again and again on
one machine as when it is evaluated once on a new one. -/
theorem execute_compile (f : Formula) :
    (∀ (α : Type) [Scalar α] (x : α) (m : Machine α),
      m.execute? f.compile x = some (f.eval x, ⟨[]⟩)
        ∧ m.execute f.compile x = (f.eval x, ⟨[]⟩))
      ∧ ∀ (source : String) (scratch : Machine Float) (xs : List Float),
        ((⟨source, f.compile⟩ : CompiledFormula).evalEach scratch xs).1
            = xs.map (⟨source, f.compile⟩ : CompiledFormula).eval
          ∧ xs.map (⟨source, f.compile⟩ : CompiledFormula).eval
            = xs.map f.eval := by
  have hvalue : ∀ (α : Type) [Scalar α] (x : α) (m : Machine α),
      m.execute f.compile x = (f.eval x, ⟨[]⟩) := fun α _ x m =>
    Machine.execute_of_execute? (f.execute?_compile x m)
  refine ⟨fun α _ x m => ⟨f.execute?_compile x m, hvalue α x m⟩,
    fun source scratch xs => ⟨Machine.executeEach_fst scratch f.compile xs,
      List.map_congr_left fun x _ => ?_⟩⟩
  exact congrArg Prod.fst (hvalue Float x Machine.new)

end Formula

end Stepwise
