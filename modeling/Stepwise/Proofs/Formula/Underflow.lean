import Stepwise.Proofs.Formula.Decoding

/-!
# Programs that find the stack empty

The machine takes a NaN for a value that its stack does not hold and goes on.
After that the stack holds one value, made from the NaN, and it never again
holds fewer: the instructions that follow put the values of formulas above this
one value, as they would on an empty stack, until one of them needs it as an
operand (`Machine.exists_layout_step`).

So what a run leaves is known whatever the program (`Machine.exists_layout_run`),
and there are two cases. If one value is left, it is a NaN provided that no
instruction makes something else of a NaN. If several are left, the result is
the value of a formula whose program ends the program, and nothing shows that a
value was missing (`Machine.execute_underflow`).
-/

namespace Stepwise

namespace Instruction

/-- The instruction gives a NaN if its first operand is one. -/
def KeepsNaN {α : Type} [Scalar α] (isNaN : α → Prop) : Instruction → Prop
  | .const _ | .var => True
  | .binary op => ∀ a b, isNaN a → isNaN (Scalar.binary op a b)
  | .neg => ∀ a, isNaN a → isNaN (Scalar.neg a)
  | .call function => ∀ a, isNaN a → isNaN (Scalar.apply function a)

/-- Whether the arithmetic itself fixes what the instruction gives. Powers and
the other functions are left to the platform. -/
def isArithmetic : Instruction → Bool
  | .const _ | .var | .neg => true
  | .binary op => op ≠ .pow
  | .call function => function = .sqrt ∨ function = .abs

end Instruction

namespace Machine

section Layout

variable {α : Type} [Scalar α]

/-! ## What lies below -/

/-- **An instruction that has its operands leaves alone what is below them.** -/
theorem step_append {x : α} {s : List α} {i : Instruction}
    (hi : i.operands ≤ s.length) (below : List α) :
    (⟨s ++ below⟩ : Machine α).step x i
      = ⟨((⟨s⟩ : Machine α).step x i).stack ++ below⟩ := by
  cases i with
  | const value => rfl
  | var => rfl
  | binary op =>
    match s, hi with
    | _ :: _ :: _, _ => rfl
  | neg =>
    match s, hi with
    | _ :: _, _ => rfl
  | call function =>
    match s, hi with
    | _ :: _, _ => rfl

/-- **An instruction that does not have its operands** leaves one value, for
there is at most one below. Its first operand is that one or a NaN. -/
theorem exists_step_eq {isNaN : α → Prop} (hnan : isNaN Scalar.nan) {x : α}
    {s : List α} {i : Instruction} (hi : s.length < i.operands)
    (bottom : Option α) :
    ∃ t, (⟨s ++ bottom.toList⟩ : Machine α).step x i = ⟨[t]⟩
      ∧ (i.KeepsNaN isNaN → (∀ t ∈ bottom, isNaN t) → isNaN t) := by
  have hfirst (h : ∀ t ∈ bottom, isNaN t) : isNaN (bottom.getD Scalar.nan) := by
    cases bottom with
    | none => exact hnan
    | some t => exact h t rfl
  cases i with
  | const value => exact absurd hi (Nat.not_lt_zero _)
  | var => exact absurd hi (Nat.not_lt_zero _)
  | binary op =>
    match s, bottom, hi with
    | [], none, _ => exact ⟨_, rfl, fun hkeeps _ => hkeeps _ _ hnan⟩
    -- the value at the bottom is taken for the second operand
    | [], some t, _ => exact ⟨_, rfl, fun hkeeps _ => hkeeps _ _ hnan⟩
    | [b], none, _ => exact ⟨_, rfl, fun hkeeps h => hkeeps _ b (hfirst h)⟩
    | [b], some t, _ => exact ⟨_, rfl, fun hkeeps h => hkeeps _ b (hfirst h)⟩
  | neg =>
    match s, bottom, hi with
    | [], none, _ => exact ⟨_, rfl, fun hkeeps h => hkeeps _ (hfirst h)⟩
    | [], some t, _ => exact ⟨_, rfl, fun hkeeps h => hkeeps _ (hfirst h)⟩
  | call function =>
    match s, bottom, hi with
    | [], none, _ => exact ⟨_, rfl, fun hkeeps h => hkeeps _ (hfirst h)⟩
    | [], some t, _ => exact ⟨_, rfl, fun hkeeps h => hkeeps _ (hfirst h)⟩

/-- An instruction that has its operands does to the values what it does to the
formulas. -/
theorem step_evaluate {x : α} {formulas : Machine Formula} {i : Instruction}
    (hi : i.operands ≤ formulas.stack.length) :
    (formulas.evaluate x).step x i
      = (formulas.step Formula.var i).evaluate x := by
  refine step_of_step? ?_
  rw [step?_evaluate, (step?_eq_some_step_iff Formula.var formulas i).mpr hi]
  rfl

/-- **The stack after the instructions `ran`**: on top the values of formulas
that compile to the last of these, and below them at most one value, `bottom`,
which is a NaN if all of these instructions keep one. -/
structure Layout (isNaN : α → Prop) (x : α) (ran : Program)
    (bottom : Option α) (m : Machine α) : Prop where
  exists_formulas : ∃ (before : Program) (formulas : Machine Formula),
    ran = before ++ formulas.code
      ∧ m.stack = (formulas.evaluate x).stack ++ bottom.toList
  isNaN_bottom : (∀ i ∈ ran, i.KeepsNaN isNaN) → ∀ t ∈ bottom, isNaN t

theorem layout_clear (isNaN : α → Prop) (x : α) (m : Machine α) :
    Layout isNaN x [] none m.clear where
  exists_formulas := ⟨[], new, rfl, rfl⟩
  isNaN_bottom := fun _ => nofun

variable {isNaN : α → Prop} {x : α} {ran : Program} {bottom : Option α}
  {m : Machine α}

/-- **One instruction**: there is a value at the bottom after it if there was
one before it, or if it finds the stack empty. -/
theorem Layout.exists_step (hnan : isNaN Scalar.nan)
    (h : Layout isNaN x ran bottom m) (i : Instruction) :
    ∃ bottom', Layout isNaN x (ran ++ [i]) bottom' (m.step x i)
      ∧ (bottom' = none ↔ bottom = none ∧ i.operands ≤ m.stack.length) := by
  obtain ⟨before, formulas, hran, hstack⟩ := h.exists_formulas
  have hprior (hkeeps : ∀ j ∈ ran ++ [i], j.KeepsNaN isNaN) :
      ∀ t ∈ bottom, isNaN t :=
    h.isNaN_bottom fun j hj => hkeeps j (List.mem_append_left _ hj)
  have hlength : (formulas.evaluate x).stack.length = formulas.stack.length :=
    List.length_map _
  have hm : m = ⟨(formulas.evaluate x).stack ++ bottom.toList⟩ := by
    rw [← hstack]
  by_cases hi : i.operands ≤ formulas.stack.length
  · -- the instruction works on the formulas
    refine ⟨bottom, ⟨⟨before, formulas.step Formula.var i, ?_, ?_⟩, hprior⟩, ?_⟩
    · have hstep := (step?_eq_some_step_iff Formula.var formulas i).mpr hi
      rw [hran, code_of_step? hstep, List.append_assoc]
    · rw [hm, step_append (hlength.symm ▸ hi), ← step_evaluate hi]
    · refine (and_iff_left_of_imp fun _ => Nat.le_trans hi ?_).symm
      rw [hstack, List.length_append, hlength]
      exact Nat.le_add_right _ _
  · -- the formulas are used up, and what was at the bottom with them
    have hlt := Nat.lt_of_not_le hi
    obtain ⟨t, hstep, ht⟩ :=
      exists_step_eq (x := x) hnan (hlength.symm ▸ hlt) bottom
    refine ⟨some t, ⟨⟨ran ++ [i], new, (List.append_nil _).symm, ?_⟩, ?_⟩, ?_⟩
    · rw [hm, hstep]
      rfl
    · rintro hkeeps _ ⟨⟩
      exact ht (hkeeps i (List.mem_append_right _ (List.mem_singleton_self i)))
        (hprior hkeeps)
    · refine iff_of_false nofun fun ⟨hnone, hle⟩ => hi ?_
      rw [hstack, hnone, Option.toList_none, List.append_nil, hlength] at hle
      exact hle

/-- **A whole program**: there is a value at the bottom after it if there was
one before it, or if some instruction finds the stack empty. -/
theorem Layout.exists_run (hnan : isNaN Scalar.nan)
    (h : Layout isNaN x ran bottom m) (program : Program) :
    ∃ bottom', Layout isNaN x (ran ++ program) bottom' (m.run x program)
      ∧ (bottom' = none ↔ bottom = none ∧ m.Supplies x program) := by
  induction program generalizing ran bottom m with
  | nil =>
    rw [List.append_nil]
    exact ⟨bottom, h, (and_iff_left (supplies_nil x m)).symm⟩
  | cons i program ih =>
    obtain ⟨bottom₁, hstep, hnone₁⟩ := h.exists_step hnan i
    obtain ⟨bottom₂, hrun, hnone₂⟩ := ih hstep
    rw [List.append_assoc] at hrun
    refine ⟨bottom₂, hrun, ?_⟩
    rw [hnone₂, hnone₁, and_assoc, ← supplies_cons_iff]

/-- An instruction leaves something on the stack. -/
theorem stack_step_ne_nil (x : α) (m : Machine α) (i : Instruction) :
    (m.step x i).stack ≠ [] := by
  cases i <;> exact List.cons_ne_nil _ _

/-- **Only the empty program leaves nothing.** -/
theorem stack_run_eq_nil_iff (x : α) (m : Machine α) (program : Program) :
    (m.clear.run x program).stack = [] ↔ program = [] := by
  refine ⟨fun h => ?_, fun h => h ▸ rfl⟩
  obtain hnil | ⟨before, i, rfl⟩ := List.eq_nil_or_concat program
  · exact hnil
  · rw [List.concat_eq_append, run, List.foldl_append] at h
    exact absurd h (stack_step_ne_nil x _ i)

/-- Above the value at the bottom stand the values of formulas, the topmost one
of a formula whose program has been run last. -/
theorem Layout.pop_of_length_ne_one {t : α}
    (h : Layout isNaN x ran (some t) m) (hlength : m.stack.length ≠ 1) :
    ∃ (before : Program) (f : Formula),
      ran = before ++ f.compile ∧ m.pop.1 = f.eval x := by
  obtain ⟨before, ⟨formulas⟩, hran, hstack⟩ := h.exists_formulas
  cases formulas with
  | nil => exact absurd (congrArg List.length hstack) hlength
  | cons f rest =>
    refine ⟨before ++ code ⟨rest⟩, f, ?_, ?_⟩
    · rw [hran, List.append_assoc, ← code_push]
      rfl
    · rw [pop, hstack]
      rfl

/-- The value at the bottom is the result if it is the only one. -/
theorem Layout.pop_of_length_eq_one {t : α}
    (h : Layout isNaN x ran (some t) m) (hlength : m.stack.length = 1) :
    m.pop.1 = t := by
  obtain ⟨before, ⟨formulas⟩, -, hstack⟩ := h.exists_formulas
  have hnone : (evaluate x ⟨formulas⟩).stack = [] := by
    rw [hstack, List.length_append] at hlength
    exact List.length_eq_zero_iff.mp (Nat.succ.inj hlength)
  rw [pop, hstack, hnone]
  rfl

end Layout

end Machine

/-! ## Doubles and single-precision numbers -/

section Arithmetic

open Float.Model (UnpackedFloat Format)

variable (format : Format) {u : UnpackedFloat}

theorem isNaN_add (hu : u.isNaN = true) (v : UnpackedFloat) :
    (UnpackedFloat.add format u v).isNaN = true := by
  cases u with
  | notANumber => cases v <;> rfl
  | _ => cases hu

theorem isNaN_sub (hu : u.isNaN = true) (v : UnpackedFloat) :
    (UnpackedFloat.sub format u v).isNaN = true := by
  cases u with
  | notANumber => cases v <;> rfl
  | _ => cases hu

theorem isNaN_mul (hu : u.isNaN = true) (v : UnpackedFloat) :
    (UnpackedFloat.mul format u v).isNaN = true := by
  cases u with
  | notANumber => cases v <;> rfl
  | _ => cases hu

theorem isNaN_div (hu : u.isNaN = true) (v : UnpackedFloat) :
    (UnpackedFloat.div format u v).isNaN = true := by
  cases u with
  | notANumber => cases v <;> rfl
  | _ => cases hu

theorem isNaN_neg (hu : u.isNaN = true) :
    (u.neg).isNaN = true := by
  cases u with
  | notANumber => rfl
  | _ => cases hu

theorem isNaN_abs (hu : u.isNaN = true) :
    (u.abs).isNaN = true := by
  cases u with
  | notANumber => rfl
  | _ => cases hu

theorem isNaN_sqrt (hu : u.isNaN = true) :
    (UnpackedFloat.sqrt format u).isNaN = true := by
  cases u with
  | notANumber => rfl
  | _ => cases hu

theorem isNaN_pack_double (hu : u.isNaN = true) :
    (Float.Model.pack u).isNaN = true := by
  cases u with
  | notANumber => rfl
  | _ => cases hu

theorem isNaN_pack_single (hu : u.isNaN = true) :
    (Float32.Model.pack u).isNaN = true := by
  cases u with
  | notANumber => rfl
  | _ => cases hu

/-- **Arithmetic on doubles keeps a NaN.** -/
theorem Instruction.keepsNaN_double {i : Instruction}
    (hi : i.isArithmetic = true) :
    i.KeepsNaN fun v : Float => v.isNaN = true := by
  cases i with
  | const value => trivial
  | var => trivial
  | binary op =>
    intro a b ha
    cases op with
    | add => exact isNaN_pack_double (isNaN_add _ ha _)
    | sub => exact isNaN_pack_double (isNaN_sub _ ha _)
    | mul => exact isNaN_pack_double (isNaN_mul _ ha _)
    | div => exact isNaN_pack_double (isNaN_div _ ha _)
    | pow => cases hi
  | neg => exact fun a ha => isNaN_pack_double (isNaN_neg ha)
  | call function =>
    intro a ha
    cases function with
    | sqrt => exact isNaN_pack_double (isNaN_sqrt _ ha)
    | abs => exact isNaN_pack_double (isNaN_abs ha)
    | _ => cases hi

/-- **Arithmetic on single-precision numbers keeps a NaN.** -/
theorem Instruction.keepsNaN_single {i : Instruction}
    (hi : i.isArithmetic = true) :
    i.KeepsNaN fun v : Float32 => v.isNaN = true := by
  cases i with
  | const value => trivial
  | var => trivial
  | binary op =>
    intro a b ha
    cases op with
    | add => exact isNaN_pack_single (isNaN_add _ ha _)
    | sub => exact isNaN_pack_single (isNaN_sub _ ha _)
    | mul => exact isNaN_pack_single (isNaN_mul _ ha _)
    | div => exact isNaN_pack_single (isNaN_div _ ha _)
    | pow => cases hi
  | neg => exact fun a ha => isNaN_pack_single (isNaN_neg ha)
  | call function =>
    intro a ha
    cases function with
    | sqrt => exact isNaN_pack_single (isNaN_sqrt _ ha)
    | abs => exact isNaN_pack_single (isNaN_abs ha)
    | _ => cases hi

end Arithmetic

/-! ## What malformed programs give -/

namespace Machine

/-- **What a program gives that finds the stack empty**, over any scalars with
any notion of a NaN. Only the empty program leaves nothing, and its result is
the NaN that is taken for what is missing. If an instruction finds the stack
empty and one value is left, this is a NaN as long as the instructions of the
program keep a NaN, as all arithmetic does. If several values are left, the
result is the value of a formula that the last part of the program is the
program of. -/
theorem execute_underflow {α : Type} [Scalar α] {isNaN : α → Prop}
    (hnan : isNaN Scalar.nan) (x : α) (m : Machine α) (program : Program) :
    ((m.clear.run x program).stack = [] ↔ program = [])
      ∧ ((m.clear.run x program).stack = [] →
        (m.execute program x).1 = Scalar.nan)
      ∧ (¬ m.clear.Supplies x program →
        ((m.clear.run x program).stack.length = 1 →
            (∀ i ∈ program, i.KeepsNaN isNaN) → isNaN (m.execute program x).1)
          ∧ ((m.clear.run x program).stack.length ≠ 1 →
            ∃ (before : Program) (f : Formula), program = before ++ f.compile
              ∧ (m.execute program x).1 = f.eval x))
      ∧ ∀ i : Instruction, i.isArithmetic = true →
        (i.KeepsNaN fun v : Float => v.isNaN = true)
          ∧ i.KeepsNaN fun v : Float32 => v.isNaN = true := by
  refine ⟨stack_run_eq_nil_iff x m program, fun hempty => ?_, fun hshort => ?_,
    fun i hi => ⟨i.keepsNaN_double hi, i.keepsNaN_single hi⟩⟩
  · rw [execute, pop, hempty]
  · obtain ⟨bottom, hlayout, hnone⟩ :=
      (layout_clear isNaN x m).exists_run hnan program
    rw [List.nil_append] at hlayout
    obtain ⟨t, rfl⟩ : ∃ t, bottom = some t :=
      Option.ne_none_iff_exists'.mp fun h => hshort (hnone.mp h).2
    refine ⟨fun hlength hkeeps => ?_, hlayout.pop_of_length_ne_one⟩
    rw [execute, hlayout.pop_of_length_eq_one hlength]
    exact hlayout.isNaN_bottom hkeeps t rfl

/-- The sum of 1 and of the negative of nothing is a NaN. -/
theorem execute_underflow_neg_add :
    (Scalar.nan : Float).isNaN = true
      ∧ ¬ (new : Machine Float).clear.Supplies 0
        [.neg, .const 1, .binary .add]
      ∧ ((new : Machine Float).execute [.neg, .const 1, .binary .add] 0).1.isNaN
        = true := by
  have hshort : ¬ (new : Machine Float).clear.Supplies 0
      [.neg, .const 1, .binary .add] := by
    rw [supplies_cons_iff]
    exact fun h => absurd h.1 (by decide)
  refine ⟨rfl, hshort, ?_⟩
  obtain ⟨-, -, hunderflow, harithmetic⟩ :=
    @execute_underflow Float _ (fun v => v.isNaN = true) rfl 0 new
      [.neg, .const 1, .binary .add]
  refine (hunderflow hshort).1 rfl ?_
  simp only [List.forall_mem_cons]
  exact ⟨(harithmetic _ rfl).1, (harithmetic _ rfl).1, (harithmetic _ rfl).1,
    nofun⟩

/-- **A value put above the NaN hides it**: the program `[neg, const 1]` finds
the stack empty and gives 1. -/
theorem execute_neg_const :
    ¬ (new : Machine Float).clear.Supplies 0 [.neg, .const 1]
      ∧ ((new : Machine Float).execute [.neg, .const 1] 0).1.isNaN = false := by
  rw [supplies_cons_iff]
  exact ⟨fun h => absurd h.1 (by decide), rfl⟩

end Machine

end Stepwise
