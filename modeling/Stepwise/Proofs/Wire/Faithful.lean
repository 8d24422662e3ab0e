import Mathlib.Data.List.Forall2
import Mathlib.Data.List.GetD
import Mathlib.Data.Nat.Digits.Lemmas
import Mathlib.Data.Nat.Log
import Mathlib.Data.Option.Basic
import Stepwise.Wire.Linear

/-!
# Nothing is lost on the wire

Whoever reads a result from the wire has no more than a tree, and reads a record
by the names of its fields. To such a reader two trees are the same when they
are `Alike`, which leaves the order of the fields open. An encoding is
`Faithful` when only equal values come out alike, so that a reader could tell
any two values apart.

Faithfulness is kept by lists, and by records whose fields are faithful and have
names of their own. What needs an argument is told by few lemmas. Alternatives
are told apart by their `kind`, which no field of theirs is called
(`Alike.kind`). A missing text is not a text. An integer is its sign and the
digits of its magnitude (`limbs_eq_digits`), and the digits have no zero at the
end that could be there or not. The main result,
`alike_solutions_reductions_outcomes_iff`, is about the three results of linear
algebra with all that is nested in them.
-/

namespace Stepwise.Wire

/-! ## What a reader can tell apart -/

/-- **Two trees that a reader takes for the same.** The fields of a record are
looked up by name, so their order does not matter; that of a list does. -/
inductive Alike : Wire → Wire → Prop where
  | null : Alike null null
  | bool (value : Bool) : Alike (bool value) (bool value)
  | int (value : Int) : Alike (int value) (int value)
  | double (value : Float) : Alike (double value) (double value)
  | text (value : String) : Alike (text value) (text value)
  | list {items items' : List Wire} (each : List.Forall₂ Alike items items') :
    Alike (list items) (list items')
  | record {fields fields' : List (String × Wire)}
    (each : ∀ name,
      Option.Rel Alike (field? fields name) (field? fields' name)) :
    Alike (record fields) (record fields')

/-- A field stands in its record. -/
theorem exists_mem_of_field?_eq_some {fields : List (String × Wire)}
    {name : String} {w : Wire} (h : field? fields name = some w) :
    ∃ field ∈ fields, field.2 = w := by
  obtain ⟨field, hfield, rfl⟩ := Option.map_eq_some_iff.mp h
  exact ⟨field, List.mem_of_find?_eq_some hfield, rfl⟩

/-- Every tree is like itself. -/
theorem Alike.refl : ∀ w : Wire, Alike w w
  | .null => .null
  | .bool value => .bool value
  | .int value => .int value
  | .double value => .double value
  | .text value => .text value
  | .list items => .list (List.forall₂_same.mpr fun w _ => Alike.refl w)
  | .record fields => .record fun name => by
    cases h : field? fields name with
    | none => exact .none
    | some w => exact .some (Alike.refl w)
  termination_by w => w
  decreasing_by
    · have hlt := List.sizeOf_lt_of_mem ‹_›
      simp only [list.sizeOf_spec]
      omega
    · obtain ⟨⟨key, value⟩, hmem, rfl⟩ := exists_mem_of_field?_eq_some h
      have hlt := List.sizeOf_lt_of_mem hmem
      simp only [Prod.mk.sizeOf_spec, record.sizeOf_spec] at hlt ⊢
      omega

section Reading

variable {fields fields' : List (String × Wire)} {w w' v v' : Wire}

/-- **A field is read by its name.** -/
theorem Alike.field (h : Alike (.record fields) (.record fields'))
    (name : String) (hw : field? fields name = some w)
    (hw' : field? fields' name = some w') : Alike w w' := by
  cases h with
  | record each =>
    have hname := each name
    rw [hw, hw'] at hname
    cases hname with
    | some hww' => exact hww'

/-- **Alternatives are told apart** by their kind. -/
theorem Alike.kind {kind kind' : String}
    (h : Alike (.record (("kind", .text kind) :: fields))
      (.record (("kind", .text kind') :: fields'))) : kind = kind' := by
  cases h.field "kind" rfl rfl
  rfl

theorem Alike.pair (h : Alike (.list [w, v]) (.list [w', v'])) :
    Alike w w' ∧ Alike v v' := by
  cases h with
  | list each =>
    cases each with
    | cons hw hrest =>
      cases hrest with
      | cons hv _ => exact ⟨hw, hv⟩

end Reading

/-! ## Faithful encodings -/

/-- **An encoding that loses nothing**: only equal values come out alike. -/
def Faithful {α : Type} (encode : α → Wire) : Prop :=
  ∀ a b, Alike (encode a) (encode b) → a = b

theorem Faithful.alike_iff {α : Type} {encode : α → Wire}
    (h : Faithful encode) (a b : α) :
    Alike (encode a) (encode b) ↔ a = b :=
  ⟨h a b, fun hab => hab ▸ Alike.refl (encode a)⟩

theorem faithful_bool : Faithful bool := by
  intro a b h
  cases h
  rfl

theorem faithful_int : Faithful int := by
  intro a b h
  cases h
  rfl

theorem faithful_text : Faithful text := by
  intro a b h
  cases h
  rfl

theorem faithful_nat : Faithful nat := fun a b h =>
  Int.ofNat.inj (faithful_int a b h)

/-- A missing text is not a text. -/
theorem faithful_optional_text : Faithful (optional text) := by
  intro a b h
  cases a with
  | none =>
    cases b with
    | none => rfl
    | some s' => cases h
  | some s =>
    cases b with
    | none => cases h
    | some s' => rw [faithful_text s s' h]

/-- **Lists are told apart** by their members. -/
theorem Faithful.listOf {α : Type} {encode : α → Wire} (h : Faithful encode) :
    Faithful (listOf encode) := by
  intro as bs hlist
  cases hlist with
  | list each =>
    rw [List.forall₂_map_left_iff, List.forall₂_map_right_iff] at each
    rw [← List.forall₂_eq_eq_eq]
    exact each.imp h

/-! ## Numbers -/

/-- A number of so many bits has so many digits to base `2^32`. -/
theorem log_limbBase {n : Nat} (hn : n ≠ 0) :
    Nat.log limbBase n = n.log2 / 32 := by
  have hbase : limbBase = 2 ^ 32 := rfl
  have hlow : 2 ^ n.log2 ≤ n := Nat.log2_self_le hn
  have hhigh : n < 2 ^ (n.log2 + 1) := Nat.lt_log2_self
  refine Nat.log_eq_of_pow_le_of_lt_pow ?_ ?_
  · rw [hbase, ← pow_mul]
    exact le_trans (Nat.pow_le_pow_right (by decide) (by omega)) hlow
  · rw [hbase, ← pow_mul]
    exact lt_of_lt_of_le hhigh (Nat.pow_le_pow_right (by decide) (by omega))

/-- **The digits of a natural number**, the last of which is not zero. -/
theorem limbs_eq_digits (n : Nat) : limbs n = Nat.digits limbBase n := by
  unfold limbs
  split
  · rw [‹n = 0›, Nat.digits_zero]
  · have hlength : (Nat.digits limbBase n).length = n.log2 / 32 + 1 := by
      rw [Nat.length_digits limbBase n (by decide) ‹_›, log_limbBase ‹_›]
    refine List.ext_getElem (by rw [hlength]; simp) fun k _ hk => ?_
    rw [List.getElem_map, List.getElem_range, ← List.getD_eq_getElem _ 0 hk,
      Nat.getD_digits n k (by decide), Nat.pow_eq]

/-- **An integer** is its sign and its magnitude. -/
theorem faithful_ofInt : Faithful ofInt := by
  intro a b h
  obtain ⟨hsign, hdigits⟩ := h.pair
  have hlimbs := faithful_nat.listOf _ _ hdigits
  rw [limbs_eq_digits, limbs_eq_digits, Nat.digits_inj_iff] at hlimbs
  calc a = a.sign * a.natAbs := (Int.sign_mul_natAbs a).symm
    _ = b.sign * b.natAbs := by rw [faithful_int _ _ hsign, hlimbs]
    _ = b := Int.sign_mul_natAbs b

theorem faithful_ofRat : Faithful ofRat := by
  intro a b h
  obtain ⟨hnum, hden⟩ := h.pair
  exact Rat.ext (faithful_ofInt _ _ hnum)
    (Int.ofNat.inj (faithful_ofInt _ _ hden))

theorem faithful_ofVector : Faithful ofVector :=
  faithful_ofRat.listOf

theorem faithful_ofMatrix : Faithful ofMatrix := by
  rintro ⟨rows, cols, cells, hsize⟩ ⟨rows', cols', cells', hsize'⟩ h
  obtain rfl := faithful_nat _ _ (h.field "rows" rfl rfl)
  obtain rfl := faithful_nat _ _ (h.field "cols" rfl rfl)
  obtain rfl := Array.toList_inj.mp
    (faithful_ofVector _ _ (h.field "data" rfl rfl))
  rfl

/-! ## Accounts -/

/-- **What a step shows**: a remark shows no value at all. -/
theorem faithful_ofSnapshot : Faithful ofSnapshot := by
  intro s s' h
  cases s with
  | matrix value =>
    cases s' with
    | matrix value' =>
      rw [faithful_ofMatrix _ _ (h.field "value" rfl rfl)]
    | scalar value' => exact absurd h.kind (by decide)
    | none => exact absurd h.kind (by decide)
  | scalar value =>
    cases s' with
    | matrix value' => exact absurd h.kind (by decide)
    | scalar value' => rw [faithful_ofRat _ _ (h.field "value" rfl rfl)]
    | none => exact absurd h.kind (by decide)
  | none =>
    cases s' with
    | matrix value' => exact absurd h.kind (by decide)
    | scalar value' => exact absurd h.kind (by decide)
    | none => rfl

theorem faithful_ofStep : Faithful ofStep := by
  rintro ⟨label, rationale, snapshot, depth⟩
    ⟨label', rationale', snapshot', depth'⟩ h
  obtain rfl := faithful_text _ _ (h.field "label" rfl rfl)
  obtain rfl := faithful_optional_text _ _ (h.field "rationale" rfl rfl)
  obtain rfl := faithful_ofSnapshot _ _ (h.field "snapshot" rfl rfl)
  obtain rfl := faithful_nat _ _ (h.field "depth" rfl rfl)
  rfl

/-- **A trace** with all its steps. -/
theorem faithful_ofTrace : Faithful ofTrace := fun _ _ h =>
  faithful_ofStep.listOf _ _ (h.field "steps" rfl rfl)

theorem faithful_ofReduction : Faithful ofReduction := by
  rintro ⟨rref, pivots, trace⟩ ⟨rref', pivots', trace'⟩ h
  obtain rfl := faithful_ofMatrix _ _ (h.field "rref" rfl rfl)
  obtain rfl := faithful_nat.listOf _ _ (h.field "pivot_columns" rfl rfl)
  obtain rfl := faithful_ofTrace _ _ (h.field "trace" rfl rfl)
  rfl

/-! ## Answers -/

theorem faithful_ofDirection : Faithful ofDirection := by
  rintro ⟨index, direction⟩ ⟨index', direction'⟩ h
  obtain rfl := faithful_nat _ _ (h.field "variable" rfl rfl)
  obtain rfl := faithful_ofVector _ _ (h.field "direction" rfl rfl)
  rfl

/-- **A report**: what is said of a family of solutions stands beside its
kind. -/
theorem faithful_ofReport : Faithful ofReport := by
  intro r r' h
  cases r with
  | unique values =>
    cases r' with
    | unique values' =>
      rw [faithful_ofVector _ _ (h.field "values" rfl rfl)]
    | infinite family' => exact absurd h.kind (by decide)
    | inconsistent row' => exact absurd h.kind (by decide)
  | infinite family =>
    cases r' with
    | unique values' => exact absurd h.kind (by decide)
    | infinite family' =>
      obtain ⟨particular, directions, homogeneous⟩ := family
      obtain ⟨particular', directions', homogeneous'⟩ := family'
      obtain rfl := faithful_ofVector _ _ (h.field "particular" rfl rfl)
      obtain rfl :=
        faithful_ofDirection.listOf _ _ (h.field "directions" rfl rfl)
      obtain rfl := faithful_bool _ _ (h.field "homogeneous" rfl rfl)
      rfl
    | inconsistent row' => exact absurd h.kind (by decide)
  | inconsistent row =>
    cases r' with
    | unique values' => exact absurd h.kind (by decide)
    | infinite family' => exact absurd h.kind (by decide)
    | inconsistent row' => rw [faithful_nat _ _ (h.field "row" rfl rfl)]

/-- **What Cramer's rule says**, with a report of its own kind nested where the
rule does not apply to the shape. -/
theorem faithful_ofCramerOutcome : Faithful ofCramerOutcome := by
  intro o o' h
  cases o with
  | solved solution determinant numerators =>
    cases o' with
    | solved solution' determinant' numerators' =>
      obtain rfl := faithful_ofVector _ _ (h.field "solution" rfl rfl)
      obtain rfl := faithful_ofRat _ _ (h.field "determinant" rfl rfl)
      obtain rfl := faithful_ofVector _ _ (h.field "numerators" rfl rfl)
      rfl
    | notApplicable determinant' => exact absurd h.kind (by decide)
    | fallback report' => exact absurd h.kind (by decide)
  | notApplicable determinant =>
    cases o' with
    | solved solution' determinant' numerators' =>
      exact absurd h.kind (by decide)
    | notApplicable determinant' =>
      rw [faithful_ofRat _ _ (h.field "determinant" rfl rfl)]
    | fallback report' => exact absurd h.kind (by decide)
  | fallback report =>
    cases o' with
    | solved solution' determinant' numerators' =>
      exact absurd h.kind (by decide)
    | notApplicable determinant' => exact absurd h.kind (by decide)
    | fallback report' =>
      rw [faithful_ofReport _ _ (h.field "report" rfl rfl)]

theorem faithful_methodName : Faithful fun m : LinearMethod => text m.name := by
  intro m m' h
  have hname := faithful_text _ _ h
  cases m <;> cases m'
  · rfl
  · exact absurd hname (by decide)
  · exact absurd hname (by decide)
  · rfl

theorem faithful_ofLinearSolution : Faithful ofLinearSolution := by
  rintro ⟨report, trace, methodUsed⟩ ⟨report', trace', methodUsed'⟩ h
  obtain rfl := faithful_ofReport _ _ (h.field "report" rfl rfl)
  obtain rfl := faithful_ofTrace _ _ (h.field "trace" rfl rfl)
  obtain rfl := faithful_methodName _ _ (h.field "method_used" rfl rfl)
  rfl

/-- **The results of linear algebra are told apart** on the wire, by their
answers and by every step of their accounts. -/
theorem alike_solutions_reductions_outcomes_iff (s s' : LinearSolution)
    (r r' : Reduction) (o o' : CramerOutcome) :
    (Alike (ofLinearSolution s) (ofLinearSolution s') ↔ s = s')
      ∧ (Alike (ofReduction r) (ofReduction r') ↔ r = r')
      ∧ (Alike (ofCramerOutcome o) (ofCramerOutcome o') ↔ o = o') :=
  ⟨faithful_ofLinearSolution.alike_iff s s',
    faithful_ofReduction.alike_iff r r',
    faithful_ofCramerOutcome.alike_iff o o'⟩

end Stepwise.Wire
