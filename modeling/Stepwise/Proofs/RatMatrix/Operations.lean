import Stepwise.Proofs.RatMatrix.Construction

/-!
# Two ways of keeping a matrix

A law of matrices is to hold whichever way matrices are kept: as matrices, whose
operations are formulas, or as lists of cells, whose operations are loops with a
running sum or pieces of rows. So the operations are taken together
(`MatrixOperations`), once for each way (`MatrixOperations.formulas`,
`MatrixOperations.loops`), and a law is a statement about any of them.

An operation refuses arguments that do not fit. What it does is therefore a
value together with the condition under which it comes to that value
(`ComesTo`), and so is what several operations do one after the other
(`ComesTo.bind`). `MatrixOperations.Follows` says this of each operation, and
both ways follow the formulas, `MatrixOperations.follows_formulas` and
`MatrixOperations.follows_loops`.
-/

namespace Stepwise

open RatMatrix

/-! ## Operations that may refuse -/

/-- **A computation that comes to a value** exactly when its arguments fit. -/
def ComesTo {ε α : Type} (outcome : Except ε α) (fits : Prop) (value : α) :
    Prop :=
  ∀ result, outcome = .ok result ↔ fits ∧ result = value

namespace ComesTo

variable {ε α β : Type} {outcome : Except ε α} {fits fits' : Prop} {value : α}

theorem of_eq_ok (h : outcome = .ok value) : ComesTo outcome True value := by
  intro result
  rw [h, Except.ok.injEq]
  exact ⟨fun heq => ⟨trivial, heq.symm⟩, fun hr => hr.2.symm⟩

theorem of_ite [Decidable fits] {e : ε} :
    ComesTo (if fits then .ok value else .error e) fits value := by
  intro result
  by_cases h : fits
  · rw [if_pos h]
    exact (of_eq_ok rfl result).trans (and_congr_left' (iff_of_true trivial h))
  · rw [if_neg h]
    exact ⟨fun heq => (nomatch heq), fun hr => absurd hr.1 h⟩

/-- A test for what does not fit. -/
theorem of_ite_error {misfits : Prop} [Decidable misfits] {e : ε} :
    ComesTo (if misfits then .error e else .ok value) (¬misfits) value := by
  rw [← ite_not]
  exact of_ite

theorem of_eq {outcome' : Except ε α} (heq : outcome' = outcome)
    (h : ComesTo outcome fits value) : ComesTo outcome' fits value :=
  heq ▸ h

theorem congr (h : ComesTo outcome fits value) (hfits : fits ↔ fits') :
    ComesTo outcome fits' value := fun result =>
  (h result).trans (and_congr_left' hfits)

/-- Only the value under the condition matters. -/
theorem congr_value (h : ComesTo outcome fits value) {value' : α}
    (hvalue : fits → value = value') : ComesTo outcome fits value' :=
  fun result => (h result).trans
    (and_congr_right fun hfits => by rw [hvalue hfits])

theorem eq_ok (h : ComesTo outcome fits value) (hfits : fits) :
    outcome = .ok value :=
  (h value).mpr ⟨hfits, rfl⟩

/-- **One computation after the other**: the arguments of both must fit. -/
theorem bind (h : ComesTo outcome fits value) (next : α → Except ε β)
    {value' : β} (h' : ComesTo (next value) fits' value') :
    ComesTo (outcome >>= next) (fits ∧ fits') value' := by
  intro result
  constructor
  · intro heq
    cases houtcome : outcome with
    | error e =>
      rw [houtcome] at heq
      cases heq
    | ok value₀ =>
      obtain ⟨hfits, rfl⟩ := (h value₀).mp houtcome
      rw [houtcome] at heq
      obtain ⟨hfits', hvalue'⟩ := (h' result).mp heq
      exact ⟨⟨hfits, hfits'⟩, hvalue'⟩
  · rintro ⟨⟨hfits, hfits'⟩, rfl⟩
    rw [h.eq_ok hfits]
    exact h'.eq_ok hfits'

/-- What a value is kept as, and what an error is called, makes no
difference. -/
theorem map (h : ComesTo outcome fits value) (f : α → β) :
    ComesTo (outcome.map f) fits (f value) := by
  have hbind := h.bind (fun a => .ok (f a)) (of_eq_ok rfl)
  cases outcome <;> exact hbind.congr (iff_of_eq (and_true fits))

theorem refusing {outcome : Except LinearError α}
    (h : ComesTo outcome fits value) :
    ComesTo (Stepwise.refusing outcome) fits value := by
  intro result
  refine Iff.trans ?_ (h result)
  cases outcome <;> simp [Stepwise.refusing, Except.mapError]

end ComesTo

/-! ## The operations -/

/-- **The operations on matrices that are kept in one way.** -/
structure MatrixOperations (σ : Type) where
  /-- How a matrix is kept. -/
  keep : RatMatrix → σ
  identity : Nat → Except FlatFailure σ
  transpose : σ → Except FlatFailure σ
  product : σ → σ → Except FlatFailure σ
  mulVector : σ → List Rat → Except FlatFailure (List Rat)
  augment : σ → σ → Except FlatFailure σ
  augmentColumn : σ → List Rat → Except FlatFailure σ
  splitColumns : σ → Nat → Except FlatFailure (σ × σ)
  withColumn : σ → Nat → List Rat → Except FlatFailure σ
  column : σ → Nat → Except FlatFailure (List Rat)
  get : σ → Nat → Nat → Except FlatFailure Rat

namespace MatrixOperations

/-- A value that is missing when an index is outside. -/
def within {α : Type} (value : Option α) : Except FlatFailure α :=
  value.elim (.error .outside) .ok

/-- **The operations by their formulas.** -/
def formulas : MatrixOperations RatMatrix where
  keep m := m
  identity n := .ok (.identity n)
  transpose m := .ok m.transpose
  product a b := refusing (a.product b)
  mulVector m v := refusing (m.mulVector v)
  augment a b := refusing (a.augment b)
  augmentColumn a b := refusing (a.augmentColumn b)
  splitColumns m position := refusing (m.splitColumns position)
  withColumn m j values := refusing (m.withColumn j values)
  column m j := within (m.column? j)
  get m i j := within (m.get? i j)

/-- **The operations by loops** over a list of cells. -/
def loops : MatrixOperations FlatMatrix where
  keep m := m.flat
  identity n := FlatMatrix.identity n
  transpose m := m.transpose
  product a b := a.product b
  mulVector m v := m.mulVector v
  augment a b := a.augment b
  augmentColumn a b := a.augmentColumn b
  splitColumns m position := m.splitColumns position
  withColumn m j values := m.withColumn j values
  column m j := m.column j
  get m i j := m.get i j

/-- **Operations that follow the formulas**, whenever the arguments fit. -/
structure Follows {σ : Type} (ops : MatrixOperations σ) : Prop where
  identity (n : Nat) : ops.identity n = .ok (ops.keep (.identity n))
  transpose (m : RatMatrix) :
    ops.transpose (ops.keep m) = .ok (ops.keep m.transpose)
  product (a b : RatMatrix) :
    ComesTo (ops.product (ops.keep a) (ops.keep b)) (a.cols = b.rows)
      (ops.keep (a.times b))
  mulVector (m : RatMatrix) (v : List Rat) :
    ComesTo (ops.mulVector (ops.keep m) v) (v.length = m.cols) (m.apply v)
  augment (a b : RatMatrix) :
    ComesTo (ops.augment (ops.keep a) (ops.keep b)) (b.rows = a.rows)
      (ops.keep (a.beside b))
  augmentColumn (a : RatMatrix) (b : List Rat) :
    ComesTo (ops.augmentColumn (ops.keep a) b) (b.length = a.rows)
      (ops.keep (a.besideColumn b))
  splitColumns (m : RatMatrix) (position : Nat) :
    ComesTo (ops.splitColumns (ops.keep m) position)
      (0 < position ∧ position < m.cols)
      (ops.keep (m.leftColumns position), ops.keep (m.rightColumns position))
  withColumn (m : RatMatrix) (j : Nat) (values : List Rat) :
    ComesTo (ops.withColumn (ops.keep m) j values)
      (j < m.cols ∧ values.length = m.rows)
      (ops.keep (m.replaceColumn j values))
  column (m : RatMatrix) (j : Nat) :
    ComesTo (ops.column (ops.keep m) j) (m.rows = 0 ∨ j < m.cols) (m.column j)
  get (m : RatMatrix) (i j : Nat) :
    ComesTo (ops.get (ops.keep m) i j) (i < m.rows ∧ j < m.cols) (m.entry i j)

theorem comesTo_within_ite {α : Type} {fits : Prop} [Decidable fits]
    {value : α} :
    ComesTo (within (if fits then some value else none)) fits value := by
  have hite : within (if fits then some value else none)
      = if fits then .ok value else .error .outside := by
    split <;> rfl
  rw [hite]
  exact .of_ite

theorem comesTo_get? (m : RatMatrix) (i j : Nat) :
    ComesTo (within (m.get? i j)) (i < m.rows ∧ j < m.cols) (m.entry i j) := by
  have hget : m.get? i j
      = if i < m.rows ∧ j < m.cols then some (m.entry i j) else none := by
    by_cases h : i < m.rows ∧ j < m.cols
    · rw [get?_eq_some h.1 h.2, if_pos h]
    · rw [get?, if_neg h, if_neg h]
  rw [hget]
  exact comesTo_within_ite

theorem get_flat_eq_within (m : RatMatrix) (i j : Nat) :
    m.flat.get i j = within (m.get? i j) := by
  by_cases h : i < m.rows ∧ j < m.cols
  · rw [get_flat h.1 h.2, get?_eq_some h.1 h.2]
    rfl
  · rw [get_flat_of_le (by omega), get?, if_neg h]
    rfl

/-- **The formulas are followed** by themselves. -/
theorem follows_formulas : formulas.Follows where
  identity _ := rfl
  transpose _ := rfl
  product _ _ := ComesTo.of_ite.refusing
  mulVector _ _ := ComesTo.of_ite.refusing
  augment _ _ := ComesTo.of_ite.refusing
  augmentColumn _ _ := ComesTo.of_ite.refusing
  splitColumns m position :=
    have hfits : ¬(position = 0 ∨ m.cols ≤ position)
        ↔ 0 < position ∧ position < m.cols := by
      omega
    ComesTo.of_ite_error.refusing.congr hfits
  withColumn m j values :=
    have hfits : ¬(m.cols ≤ j ∨ values.length ≠ m.rows)
        ↔ j < m.cols ∧ values.length = m.rows := by
      omega
    ComesTo.of_ite_error.refusing.congr hfits
  column _ _ := comesTo_within_ite
  get m i j := comesTo_get? m i j

/-- **The loops follow the formulas**: each makes what the formula makes, as it
is kept. -/
theorem follows_loops : loops.Follows where
  identity n := identity_flat n
  transpose m := transpose_flat m
  product a b :=
    ((follows_formulas.product a b).map flat).of_eq (product_flat a b)
  mulVector m v :=
    (follows_formulas.mulVector m v).of_eq (mulVector_flat m v)
  augment a b :=
    ((follows_formulas.augment a b).map flat).of_eq (augment_flat a b)
  augmentColumn a b :=
    ((follows_formulas.augmentColumn a b).map flat).of_eq
      (augmentColumn_flat a b)
  splitColumns m position :=
    ((follows_formulas.splitColumns m position).map
      fun parts => (parts.1.flat, parts.2.flat)).of_eq
        (splitColumns_flat m position)
  withColumn m j values :=
    ((follows_formulas.withColumn m j values).map flat).of_eq
      (withColumn_flat m j values)
  column m j := (follows_formulas.column m j).of_eq (column_flat m j)
  get m i j := (comesTo_get? m i j).of_eq (get_flat_eq_within m i j)

end MatrixOperations

end Stepwise
