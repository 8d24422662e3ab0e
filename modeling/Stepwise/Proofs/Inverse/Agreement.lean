import Stepwise.Linear.Solver
import Stepwise.Proofs.Determinant.Adjugate
import Stepwise.Proofs.Inverse.Elimination

/-!
# Two methods, one inverse

A matrix has at most one inverse on both sides (`RatMatrix.IsInverse.unique`),
and it has one exactly when its determinant is not zero. A method of inversion
that returns an inverse, and refuses only a matrix whose determinant is zero, is
thereby known completely (`RatMatrix.Decides.eq_ok_iff`,
`RatMatrix.Decides.eq_error_iff`). Elimination is such a method for every order,
and the adjugate for the orders for which it is offered, so the two of them agree
on everything but the words of the refusal (`RatMatrix.inversion_methods_agree`).
-/

namespace Stepwise

/-- How each method refuses a matrix without inverse. -/
def InverseMethod.Refuses : InverseMethod → LinearError → Prop
  | .adjugate, error => error = .singular
  | .gaussJordan, error => ∃ witness, error = .notInvertible witness

namespace RatMatrix

/-! ## Inverses -/

/-- **`b` is the inverse of `a`**: both are square of one order, and either
product is the identity. -/
structure IsInverse (a b : RatMatrix) : Prop where
  square : a.rows = a.cols
  rows_eq : b.rows = a.rows
  cols_eq : b.cols = a.rows
  left : b.times a = identity a.rows
  right : a.times b = identity a.rows

namespace IsInverse

variable {a b c : RatMatrix}

/-- The inverse of the inverse is the matrix. -/
theorem symm (h : a.IsInverse b) : b.IsInverse a where
  square := h.rows_eq.trans h.cols_eq.symm
  rows_eq := h.rows_eq.symm
  cols_eq := h.square.symm.trans h.rows_eq.symm
  left := h.rows_eq.symm ▸ h.right
  right := h.rows_eq.symm ▸ h.left

/-- **A matrix has one inverse only.** -/
theorem unique (h : a.IsInverse b) (h' : a.IsInverse c) : b = c :=
  calc b = b.times (identity b.cols) := (times_identity b).symm
    _ = b.times (a.times c) := by rw [h.cols_eq, h'.right]
    _ = (b.times a).times c := (times_assoc b a c).symm
    _ = (identity c.rows).times c := by rw [h.left, h'.rows_eq]
    _ = c := identity_times c

theorem det_ne_zero (h : a.IsInverse b) : (a.toMatrix a.rows).det ≠ 0 :=
  det_ne_zero_of_times_eq_identity h.cols_eq h.left

end IsInverse

/-! ## Methods that decide -/

/-- **What comes of a method of inversion**: the inverse, or a refusal of the
given kind if the determinant is zero. -/
inductive Decides (a : RatMatrix) (IsRefusal : LinearError → Prop) :
    Except LinearError (Worked RatMatrix) → Prop
  | inverse {worked : Worked RatMatrix} (h : a.IsInverse worked.result) :
    Decides a IsRefusal (.ok worked)
  | refusal {error : LinearError} (hdet : (a.toMatrix a.rows).det = 0)
    (h : IsRefusal error) : Decides a IsRefusal (.error error)

namespace Decides

variable {a : RatMatrix} {IsRefusal : LinearError → Prop}
  {outcome : Except LinearError (Worked RatMatrix)}

/-- **What is returned is the inverse**, and the inverse is returned if there
is one. -/
theorem eq_ok_iff (h : a.Decides IsRefusal outcome) (b : RatMatrix) :
    (∃ worked, outcome = .ok worked ∧ worked.result = b)
      ↔ a.IsInverse b := by
  cases h with
  | inverse h =>
    constructor
    · rintro ⟨_, ⟨⟩, rfl⟩
      exact h
    · exact fun hb => ⟨_, rfl, h.unique hb⟩
  | refusal hdet _ =>
    constructor
    · rintro ⟨_, ⟨⟩, _⟩
    · exact fun hb => absurd hdet hb.det_ne_zero

/-- **A matrix is refused** exactly when its determinant is zero. -/
theorem eq_error_iff (h : a.Decides IsRefusal outcome) :
    (∃ error, outcome = .error error ∧ IsRefusal error)
      ↔ (a.toMatrix a.rows).det = 0 := by
  cases h with
  | inverse h =>
    constructor
    · rintro ⟨_, ⟨⟩, _⟩
    · exact fun hdet => absurd hdet h.det_ne_zero
  | refusal hdet h => exact ⟨fun _ => hdet, fun _ => ⟨_, rfl, h⟩⟩

end Decides

/-! ## The two methods -/

section Square

variable {a : RatMatrix} (hsq : a.rows = a.cols)

include hsq

/-- Elimination decides for every order but zero. -/
theorem decides_invertByElimination (hpos : 0 < a.rows) :
    a.Decides InverseMethod.gaussJordan.Refuses a.invertByElimination := by
  have hle : (a.reduceColumns a.cols).rank ≤ a.cols :=
    Nat.le.intro (rank_reduceAll_add_length_freeColumns a)
  rcases Nat.lt_or_eq_of_le hle with hlt | hfull
  · obtain ⟨v, hv, hlen, hne, hzero⟩ := invertByElimination_of_lt hsq hlt
    rw [hv]
    exact .refusal
      ((det_eq_zero_iff rfl hsq.symm).mpr ⟨v, hlen, hne, hzero⟩) ⟨v, rfl⟩
  · obtain ⟨worked, hok, hresult⟩ :=
      invertByElimination_of_full hsq hpos hfull
    obtain ⟨hleft, hright⟩ := rowTransform_inverse_of_full hsq hfull
    rw [hok]
    refine .inverse ⟨hsq, ?_, ?_, ?_, ?_⟩
    · rw [hresult, rows_rowTransform]
    · rw [hresult, cols_rowTransform]
    · rw [hresult, hleft]
    · rw [hresult, hright]

/-- The adjugate divided by a determinant that is not zero is the inverse. -/
theorem isInverse_scale_adjugate (hdet : (a.toMatrix a.rows).det ≠ 0) :
    a.IsInverse
      (a.cofactors.transpose.scale ((a.toMatrix a.rows).det)⁻¹) := by
  have hadj : (a.cofactors.transpose.scale
      ((a.toMatrix a.rows).det)⁻¹).toMatrix a.rows
        = ((a.toMatrix a.rows).det)⁻¹ • (a.toMatrix a.rows).adjugate := by
    rw [← toMatrix_transpose_cofactors rfl hsq.symm]
    exact toMatrix_scale rfl rfl _
  have hcols : (a.cofactors.transpose.scale
      ((a.toMatrix a.rows).det)⁻¹).cols = a.rows := rfl
  refine ⟨hsq, rfl, hcols,
    eq_of_toMatrix_eq (n := a.rows) rfl hsq.symm rfl rfl ?_,
    eq_of_toMatrix_eq (n := a.rows) rfl rfl rfl rfl ?_⟩
  · rw [toMatrix_times hcols, hadj, Matrix.smul_mul, Matrix.adjugate_mul,
      smul_smul, inv_mul_cancel₀ hdet, one_smul, toMatrix_identity]
  · rw [toMatrix_times hsq.symm, hadj, Matrix.mul_smul, Matrix.mul_adjugate,
      smul_smul, inv_mul_cancel₀ hdet, one_smul, toMatrix_identity]

/-- The adjugate decides for the orders for which it is offered. -/
theorem decides_invertByAdjugate (hle : a.rows ≤ adjugateMaxOrder) :
    a.Decides InverseMethod.adjugate.Refuses a.invertByAdjugate := by
  have hresult : (a.expand 0).result = (a.toMatrix a.rows).det :=
    result_expand rfl hsq.symm
  unfold invertByAdjugate
  rw [isSquare, beq_iff_eq.mpr hsq]
  simp only [Bool.not_true, Bool.false_eq_true, if_false,
    if_neg (Nat.not_lt.mpr hle), hresult]
  split
  · exact .refusal ‹_› rfl
  · exact .inverse (isInverse_scale_adjugate hsq ‹_›)

/-- **Each method decides** for the orders for which it is offered. -/
theorem decides_invert (method : InverseMethod) (hpos : 0 < a.rows)
    (hle : method = .adjugate → a.rows ≤ adjugateMaxOrder) :
    a.Decides method.Refuses (a.invert method) := by
  cases method with
  | adjugate => exact decides_invertByAdjugate hsq (hle rfl)
  | gaussJordan => exact decides_invertByElimination hsq hpos

theorem invertByAdjugate_of_lt (hlt : adjugateMaxOrder < a.rows) :
    a.invertByAdjugate = .error (.shape (.adjugateOrder a.rows)) := by
  unfold invertByAdjugate
  rw [isSquare, beq_iff_eq.mpr hsq]
  simp only [Bool.not_true, Bool.false_eq_true, if_false, if_pos hlt]

end Square

/-- A matrix that is not square is refused before anything is worked out. -/
theorem invert_of_ne {a : RatMatrix} (hne : a.rows ≠ a.cols)
    (method : InverseMethod) :
    a.invert method = .error (.shape (.inverse a.rows a.cols)) := by
  have hsq : a.isSquare = false := beq_eq_false_iff_ne.mpr hne
  cases method with
  | adjugate => rw [invert, invertByAdjugate, hsq]; rfl
  | gaussJordan => rw [invert, invertByElimination, hsq]; rfl

/-- **What a method returns is the inverse.** -/
theorem isInverse_of_invert_eq_ok {a : RatMatrix} (hpos : 0 < a.rows)
    {method : InverseMethod} {worked : Worked RatMatrix}
    (h : a.invert method = .ok worked) : a.IsInverse worked.result := by
  have hsq : a.rows = a.cols := by
    by_contra hne
    rw [invert_of_ne hne] at h
    cases h
  have hle : method = .adjugate → a.rows ≤ adjugateMaxOrder := by
    rintro rfl
    by_contra hlt
    rw [invert, invertByAdjugate_of_lt hsq (Nat.lt_of_not_le hlt)] at h
    cases h
  exact ((decides_invert hsq method hpos hle).eq_ok_iff _).mp ⟨worked, h, rfl⟩

/-! ## Agreement -/

/-- **The two methods of inversion agree.** Up to order three, whatever the
entries, the adjugate gives an inverse exactly when elimination does, and the
same one; it finds the determinant zero exactly when elimination finds a vector
that is sent to zero; and there is no third outcome. Above order three the
adjugate is not offered, and a matrix that is not square is refused by both. -/
theorem inversion_methods_agree (a : RatMatrix) :
    (a.rows = a.cols → 0 < a.rows → a.rows ≤ 3 →
        (∀ b, (∃ worked, a.invertByAdjugate = .ok worked
              ∧ worked.result = b)
            ↔ ∃ worked, a.invertByElimination = .ok worked
              ∧ worked.result = b)
          ∧ (a.invertByAdjugate = .error .singular
            ↔ ∃ v, a.invertByElimination = .error (.notInvertible v))
          ∧ ((∃ worked, a.invertByAdjugate = .ok worked)
            ∨ a.invertByAdjugate = .error .singular))
      ∧ (a.rows = a.cols → 3 < a.rows →
        a.invertByAdjugate = .error (.shape (.adjugateOrder a.rows)))
      ∧ (a.rows ≠ a.cols →
        a.invertByAdjugate = .error (.shape (.inverse a.rows a.cols))
          ∧ a.invertByElimination
            = .error (.shape (.inverse a.rows a.cols))) := by
  refine ⟨fun hsq hpos hle => ?_, fun hsq hlt => invertByAdjugate_of_lt hsq hlt,
    fun hne => ⟨invert_of_ne hne .adjugate, invert_of_ne hne .gaussJordan⟩⟩
  have hadj := decides_invertByAdjugate hsq hle
  have helim := decides_invertByElimination hsq hpos
  have hsingular : a.invertByAdjugate = .error .singular
      ↔ (a.toMatrix a.rows).det = 0 := by
    rw [← hadj.eq_error_iff]
    constructor
    · exact fun h => ⟨_, h, rfl⟩
    · rintro ⟨_, h, rfl⟩
      exact h
  have hwitness : (∃ v, a.invertByElimination = .error (.notInvertible v))
      ↔ (a.toMatrix a.rows).det = 0 := by
    rw [← helim.eq_error_iff]
    constructor
    · exact fun ⟨v, h⟩ => ⟨_, h, v, rfl⟩
    · rintro ⟨_, h, v, rfl⟩
      exact ⟨v, h⟩
  refine ⟨fun b => (hadj.eq_ok_iff b).trans (helim.eq_ok_iff b).symm,
    hsingular.trans hwitness.symm, ?_⟩
  cases hcase : a.invertByAdjugate with
  | ok worked => exact .inl ⟨worked, rfl⟩
  | error error =>
    rw [hcase] at hadj
    cases hadj with
    | refusal _ h => exact .inr (congrArg Except.error h)

/-- A matrix of order three that needs an exchange of rows, one of order two
without inverse, the identity of order four, and a row. -/
theorem inversion_methods_agree_three :
    let a : RatMatrix := ⟨3, 3, #[0, 2, 1, 1, 0, 3, 2, 1, 1], rfl⟩
    let c : RatMatrix := ⟨2, 2, #[1, 2, 2, 4], rfl⟩
    let d := identity 4
    let e : RatMatrix := ⟨1, 2, #[1, 2], rfl⟩
    (a.rows = a.cols ∧ 0 < a.rows ∧ a.rows ≤ 3
        ∧ ∃ worked, a.invertByElimination = .ok worked
          ∧ worked.result = a.cofactors.transpose.scale (1 / 11))
      ∧ (c.rows = c.cols ∧ 0 < c.rows ∧ c.rows ≤ 3
        ∧ ∃ v, c.invertByElimination = .error (.notInvertible v))
      ∧ (d.rows = d.cols ∧ 3 < d.rows
        ∧ d.invertByAdjugate = .error (.shape (.adjugateOrder 4)))
      ∧ e.rows ≠ e.cols
        ∧ e.invertByAdjugate = .error (.shape (.inverse 1 2)) := by
  intro a c d e
  obtain ⟨ha, -, -⟩ := inversion_methods_agree a
  obtain ⟨hc, -, -⟩ := inversion_methods_agree c
  obtain ⟨-, hd, -⟩ := inversion_methods_agree d
  obtain ⟨-, -, he⟩ := inversion_methods_agree e
  have hvalue : a.invertByAdjugate.map (·.result)
      = .ok (a.cofactors.transpose.scale (1 / 11)) := by decide +kernel
  have hsingular : c.invertByAdjugate = .error .singular := by decide +kernel
  have hinverse : ∃ worked, a.invertByAdjugate = .ok worked
      ∧ worked.result = a.cofactors.transpose.scale (1 / 11) := by
    cases hok : a.invertByAdjugate with
    | ok worked =>
      rw [hok] at hvalue
      exact ⟨worked, rfl, Except.ok.inj hvalue⟩
    | error error =>
      rw [hok] at hvalue
      cases hvalue
  exact ⟨⟨rfl, by decide, by decide,
      ((ha rfl (by decide) (by decide)).1 _).mp hinverse⟩,
    ⟨rfl, by decide, by decide,
      (hc rfl (by decide) (by decide)).2.1.mp hsingular⟩,
    ⟨rfl, by decide, hd rfl (by decide)⟩, by decide, (he (by decide)).1⟩

end RatMatrix

end Stepwise
