import Stepwise.Linear.Solver
import Stepwise.Proofs.Determinant.Singular
import Stepwise.Proofs.Solution.Solving

/-!
# Cramer's rule agrees with elimination

A square system whose determinant is not zero has one solution, which is the
vector of the quotients of Cramer's rule. With determinant zero a solution is
never the only one, since a vector that is sent to zero can be added to it. What
elimination reports is right in each case (`RatMatrix.solveSystem_describes`),
so it is a unique solution exactly when Cramer's rule has an answer, and the
same one (`RatMatrix.solveLinear_methods_agree`).
-/

namespace Stepwise

open Matrix

/-- A report that is right about a system with one solution gives it. -/
theorem SolutionReport.Describes.eq_unique {a : RatMatrix} {b : List Rat}
    {report : SolutionReport} (h : report.Describes a b) {values : List Rat}
    (hvalues : ∀ x, a.IsSolution b x ↔ x = values) :
    report = .unique values := by
  have hsol : a.IsSolution b values := (hvalues values).mpr rfl
  cases report with
  | inconsistent row => exact absurd hsol (h values)
  | unique values' => rw [(h values).mp hsol]
  | infinite family =>
    obtain ⟨⟨x, y, hne, hx, hy⟩, _⟩ := h
    exact absurd (((hvalues x).mp hx).trans ((hvalues y).mp hy).symm) hne

namespace RatMatrix

/-! ## The quotients -/

/-- The quotients of Cramer's rule. -/
def cramerValues (a : RatMatrix) (b : List Rat) : List Rat :=
  ((List.range a.cols).map fun i => (a.cramerNumerator b i).result).map
    fun numerator => numerator / (a.expand 0).result

theorem length_cramerValues (a : RatMatrix) (b : List Rat) :
    (a.cramerValues b).length = a.cols := by
  rw [cramerValues, List.length_map, List.length_map, List.length_range]

section Square

variable {a : RatMatrix} {n : Nat} (hr : a.rows = n) (hc : a.cols = n)

include hr hc

theorem toMatrix_replaceColumn (b : List Rat) (j : Fin n) :
    (a.replaceColumn j b).toMatrix n
      = (a.toMatrix n).updateCol j (toVector b n) := by
  ext i c
  rw [toMatrix_apply, replaceColumn, hr, hc,
    entry_ofFn_of_lt _ i.isLt c.isLt, Matrix.updateCol_apply, toMatrix_apply,
    toVector_apply]
  simp only [Fin.ext_iff]

/-- **A numerator** is the determinant with a column replaced. -/
theorem result_cramerNumerator (b : List Rat) (j : Fin n) :
    (a.cramerNumerator b j).result
      = (a.toMatrix n).cramer (toVector b n) j := by
  have hexpand : ((a.replaceColumn j b).expand 0).result
      = ((a.replaceColumn j b).toMatrix n).det := result_expand hr hc
  rw [Matrix.cramer_apply, ← toMatrix_replaceColumn hr hc, ← hexpand]
  rfl

theorem toVector_cramerValues (b : List Rat) :
    toVector (a.cramerValues b) n
      = (a.toMatrix n).det⁻¹ • (a.toMatrix n).cramer (toVector b n) := by
  funext j
  rw [toVector_apply, cramerValues, List.map_map, getD_map_range, hc,
    if_pos j.isLt, Pi.smul_apply, ← result_cramerNumerator hr hc,
    ← result_expand hr hc]
  exact (inv_mul_eq_div _ _).symm

variable {b : List Rat} (hb : b.length = n)

include hb

/-- The solutions of a square system, as functions of an index. -/
theorem isSolution_iff_mulVec {x : List Rat} (hx : x.length = n) :
    a.IsSolution b x ↔ a.toMatrix n *ᵥ toVector x n = toVector b n :=
  mulVector_eq_ok_iff_mulVec hr hc hx hb

theorem length_of_isSolution {x : List Rat} (hx : a.IsSolution b x) :
    x.length = n :=
  ((mulVector_eq_ok_iff (hb.trans hr.symm)).mp hx).1.trans hc

/-! ## Regular systems -/

/-- **Cramer's rule gives a solution.** -/
theorem isSolution_cramerValues (hdet : (a.toMatrix n).det ≠ 0) :
    a.IsSolution b (a.cramerValues b) := by
  rw [isSolution_iff_mulVec hr hc hb ((length_cramerValues a b).trans hc),
    toVector_cramerValues hr hc, Matrix.mulVec_smul, Matrix.mulVec_cramer,
    smul_smul, inv_mul_cancel₀ hdet, one_smul]

/-- **It is the only one**, as the difference of two is sent to zero. -/
theorem isSolution_iff_eq_cramerValues (hdet : (a.toMatrix n).det ≠ 0)
    (x : List Rat) : a.IsSolution b x ↔ x = a.cramerValues b := by
  have hvalues := isSolution_cramerValues hr hc hb hdet
  constructor
  · intro hx
    have hl := length_of_isSolution hr hc hb hx
    have hl' := length_of_isSolution hr hc hb hvalues
    rw [isSolution_iff_mulVec hr hc hb hl] at hx
    rw [isSolution_iff_mulVec hr hc hb hl'] at hvalues
    rw [← toVector_eq_iff hl hl', ← sub_eq_zero]
    refine Matrix.eq_zero_of_mulVec_eq_zero hdet ?_
    rw [Matrix.mulVec_sub, hx, hvalues, sub_self]
  · rintro rfl
    exact hvalues

/-! ## Singular systems -/

/-- **With determinant zero a solution is never the only one.** -/
theorem exists_ne_isSolution (hdet : (a.toMatrix n).det = 0) {x : List Rat}
    (hx : a.IsSolution b x) : ∃ y, y ≠ x ∧ a.IsSolution b y := by
  obtain ⟨f, hne, hf⟩ := Matrix.exists_mulVec_eq_zero_iff.mpr hdet
  have hl := length_of_isSolution hr hc hb hx
  have hlen : (List.ofFn (toVector x n + f)).length = n := List.length_ofFn
  refine ⟨List.ofFn (toVector x n + f), fun heq => hne ?_, ?_⟩
  · rw [← toVector_eq_iff hlen hl, toVector_ofFn] at heq
    exact left_eq_add.mp heq.symm
  · rw [isSolution_iff_mulVec hr hc hb hl] at hx
    rw [isSolution_iff_mulVec hr hc hb hlen, toVector_ofFn,
      Matrix.mulVec_add, hx, hf, add_zero]

end Square

/-! ## The two methods -/

section Methods

variable {a : RatMatrix} {b : List Rat}

theorem solveLinear_of_length_ne (hb : b.length ≠ a.rows)
    (method : LinearMethod) :
    a.solveLinear method b
      = .error (.shape (.rightHandSide b.length a.rows)) := by
  cases method with
  | gaussJordan =>
    rw [solveLinear, solveSystem, augmentColumn, if_neg hb]
    rfl
  | cramer =>
    rw [solveLinear, cramer, if_pos hb]
    rfl

theorem solveLinear_gaussJordan {worked : Worked SolutionReport}
    (h : a.solveSystem b = .ok worked) :
    a.solveLinear .gaussJordan b
      = .ok ⟨worked.result, worked.trace, .gaussJordan⟩ := by
  rw [solveLinear, h]
  rfl

variable (hb : b.length = a.rows)

include hb

/-- A system that is not square is handed to elimination, with a note. -/
theorem solveLinear_cramer_of_ne (hsq : a.rows ≠ a.cols)
    {worked : Worked SolutionReport} (h : a.solveSystem b = .ok worked) :
    ∃ label, a.solveLinear .cramer b
      = .ok ⟨worked.result, Step.note label :: worked.trace,
          .gaussJordan⟩ := by
  rw [solveLinear, cramer, if_neg (not_not_intro hb), isSquare,
    beq_eq_false_iff_ne.mpr hsq, if_neg Bool.false_ne_true, h]
  exact ⟨_, rfl⟩

theorem solveLinear_cramer_of_eq_zero (hsq : a.rows = a.cols)
    (hdet : (a.expand 0).result = 0) :
    a.solveLinear .cramer b = .error .singular := by
  rw [solveLinear, cramer, if_neg (not_not_intro hb), isSquare,
    if_pos (beq_iff_eq.mpr hsq), cramerSquare]
  simp only [if_pos hdet]
  rfl

theorem solveLinear_cramer_of_ne_zero (hsq : a.rows = a.cols)
    (hdet : (a.expand 0).result ≠ 0) :
    ∃ trace, a.solveLinear .cramer b
      = .ok ⟨.unique (a.cramerValues b), trace, .cramer⟩ := by
  rw [solveLinear, cramer, if_neg (not_not_intro hb), isSquare,
    if_pos (beq_iff_eq.mpr hsq), cramerSquare]
  simp only [if_neg hdet]
  exact ⟨_, rfl⟩

end Methods

/-- **The two methods agree on every input.** With a right-hand side of the
wrong length both give the same error. A system that is not square gets the
report of elimination from both, by the second with a note in front of the
account. A square system is solved by Cramer's rule exactly when elimination
reports a unique solution, with the same report, and is refused as singular
exactly when elimination reports several solutions or none. -/
theorem solveLinear_methods_agree (a : RatMatrix) (b : List Rat) :
    (b.length ≠ a.rows → ∀ method, a.solveLinear method b
        = .error (.shape (.rightHandSide b.length a.rows)))
      ∧ (b.length = a.rows → ∃ g, a.solveLinear .gaussJordan b = .ok g
        ∧ (a.rows ≠ a.cols → ∃ label, a.solveLinear .cramer b
          = .ok ⟨g.report, Step.note label :: g.trace, .gaussJordan⟩)
        ∧ (a.rows = a.cols →
          ((∃ c, a.solveLinear .cramer b = .ok c)
              ↔ ∃ values, g.report = .unique values)
            ∧ (∀ c, a.solveLinear .cramer b = .ok c →
              c.report = g.report ∧ c.methodUsed = .cramer)
            ∧ (a.solveLinear .cramer b = .error .singular
              ↔ (∃ family, g.report = .infinite family)
                ∨ ∃ row, g.report = .inconsistent row))) := by
  refine ⟨solveLinear_of_length_ne, fun hb => ?_⟩
  obtain ⟨worked, hok, hd⟩ := solveSystem_describes hb
  refine ⟨_, solveLinear_gaussJordan hok,
    fun hsq => solveLinear_cramer_of_ne hb hsq hok, fun hsq => ?_⟩
  have hdet : (a.expand 0).result = (a.toMatrix a.rows).det :=
    result_expand rfl hsq.symm
  by_cases hzero : (a.expand 0).result = 0
  · have hcramer := solveLinear_cramer_of_eq_zero hb hsq hzero
    rw [hdet] at hzero
    rw [hcramer]
    cases hreport : worked.result with
    | inconsistent row =>
      exact ⟨iff_of_false nofun nofun, nofun, iff_of_true rfl (.inr ⟨row, rfl⟩)⟩
    | unique values =>
      -- the one solution would not be the only one
      rw [hreport] at hd
      obtain ⟨y, hne, hy⟩ := exists_ne_isSolution rfl hsq.symm hb hzero
        ((hd values).mpr rfl)
      exact absurd ((hd y).mp hy) hne
    | infinite family =>
      exact ⟨iff_of_false nofun nofun, nofun,
        iff_of_true rfl (.inl ⟨family, rfl⟩)⟩
  · obtain ⟨trace, hcramer⟩ := solveLinear_cramer_of_ne_zero hb hsq hzero
    rw [hdet] at hzero
    have hunique : worked.result = .unique (a.cramerValues b) :=
      hd.eq_unique (isSolution_iff_eq_cramerValues rfl hsq.symm hb hzero)
    rw [hcramer, hunique]
    refine ⟨iff_of_true ⟨_, rfl⟩ ⟨_, rfl⟩, ?_, iff_of_false nofun ?_⟩
    · rintro c ⟨⟩
      exact ⟨rfl, rfl⟩
    · rintro (⟨_, ⟨⟩⟩ | ⟨_, ⟨⟩⟩)

/-- A regular system of two equations, with a right-hand side of the wrong
length and with a good one, and a system of two equations in three unknowns. -/
theorem solveLinear_two_equations :
    let a : RatMatrix := ⟨2, 2, #[1, 2, 3, 4], rfl⟩
    let wide : RatMatrix := ⟨2, 3, #[1, 2, -1, 2, 4, 1], rfl⟩
    ([1].length ≠ a.rows
        ∧ a.solveLinear .cramer [1] = .error (.shape (.rightHandSide 1 2)))
      ∧ ([5, 6].length = a.rows ∧ a.rows = a.cols
        ∧ ∃ g c, a.solveLinear .gaussJordan [5, 6] = .ok g
          ∧ a.solveLinear .cramer [5, 6] = .ok c
          ∧ g.report = .unique [-4, 9 / 2] ∧ c.report = g.report)
      ∧ [3, 3].length = wide.rows ∧ wide.rows ≠ wide.cols
        ∧ ∃ g label, wide.solveLinear .gaussJordan [3, 3] = .ok g
          ∧ wide.solveLinear .cramer [3, 3]
            = .ok ⟨g.report, Step.note label :: g.trace, .gaussJordan⟩ := by
  intro a wide
  refine ⟨⟨by decide, ?_⟩, ⟨rfl, rfl, ?_⟩, rfl, by decide, ?_⟩
  · exact (solveLinear_methods_agree a [1]).1 (by decide) .cramer
  · obtain ⟨g, hg, _, hsquare⟩ :=
      (solveLinear_methods_agree a [5, 6]).2 rfl
    obtain ⟨hok, hsame, _⟩ := hsquare rfl
    have hreport : (a.solveLinear .gaussJordan [5, 6]).map (·.report)
        = .ok (.unique [-4, 9 / 2]) := by decide +kernel
    rw [hg] at hreport
    obtain ⟨c, hc⟩ := hok.mpr ⟨_, Except.ok.inj hreport⟩
    exact ⟨g, c, hg, hc, Except.ok.inj hreport, (hsame c hc).1⟩
  · obtain ⟨g, hg, hwide, _⟩ :=
      (solveLinear_methods_agree wide [3, 3]).2 rfl
    obtain ⟨label, hlabel⟩ := hwide (by decide)
    exact ⟨g, label, hg, hlabel⟩

end RatMatrix

end Stepwise
