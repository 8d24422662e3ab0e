import Stepwise.Proofs.Solution.Family

/-!
# Solving a system is sound and complete

A report is right about a system when it says of its solutions what is the
case, which `SolutionReport.Describes` spells out for each of the three
reports. What elimination reports is right (`RatMatrix.solveSystem_describes`),
and since the three cases exclude each other, each report is given exactly when
it is right (`RatMatrix.solveSystem_sound_complete`).
-/

namespace Stepwise

open RatMatrix

/-- **A family that is the solutions of `A x = b`**, each of them once, and
whose parts are what they are named. -/
structure SolutionFamily.Describes (family : SolutionFamily) (a : RatMatrix)
    (b : List Rat) : Prop where
  /-- The points of the family are the solutions. -/
  point_iff : ∀ x, a.IsSolution b x ↔ ∃ t : List Rat,
    t.length = family.directions.length ∧ family.point t = x
  /-- Different parameters give different points. -/
  point_injective : ∀ t t' : List Rat,
    t.length = family.directions.length →
    t'.length = family.directions.length →
    family.point t = family.point t' → t = t'
  /-- The free variables are named in increasing order. -/
  increasing : (family.directions.map (·.index)).Pairwise (· < ·)
  direction_null : ∀ d ∈ family.directions,
    a.mulVector d.direction = .ok (List.replicate a.rows 0)
  /-- A direction has one at its own free variable. -/
  direction_self : ∀ d ∈ family.directions, d.direction.getD d.index 0 = 1
  /-- A direction has zero at the other free variables. -/
  direction_other : ∀ d ∈ family.directions, ∀ d' ∈ family.directions,
    d'.index ≠ d.index → d.direction.getD d'.index 0 = 0
  particular_solves : a.IsSolution b family.particular
  particular_free : ∀ d ∈ family.directions,
    family.particular.getD d.index 0 = 0
  /-- No other solution has all free variables zero. -/
  particular_unique : ∀ x, a.IsSolution b x →
    (∀ d ∈ family.directions, x.getD d.index 0 = 0) → x = family.particular
  homogeneous_iff : family.homogeneous = true ↔ b = List.replicate a.rows 0
  homogeneous_iff_particular :
    family.homogeneous = true ↔ family.particular = List.replicate a.cols 0

/-- **A report that is right about `A x = b`.** -/
def SolutionReport.Describes (a : RatMatrix) (b : List Rat) :
    SolutionReport → Prop
  | .inconsistent _ => ∀ x, ¬a.IsSolution b x
  | .unique values => ∀ x, a.IsSolution b x ↔ x = values
  | .infinite family =>
    (∃ x y, x ≠ y ∧ a.IsSolution b x ∧ a.IsSolution b y)
      ∧ family.Describes a b

namespace RatMatrix

/-! ## The report read off a reduced system -/

section Reading

variable {rref : RatMatrix} {pivots : List Nat}
  (h : rref.IsEchelon rref.unknowns pivots)

include h

/-- There are as many pivots as unknowns exactly when no variable is free. -/
theorem length_eq_unknowns_iff :
    pivots.length = rref.unknowns ↔ rref.freeVariables pivots = [] := by
  have hsum : pivots.length + (rref.freeVariables pivots).length
      = rref.unknowns := h.length_add_length_freeColumns
  rw [← List.length_eq_zero_iff]
  omega

/-- The variables that no pivot belongs to are the free ones. -/
theorem filter_variablePivots :
    ((List.range rref.unknowns).filter fun j =>
        (rref.variablePivots pivots).all fun pivot => decide (pivot.1 ≠ j))
      = rref.freeVariables pivots := by
  refine List.filter_congr fun j _ => Bool.eq_iff_iff.mpr ?_
  rw [variablePivots_eq_zipIdx h, List.all_eq_true, Bool.not_eq_true',
    List.contains_eq_mem, decide_eq_false_iff_not]
  constructor
  · intro hall hj
    obtain ⟨i, hi⟩ := List.mem_iff_getElem?.mp hj
    have hne := hall (j, i) (List.mem_zipIdx_iff_getElem?.mpr hi)
    exact of_decide_eq_true hne rfl
  · intro hj p hp
    refine decide_eq_true fun hpj => hj ?_
    rw [← hpj]
    exact List.mem_of_getElem? (List.mem_zipIdx_iff_getElem?.mp hp)

/-- **What is read off a reduced system**: a contradictory row, or the values of
all variables, or the family of its solutions. -/
theorem classify_cases (homogeneous : Bool) :
    (∃ row, rref.contradiction? = some row
        ∧ rref.classify pivots homogeneous = .inconsistent row)
      ∨ (rref.contradiction? = none
        ∧ rref.freeVariables pivots = []
        ∧ rref.classify pivots homogeneous
          = .unique (rref.solutionFamily pivots homogeneous).particular)
      ∨ (rref.contradiction? = none
        ∧ rref.freeVariables pivots ≠ []
        ∧ rref.classify pivots homogeneous
          = .infinite (rref.solutionFamily pivots homogeneous)) := by
  have hlen : (rref.variablePivots pivots).length = pivots.length := by
    rw [variablePivots_eq_zipIdx h, List.length_zipIdx]
  unfold classify
  cases hc : rref.contradiction? with
  | some row => exact .inl ⟨row, rfl, rfl⟩
  | none =>
    refine .inr ?_
    simp only [hlen, length_eq_unknowns_iff h, filter_variablePivots h]
    by_cases hfree : rref.freeVariables pivots = []
    · exact .inl ⟨trivial, hfree, by rw [if_pos hfree]; rfl⟩
    · exact .inr ⟨trivial, hfree, by rw [if_neg hfree]; rfl⟩

end Reading

/-! ## The family of a system -/

section Family

variable {a : RatMatrix} {b : List Rat} (hb : b.length = a.rows)

include hb

/-- **Vectors satisfy the reduced system** exactly when they are solutions. -/
theorem satisfies_reduce_besideColumn_iff (x : List Rat) :
    (a.besideColumn b).reduce.rref.Satisfies x ↔ a.IsSolution b x :=
  (satisfies_reduce_iff (Nat.succ_pos a.cols) x).trans
    (satisfies_besideColumn_iff hb x)

theorem all_eq_zero_iff :
    (b.all fun x => decide (x = 0)) = true ↔ b = List.replicate a.rows 0 := by
  rw [List.all_eq_true, List.eq_replicate_iff, and_iff_right hb]
  exact forall₂_congr fun x _ => decide_eq_true_iff

/-- The difference of two solutions is sent to zero. -/
theorem mulVector_eq_zero_of_isSolution {x y d : List Rat}
    (hx : a.IsSolution b x) (hy : a.IsSolution b y) (hl : d.length = a.cols)
    (hd : ∀ j, d.getD j 0 = x.getD j 0 - y.getD j 0) :
    a.mulVector d = .ok (List.replicate a.rows 0) := by
  obtain ⟨_, hx⟩ := (mulVector_eq_ok_iff hb).mp hx
  obtain ⟨_, hy⟩ := (mulVector_eq_ok_iff hb).mp hy
  refine (mulVector_eq_ok_iff List.length_replicate).mpr
    ⟨hl, fun i hi => ?_⟩
  simp only [hd, mul_sub]
  rw [Finset.sum_sub_distrib, hx i hi, hy i hi, sub_self, getD_replicate_zero]

variable {rref : RatMatrix} {pivots : List Nat}
  (h : rref.IsEchelon rref.unknowns pivots)
  (hnone : rref.contradiction? = none)
  (hsol : ∀ x, rref.Satisfies x ↔ a.IsSolution b x)

include h hnone hsol

omit hb in
theorem isSolution_point (homogeneous : Bool) (f : Nat → Rat) :
    a.IsSolution b ((rref.solutionFamily pivots homogeneous).point
      ((rref.freeVariables pivots).map f)) :=
  (hsol _).mp (satisfies_point h homogeneous f hnone)

omit hb in
/-- **The particular solution is one**: all parameters are zero there. -/
theorem isSolution_particular :
    a.IsSolution b (rref.particular (rref.variablePivots pivots)) := by
  have hpoint := isSolution_point h hnone hsol true fun _ => 0
  rw [point_zero] at hpoint
  exact hpoint

omit hb in
/-- **The particular solution is the only one** without free part. -/
theorem eq_particular {x : List Rat} (hx : a.IsSolution b x)
    (hz : ∀ v ∈ rref.freeVariables pivots, x.getD v 0 = 0) :
    x = rref.particular (rref.variablePivots pivots) := by
  rw [← point_of_satisfies h true hnone ((hsol x).mpr hx),
    List.map_congr_left hz, point_zero]
  rfl

/-- **A direction is sent to zero**: it leads from the particular solution to
another one. -/
theorem mulVector_direction (hn : rref.unknowns = a.cols) {v : Nat}
    (hv : v ∈ rref.freeVariables pivots) :
    a.mulVector (rref.direction (rref.variablePivots pivots) v)
      = .ok (List.replicate a.rows 0) := by
  refine mulVector_eq_zero_of_isSolution hb
    (isSolution_point h hnone hsol true fun w => if w = v then 1 else 0)
    (isSolution_particular h hnone hsol) ?_ fun j => ?_
  · rw [length_direction, hn]
  · rw [getD_point_single rref pivots true hv, add_sub_cancel_left]

omit hb in
/-- The particular solution is zero exactly when the right-hand side is. -/
theorem particular_eq_zero_iff :
    b = List.replicate a.rows 0
      ↔ rref.particular (rref.variablePivots pivots)
        = List.replicate a.cols 0 := by
  have hzero : a.mulVector (List.replicate a.cols 0)
      = .ok (List.replicate a.rows 0) :=
    mulVector_eq_zero_iff.mpr
      ⟨List.length_replicate, apply_replicate_zero a a.cols⟩
  constructor
  · intro hbz
    refine (eq_particular h hnone hsol (hzero.trans ?_) fun v _ => ?_).symm
    · exact congrArg _ hbz.symm
    · exact getD_replicate_zero _ _
  · intro hpz
    -- zero is a solution, so the right-hand side is what zero is sent to
    have hp : a.mulVector _ = .ok b := isSolution_particular h hnone hsol
    rw [hpz, hzero] at hp
    exact (Except.ok.inj hp).symm

/-- **The family read off a system is the family of its solutions.** -/
theorem describes_solutionFamily (hn : rref.unknowns = a.cols) :
    (rref.solutionFamily pivots (b.all fun x => decide (x = 0))).Describes
      a b := by
  generalize hhom : (b.all fun x => decide (x = 0)) = homogeneous
  have hhomogeneous : homogeneous = true ↔ b = List.replicate a.rows 0 := by
    rw [← hhom]
    exact all_eq_zero_iff hb
  have hlength : ∀ t : List Rat,
      t.length = (rref.solutionFamily pivots homogeneous).directions.length →
      ∃ f : Nat → Rat, t = (rref.freeVariables pivots).map f := by
    intro t ht
    rw [solutionFamily, List.length_map] at ht
    exact exists_parameters (rref.nodup_freeVariables pivots) ht
  have hmem : ∀ {d}, d ∈ (rref.solutionFamily pivots homogeneous).directions →
      d.index ∈ rref.freeVariables pivots ∧ d.direction
        = rref.direction (rref.variablePivots pivots) d.index := by
    intro d hd
    obtain ⟨v, hv, rfl⟩ := List.mem_map.mp hd
    exact ⟨hv, rfl⟩
  constructor
  case point_iff =>
    intro x
    constructor
    · intro hx
      refine ⟨(rref.freeVariables pivots).map fun v => x.getD v 0, ?_,
        point_of_satisfies h homogeneous hnone ((hsol x).mpr hx)⟩
      rw [solutionFamily, List.length_map, List.length_map]
    · rintro ⟨t, ht, rfl⟩
      obtain ⟨f, rfl⟩ := hlength t ht
      exact isSolution_point h hnone hsol homogeneous f
  case point_injective =>
    intro t t' ht ht' heq
    obtain ⟨f, rfl⟩ := hlength t ht
    obtain ⟨f', rfl⟩ := hlength t' ht'
    refine List.map_congr_left fun v hv => ?_
    rw [← getD_point_free h homogeneous f hv, heq,
      getD_point_free h homogeneous f' hv]
  case increasing =>
    rw [solutionFamily, List.map_map]
    exact (List.map_id (rref.freeVariables pivots)).symm ▸
      rref.pairwise_freeVariables pivots
  case direction_null =>
    intro d hd
    rw [(hmem hd).2]
    exact mulVector_direction hb h hnone hsol hn (hmem hd).1
  case direction_self =>
    intro d hd
    rw [(hmem hd).2, getD_direction_free h (hmem hd).1, if_pos rfl]
  case direction_other =>
    intro d hd d' hd' hne
    rw [(hmem hd).2, getD_direction_free h (hmem hd').1, if_neg hne]
  case particular_solves => exact isSolution_particular h hnone hsol
  case particular_free =>
    intro d hd
    exact getD_particular_free h (mem_freeVariables.mp (hmem hd).1).2
  case particular_unique =>
    intro x hx hz
    exact eq_particular h hnone hsol hx
      fun v hv => hz _ (List.mem_map_of_mem hv)
  case homogeneous_iff => exact hhomogeneous
  case homogeneous_iff_particular =>
    exact hhomogeneous.trans (particular_eq_zero_iff h hnone hsol)

end Family

/-! ## Solving -/

section Solving

variable {a : RatMatrix} {b : List Rat} (hb : b.length = a.rows)

include hb

/-- A system is solved by reading off its reduction. -/
theorem exists_solveSystem_eq_ok :
    ∃ worked, a.solveSystem b = .ok worked
      ∧ worked.result = (a.besideColumn b).reduce.rref.classify
          (a.besideColumn b).reduce.pivots (b.all fun x => decide (x = 0)) :=
  ⟨_, by rw [solveSystem, augmentColumn, if_pos hb]; rfl, rfl⟩

/-- **The report on a system is right.** -/
theorem solveSystem_describes :
    ∃ worked, a.solveSystem b = .ok worked
      ∧ worked.result.Describes a b := by
  have h := isEchelon_reduce (a.besideColumn b)
  have hsol := satisfies_reduce_besideColumn_iff hb
  have hn : (a.besideColumn b).reduce.rref.unknowns = a.cols :=
    unknowns_reduce _
  obtain ⟨worked, hok, hresult⟩ := exists_solveSystem_eq_ok hb
  refine ⟨worked, hok, ?_⟩
  rw [hresult]
  rcases classify_cases h (b.all fun x => decide (x = 0)) with
    ⟨row, hc, heq⟩ | ⟨hnone, hfree, heq⟩ | ⟨hnone, hfree, heq⟩
  · rw [heq]
    intro x hx
    exact not_satisfies_of_contradiction? hc x ((hsol x).mpr hx)
  · rw [heq]
    intro x
    constructor
    · intro hx
      refine eq_particular h hnone hsol hx fun v hv => ?_
      rw [hfree] at hv
      exact absurd hv List.not_mem_nil
    · rintro rfl
      exact isSolution_particular h hnone hsol
  · rw [heq]
    refine ⟨?_, describes_solutionFamily hb h hnone hsol hn⟩
    -- two points that differ at a free variable
    obtain ⟨v, hv⟩ := List.exists_mem_of_ne_nil _ hfree
    have hpoint := isSolution_point h hnone hsol true
    refine ⟨_, _, fun heq => ?_, hpoint fun _ => 0, hpoint fun _ => 1⟩
    have hgetD := congrArg (·.getD v 0) heq
    simp only [getD_point_free h _ _ hv] at hgetD
    exact zero_ne_one hgetD

/-- **Solving is sound and complete.** With as many right-hand sides as rows
there is a report. It is *inconsistent* exactly when there is no solution, it is
*unique* with given values exactly when these are the one solution, and it is
*infinite* exactly when there are several; the family it then gives is the
family of all solutions. -/
theorem solveSystem_sound_complete :
    ∃ worked, a.solveSystem b = .ok worked
      ∧ ((∃ row, worked.result = .inconsistent row)
          ↔ ∀ x, ¬a.IsSolution b x)
      ∧ (∀ values, worked.result = .unique values
          ↔ ∀ x, a.IsSolution b x ↔ x = values)
      ∧ ((∃ family, worked.result = .infinite family)
          ↔ ∃ x y, x ≠ y ∧ a.IsSolution b x ∧ a.IsSolution b y)
      ∧ ∀ family, worked.result = .infinite family →
          family.Describes a b := by
  obtain ⟨worked, hok, hd⟩ := solveSystem_describes hb
  refine ⟨worked, hok, ?_⟩
  cases hr : worked.result with
  | inconsistent row =>
    have hnone : ∀ x, ¬a.IsSolution b x := by
      rw [hr] at hd
      exact hd
    refine ⟨iff_of_true ⟨row, rfl⟩ hnone, fun values => ?_,
      iff_of_false nofun ?_, nofun⟩
    · refine iff_of_false nofun fun hv => ?_
      exact hnone values ((hv values).mpr rfl)
    · rintro ⟨x, _, _, hx, _⟩
      exact hnone x hx
  | unique values =>
    have hone : ∀ x, a.IsSolution b x ↔ x = values := by
      rw [hr] at hd
      exact hd
    refine ⟨iff_of_false nofun fun hn => ?_, fun values' => ?_,
      iff_of_false nofun ?_, nofun⟩
    · exact hn values ((hone values).mpr rfl)
    · constructor
      · rintro ⟨⟩
        exact hone
      · intro hv
        exact congrArg SolutionReport.unique
          ((hv values).mp ((hone values).mpr rfl))
    · rintro ⟨x, y, hne, hx, hy⟩
      exact hne (((hone x).mp hx).trans ((hone y).mp hy).symm)
  | infinite family =>
    have hmany : (∃ x y, x ≠ y ∧ a.IsSolution b x ∧ a.IsSolution b y)
        ∧ family.Describes a b := by
      rw [hr] at hd
      exact hd
    obtain ⟨⟨x, y, hne, hx, hy⟩, hfamily⟩ := hmany
    refine ⟨iff_of_false nofun fun hn => hn x hx, fun values => ?_,
      iff_of_true ⟨family, rfl⟩ ⟨x, y, hne, hx, hy⟩, ?_⟩
    · refine iff_of_false nofun fun hv => ?_
      exact hne (((hv x).mp hx).trans ((hv y).mp hy).symm)
    · rintro family' ⟨⟩
      exact hfamily

omit hb in
/-- Two equations in three unknowns whose second variable is free. -/
theorem solveSystem_two_by_three :
    [3, 3].length = (⟨2, 3, #[1, 2, -1, 2, 4, 1], rfl⟩ : RatMatrix).rows
      ∧ ∃ worked,
        (⟨2, 3, #[1, 2, -1, 2, 4, 1], rfl⟩ : RatMatrix).solveSystem [3, 3]
            = .ok worked
          ∧ worked.result = .infinite ⟨[2, 0, -1], [⟨1, [-2, 1, 0]⟩], false⟩
          ∧ SolutionFamily.Describes ⟨[2, 0, -1], [⟨1, [-2, 1, 0]⟩], false⟩
            ⟨2, 3, #[1, 2, -1, 2, 4, 1], rfl⟩ [3, 3] := by
  refine ⟨rfl, ?_⟩
  obtain ⟨worked, hok, _, _, _, hfamily⟩ :=
    solveSystem_sound_complete (a := ⟨2, 3, #[1, 2, -1, 2, 4, 1], rfl⟩)
      (b := [3, 3]) rfl
  have hresult : (RatMatrix.solveSystem ⟨2, 3, #[1, 2, -1, 2, 4, 1], rfl⟩
      [3, 3]).map (·.result)
        = .ok (.infinite ⟨[2, 0, -1], [⟨1, [-2, 1, 0]⟩], false⟩) := by
    decide +kernel
  rw [hok] at hresult
  have hworked := Except.ok.inj hresult
  exact ⟨worked, hok, hworked, hfamily _ hworked⟩

end Solving

end RatMatrix

end Stepwise
