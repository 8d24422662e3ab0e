import Stepwise.Proofs.Solution.Solving

/-!
# The report depends on the solutions only

Two systems in the same unknowns may have different equations, and as many as
they please, and still have the same solutions. Elimination then finds its
pivots in other rows and makes other moves, but what it reports is the same. The
reason is that each part of a report can be told from the solutions alone. A
variable is free exactly when two solutions differ in it and agree in all
variables after it (`RatMatrix.mem_freeVariables_iff_differLast`), since the
equation of a pivot row gives its variable in terms of later ones. Once the free
variables are known, a solution is known by its values there, so the points of
the family, and with them its directions, are known as well.

Equations that are combinations of others lose no solution
(`RatMatrix.Satisfies.of_combines`), so the report on a system that has a
solution survives exchanging, scaling, repeating and combining equations.
-/

namespace Stepwise.RatMatrix

/-- **A variable in which members of a set of vectors differ last**: two
members differ in it and agree in every later variable. -/
def DifferLast (members : List Rat → Prop) (v : Nat) : Prop :=
  ∃ x y, members x ∧ members y ∧ x.getD v 0 ≠ y.getD v 0
    ∧ ∀ j, v < j → x.getD j 0 = y.getD j 0

/-! ## Free variables seen in the solutions -/

section Reading

variable {rref : RatMatrix} {pivots : List Nat}

/-- A system with a solution has no contradictory row. -/
theorem contradiction?_eq_none {x : List Rat} (hx : rref.Satisfies x) :
    rref.contradiction? = none := by
  cases hrow : rref.contradiction? with
  | none => rfl
  | some row => exact absurd hx (not_satisfies_of_contradiction? hrow x)

variable (h : rref.IsEchelon rref.unknowns pivots)

include h

/-- The direction of a free variable is zero in all later variables. -/
theorem getD_direction_of_lt {v j : Nat} (hv : v ∈ rref.freeVariables pivots)
    (hj : v < j) :
    (rref.direction (rref.variablePivots pivots) v).getD j 0 = 0 := by
  have hfree := (mem_freeVariables.mp hv).2
  by_cases hlt : j < rref.unknowns
  · by_cases hp : j ∈ pivots
    · obtain ⟨i, hi⟩ := List.mem_iff_getElem?.mp hp
      rw [getD_direction_pivot h hfree hi, h.zero_left i j hi v hj, neg_zero]
    · rw [getD_direction_free h (mem_freeVariables.mpr ⟨hlt, hp⟩),
        if_neg (Nat.ne_of_gt hj)]
  · exact List.getD_eq_default _ _
      ((length_direction _ _ v).symm ▸ Nat.not_lt.mp hlt)

variable (hnone : rref.contradiction? = none)

include hnone

/-- **A pivot variable is determined by the later ones.** -/
theorem getD_eq_of_agree_later {x y : List Rat} (hx : rref.Satisfies x)
    (hy : rref.Satisfies y) {c : Nat} (hc : c ∈ pivots)
    (hlater : ∀ j, c < j → x.getD j 0 = y.getD j 0) :
    x.getD c 0 = y.getD c 0 := by
  obtain ⟨i, hi⟩ := List.mem_iff_getElem?.mp hc
  have hrowx := ((satisfies_iff h hnone).mp hx).2 i c hi
  have hrowy := ((satisfies_iff h hnone).mp hy).2 i c hi
  have hsum : ∑ v ∈ (rref.freeVariables pivots).toFinset,
        rref.entry i v * x.getD v 0
      = ∑ v ∈ (rref.freeVariables pivots).toFinset,
        rref.entry i v * y.getD v 0 := by
    refine Finset.sum_congr rfl fun v hv => ?_
    have hfree := (mem_freeVariables.mp (List.mem_toFinset.mp hv)).2
    rcases Nat.lt_or_ge v c with hvc | hvc
    · -- to the left of its pivot the row is zero
      rw [h.zero_left i c hi v hvc, zero_mul, zero_mul]
    · have hne : c ≠ v := fun heq => hfree (heq ▸ hc)
      rw [hlater v (Nat.lt_of_le_of_ne hvc hne)]
  rw [hsum] at hrowx
  exact add_right_cancel (hrowx.trans hrowy.symm)

/-- What is read off a system without contradictory row depends on whether
some variable is free. -/
theorem classify_of_contradiction?_eq_none (homogeneous : Bool) :
    rref.classify pivots homogeneous
      = if rref.freeVariables pivots = [] then
          .unique (rref.solutionFamily pivots homogeneous).particular
        else .infinite (rref.solutionFamily pivots homogeneous) := by
  rcases classify_cases h homogeneous with
    ⟨row, hrow, _⟩ | ⟨_, hfree, heq⟩ | ⟨_, hfree, heq⟩
  · rw [hnone] at hrow
    cases hrow
  · rw [heq, if_pos hfree]
  · rw [heq, if_neg hfree]

/-- **A variable is free exactly when solutions differ last in it.** -/
theorem mem_freeVariables_iff_differLast (v : Nat) :
    v ∈ rref.freeVariables pivots ↔ DifferLast rref.Satisfies v := by
  constructor
  · intro hv
    have hpoint := getD_point_single rref pivots true hv
    have hzero := point_zero rref pivots true
    have hone :
        (rref.direction (rref.variablePivots pivots) v).getD v 0 = 1 := by
      rw [getD_direction_free h hv, if_pos rfl]
    refine ⟨_, _,
      satisfies_point h true (fun w => if w = v then 1 else 0) hnone,
      satisfies_point h true (fun _ => 0) hnone, ?_, fun j hj => ?_⟩
    · rw [hpoint, hzero, hone]
      exact fun heq => one_ne_zero (left_eq_add.mp heq.symm)
    · rw [hpoint, hzero, getD_direction_of_lt h hv hj, add_zero]
      rfl
  · rintro ⟨x, y, hx, hy, hne, hlater⟩
    refine mem_freeVariables.mpr ⟨?_, fun hp => ?_⟩
    · by_contra hlt
      have hdefault : ∀ z : List Rat, rref.Satisfies z → z.getD v 0 = 0 :=
        fun z hz => List.getD_eq_default _ _
          (hz.length_eq.symm ▸ Nat.not_lt.mp hlt)
      exact hne ((hdefault x hx).trans (hdefault y hy).symm)
    · exact hne (getD_eq_of_agree_later h hnone hx hy hp hlater)

end Reading

/-! ## Two reduced systems with the same solutions -/

section Same

variable {rref rref' : RatMatrix} {pivots pivots' : List Nat}
  (h : rref.IsEchelon rref.unknowns pivots)
  (h' : rref'.IsEchelon rref'.unknowns pivots')
  (hnone : rref.contradiction? = none)
  (hnone' : rref'.contradiction? = none)
  (hsame : ∀ x, rref.Satisfies x ↔ rref'.Satisfies x)

include h h' hnone hnone' hsame

/-- **They have the same free variables**, in the same order. -/
theorem freeVariables_eq :
    rref.freeVariables pivots = rref'.freeVariables pivots' := by
  have hmembers : rref.Satisfies = rref'.Satisfies :=
    funext fun x => propext (hsame x)
  refine List.SortedLT.eq_of_mem_iff
    (rref.pairwise_freeVariables pivots).sortedLT
    (rref'.pairwise_freeVariables pivots').sortedLT fun v => ?_
  rw [mem_freeVariables_iff_differLast h hnone,
    mem_freeVariables_iff_differLast h' hnone', hmembers]

/-- **The points of their families are the same**, parameter for parameter. -/
theorem point_eq (homogeneous : Bool) (f : Nat → Rat) :
    (rref.solutionFamily pivots homogeneous).point
        ((rref.freeVariables pivots).map f)
      = (rref'.solutionFamily pivots' homogeneous).point
        ((rref'.freeVariables pivots').map f) := by
  have hfree := freeVariables_eq h h' hnone hnone' hsame
  have hpoint := (hsame _).mp (satisfies_point h homogeneous f hnone)
  -- a solution is the point with its own values at the free variables
  rw [← point_of_satisfies h' homogeneous hnone' hpoint]
  refine congrArg _ (List.map_congr_left fun v hv => ?_)
  exact getD_point_free h homogeneous f (hfree ▸ hv)

theorem particular_eq :
    rref.particular (rref.variablePivots pivots)
      = rref'.particular (rref'.variablePivots pivots') := by
  have hpoint := point_eq h h' hnone hnone' hsame true fun _ => 0
  rw [point_zero, point_zero] at hpoint
  exact hpoint

theorem direction_eq {v : Nat} (hv : v ∈ rref.freeVariables pivots) :
    rref.direction (rref.variablePivots pivots) v
      = rref'.direction (rref'.variablePivots pivots') v := by
  have hfree := freeVariables_eq h h' hnone hnone' hsame
  have hparticular := particular_eq h h' hnone hnone' hsame
  have hunknowns : rref.unknowns = rref'.unknowns := by
    rw [← length_particular rref, hparticular, length_particular]
  refine vector_ext (by rw [length_direction, length_direction, hunknowns])
    fun j _ => ?_
  have hpoint := congrArg (·.getD j 0) (point_eq h h' hnone hnone' hsame true
    fun w => if w = v then 1 else 0)
  simp only [getD_point_single rref pivots true hv,
    getD_point_single rref' pivots' true (hfree ▸ hv), hparticular] at hpoint
  exact add_left_cancel hpoint

/-- **The families read off are the same.** -/
theorem solutionFamily_eq (homogeneous : Bool) :
    rref.solutionFamily pivots homogeneous
      = rref'.solutionFamily pivots' homogeneous := by
  unfold solutionFamily
  rw [particular_eq h h' hnone hnone' hsame,
    ← freeVariables_eq h h' hnone hnone' hsame]
  refine congrArg (SolutionFamily.mk _ · homogeneous)
    (List.map_congr_left fun v hv => ?_)
  rw [direction_eq h h' hnone hnone' hsame hv]

/-- **The reports read off are the same.** -/
theorem classify_eq (homogeneous : Bool) :
    rref.classify pivots homogeneous
      = rref'.classify pivots' homogeneous := by
  rw [classify_of_contradiction?_eq_none h hnone,
    classify_of_contradiction?_eq_none h' hnone',
    freeVariables_eq h h' hnone hnone' hsame,
    solutionFamily_eq h h' hnone hnone' hsame]

end Same

/-! ## Combining equations -/

/-- **A system whose equations are combinations** of those of another one:
it is the other one multiplied from the left. -/
def Combines (system system' : RatMatrix) : Prop :=
  ∃ p : RatMatrix, p.product system = .ok system'

/-- **Combinations of equations lose no solution.** -/
theorem Satisfies.of_combines {system system' : RatMatrix} {x : List Rat}
    (hx : system.Satisfies x) (hc : 0 < system.cols)
    (h : system.Combines system') : system'.Satisfies x := by
  obtain ⟨p, hp⟩ := h
  have hsystem : p.times system = system' := by
    unfold product at hp
    split at hp
    · exact Except.ok.inj hp
    · cases hp
  have hl : x.length = system.unknowns := hx.length_eq
  have hnull := (satisfies_iff_apply_eq_zero hc hl).mp hx
  have hiff : (p.times system).Satisfies x
      ↔ (p.times system).apply (x ++ [-1]) = List.replicate p.rows 0 :=
    satisfies_iff_apply_eq_zero hc hl
  rw [← hsystem, hiff, apply_times, hnull, apply_replicate_zero]

/-! ## Two systems -/

section Systems

variable {a a' : RatMatrix} {b b' : List Rat}

theorem of_augmentColumn_eq_ok {system : RatMatrix}
    (h : a.augmentColumn b = .ok system) :
    b.length = a.rows ∧ a.besideColumn b = system := by
  unfold augmentColumn at h
  split at h
  · exact ⟨‹_›, Except.ok.inj h⟩
  · cases h

/-- A system with a solution has a right-hand side for each row. -/
theorem length_eq_rows_of_isSolution {x : List Rat} (hx : a.IsSolution b x) :
    b.length = a.rows := by
  unfold IsSolution mulVector at hx
  split at hx
  · rw [← Except.ok.inj hx, length_apply]
  · cases hx

/-- **Two systems with the same solutions**, and at least one, get the same
report. -/
theorem exists_report_of_isSolution_iff {x : List Rat}
    (hx : a.IsSolution b x)
    (hsame : ∀ y, a.IsSolution b y ↔ a'.IsSolution b' y) :
    ∃ report, (a.solveSystem b).map (·.result) = .ok report
      ∧ (a'.solveSystem b').map (·.result) = .ok report := by
  have hb := length_eq_rows_of_isSolution hx
  have hb' := length_eq_rows_of_isSolution ((hsame x).mp hx)
  have h := isEchelon_reduce (a.besideColumn b)
  have h' := isEchelon_reduce (a'.besideColumn b')
  have hsol := satisfies_reduce_besideColumn_iff hb
  have hsol' := satisfies_reduce_besideColumn_iff hb'
  have hnone := contradiction?_eq_none ((hsol x).mpr hx)
  have hnone' :=
    contradiction?_eq_none ((hsol' x).mpr ((hsame x).mp hx))
  have hreduced : ∀ y, (a.besideColumn b).reduce.rref.Satisfies y
      ↔ (a'.besideColumn b').reduce.rref.Satisfies y := fun y =>
    (hsol y).trans ((hsame y).trans (hsol' y).symm)
  -- the right-hand sides are zero together, as the particular solution is
  have hcols : a.cols = a'.cols :=
    ((mulVector_eq_ok_iff hb).mp hx).1.symm.trans
      ((mulVector_eq_ok_iff hb').mp ((hsame x).mp hx)).1
  have hhomogeneous : (b.all fun x => decide (x = 0))
      = b'.all fun x => decide (x = 0) := by
    rw [Bool.eq_iff_iff, all_eq_zero_iff hb, all_eq_zero_iff hb',
      particular_eq_zero_iff h hnone hsol,
      particular_eq_zero_iff h' hnone' hsol',
      particular_eq h h' hnone hnone' hreduced, hcols]
  obtain ⟨worked, hok, hresult⟩ := exists_solveSystem_eq_ok hb
  obtain ⟨worked', hok', hresult'⟩ := exists_solveSystem_eq_ok hb'
  refine ⟨worked.result, by rw [hok]; rfl, ?_⟩
  rw [hok', hresult, classify_eq h h' hnone hnone' hreduced, hhomogeneous,
    ← hresult']
  rfl

/-- Systems whose equations are combinations of each other have the same
solutions. -/
theorem isSolution_iff_of_combines {system system' : RatMatrix}
    (hs : a.augmentColumn b = .ok system)
    (hs' : a'.augmentColumn b' = .ok system')
    (hc : system.Combines system') (hc' : system'.Combines system)
    (x : List Rat) : a.IsSolution b x ↔ a'.IsSolution b' x := by
  obtain ⟨hb, rfl⟩ := of_augmentColumn_eq_ok hs
  obtain ⟨hb', rfl⟩ := of_augmentColumn_eq_ok hs'
  rw [← satisfies_besideColumn_iff hb, ← satisfies_besideColumn_iff hb']
  exact ⟨fun h => h.of_combines (Nat.succ_pos a.cols) hc,
    fun h => h.of_combines (Nat.succ_pos a'.cols) hc'⟩

/-- **The report is canonical.** If `A x = b` has a solution, then every
system with the same solutions gets the same report: the same variant, values,
particular solution, free variables in the same order, directions and remark on
the right-hand side. So does every system whose equations are combinations of
those of `A x = b`, and the other way round, as when equations are exchanged,
scaled, repeated or added to others. -/
theorem solveSystem_canonical {x : List Rat} (hx : a.IsSolution b x) :
    ((∀ y, a.IsSolution b y ↔ a'.IsSolution b' y) →
        ∃ report, (a.solveSystem b).map (·.result) = .ok report
          ∧ (a'.solveSystem b').map (·.result) = .ok report)
      ∧ ∀ system system',
        a.augmentColumn b = .ok system → a'.augmentColumn b' = .ok system' →
        system.Combines system' → system'.Combines system →
        ∃ report, (a.solveSystem b).map (·.result) = .ok report
          ∧ (a'.solveSystem b').map (·.result) = .ok report :=
  ⟨exists_report_of_isSolution_iff hx, fun _ _ hs hs' hc hc' =>
    exists_report_of_isSolution_iff hx
      (isSolution_iff_of_combines hs hs' hc hc')⟩

end Systems

/-- Two equations in three unknowns, and three that are combinations of them
with the second one first. -/
theorem solveSystem_two_presentations :
    let a : RatMatrix := ⟨2, 3, #[1, 2, -1, 2, 4, 1], rfl⟩
    let a' : RatMatrix := ⟨3, 3, #[2, 4, 1, 1, 2, -1, 3, 6, 0], rfl⟩
    let report : SolutionReport :=
      .infinite ⟨[2, 0, -1], [⟨1, [-2, 1, 0]⟩], false⟩
    a.IsSolution [3, 3] [2, 0, -1]
      ∧ (∀ y, a.IsSolution [3, 3] y ↔ a'.IsSolution [3, 3, 6] y)
      ∧ (a.besideColumn [3, 3]).Combines (a'.besideColumn [3, 3, 6])
      ∧ (a'.besideColumn [3, 3, 6]).Combines (a.besideColumn [3, 3])
      ∧ (a.solveSystem [3, 3]).map (·.result) = .ok report
      ∧ (a'.solveSystem [3, 3, 6]).map (·.result) = .ok report := by
  intro a a' report
  have hx : a.IsSolution [3, 3] [2, 0, -1] := by
    unfold IsSolution
    decide +kernel
  have hc : (a.besideColumn [3, 3]).Combines (a'.besideColumn [3, 3, 6]) :=
    ⟨⟨3, 2, #[0, 1, 1, 0, 1, 1], rfl⟩, by decide +kernel⟩
  have hc' : (a'.besideColumn [3, 3, 6]).Combines (a.besideColumn [3, 3]) :=
    ⟨⟨2, 3, #[0, 1, 0, 1, 0, 0], rfl⟩, by decide +kernel⟩
  have hs : a.augmentColumn [3, 3] = .ok (a.besideColumn [3, 3]) := rfl
  have hs' : a'.augmentColumn [3, 3, 6] = .ok (a'.besideColumn [3, 3, 6]) := rfl
  have hsame : ∀ y, a.IsSolution [3, 3] y ↔ a'.IsSolution [3, 3, 6] y :=
    isSolution_iff_of_combines hs hs' hc hc'
  have hreport : (a.solveSystem [3, 3]).map (·.result) = .ok report := by
    decide +kernel
  obtain ⟨r, hr, hr'⟩ := (solveSystem_canonical hx).2 _ _ hs hs' hc hc'
  obtain rfl : report = r := Except.ok.inj (hreport.symm.trans hr)
  exact ⟨hx, hsame, hc, hc', hreport, hr'⟩

end Stepwise.RatMatrix
