import Stepwise.Proofs.Elimination.PivotRows
import Stepwise.Proofs.Solution.Systems

/-!
# The family of solutions of a reduced system

In a reduced system the equation of a pivot row gives one variable in terms of
the free ones. `RatMatrix.solutionFamily` is what elimination reads off: the
particular solution, where the free variables are zero, and for each free
variable a direction. A point of the family takes given values at the free
variables (`RatMatrix.getD_point_free`) and at the others what the equations
demand (`RatMatrix.getD_point_pivot`), so the points are the solutions, each of
them once.
-/

namespace Stepwise

/-! ## Points of a family -/

/-- Moving a point keeps its length, whatever the direction. -/
theorem length_movedAlong (t : Rat) (v d : List Rat) :
    (movedAlong t v d).length = v.length := by
  induction v, d using movedAlong.induct with
  | case1 d => rfl
  | case2 v hv => cases v <;> rfl
  | case3 entry v e d ih => exact congrArg (· + 1) ih

/-- One more direction, `t` times, is added entry by entry. -/
theorem getD_movedAlong {v d : List Rat} (h : d.length ≤ v.length)
    (t : Rat) (j : Nat) :
    (movedAlong t v d).getD j 0 = v.getD j 0 + d.getD j 0 * t := by
  induction v, d using movedAlong.induct generalizing j with
  | case1 d =>
    rw [List.eq_nil_of_length_eq_zero (Nat.le_zero.mp h)]
    exact (zero_mul t).symm.trans (zero_add _).symm
  | case2 v hv =>
    have hnil : movedAlong t v [] = v := by cases v <;> rfl
    rw [hnil]
    exact ((congrArg _ (zero_mul t)).trans (add_zero _)).symm
  | case3 entry v e d ih =>
    cases j with
    | zero => rfl
    | succ j => exact ih (Nat.le_of_succ_le_succ h) j

namespace SolutionFamily

variable {family : SolutionFamily} {n : Nat}
  (hp : family.particular.length = n)
  (hd : ∀ d ∈ family.directions, d.direction.length = n)

include hp hd

/-- **A point of a family, entry by entry**: the particular solution and the
multiples of the directions. -/
theorem length_getD_point (parameters : List Rat) :
    (family.point parameters).length = n
      ∧ ∀ j, (family.point parameters).getD j 0 = family.particular.getD j 0
        + ((family.directions.zip parameters).map fun p =>
            p.1.direction.getD j 0 * p.2).sum := by
  unfold point
  -- the sum is built up from the particular solution pair by pair
  generalize family.particular = start at hp
  have hpairs : ∀ p ∈ family.directions.zip parameters,
      p.1.direction.length = n := fun p h => hd p.1 (List.of_mem_zip h).1
  generalize family.directions.zip parameters = pairs at hpairs
  induction pairs generalizing start with
  | nil => exact ⟨hp, fun j => (add_zero _).symm⟩
  | cons p pairs ih =>
    have hpn : p.1.direction.length = n := hpairs p List.mem_cons_self
    have hz : (movedAlong p.2 start p.1.direction).length = n :=
      (length_movedAlong p.2 start p.1.direction).trans hp
    obtain ⟨hl, hg⟩ :=
      ih _ hz fun q hq => hpairs q (List.mem_cons_of_mem p hq)
    refine ⟨hl, fun j => (hg j).trans ?_⟩
    rw [getD_movedAlong (hpn.trans hp.symm).le, List.map_cons, List.sum_cons,
      add_assoc]

end SolutionFamily

namespace RatMatrix

/-! ## Pivots and free variables -/

/-- The variables without pivot, in increasing order. -/
def freeVariables (rref : RatMatrix) (pivots : List Nat) : List Nat :=
  (⟨rref, pivots, []⟩ : Reduction).freeColumns rref.unknowns

theorem mem_freeVariables {rref : RatMatrix} {pivots : List Nat} {v : Nat} :
    v ∈ rref.freeVariables pivots ↔ v < rref.unknowns ∧ v ∉ pivots :=
  Reduction.mem_freeColumns _ _ v

theorem pairwise_freeVariables (rref : RatMatrix) (pivots : List Nat) :
    (rref.freeVariables pivots).Pairwise (· < ·) :=
  Reduction.pairwise_freeColumns _ _

theorem nodup_freeVariables (rref : RatMatrix) (pivots : List Nat) :
    (rref.freeVariables pivots).Nodup :=
  (rref.pairwise_freeVariables pivots).imp Nat.ne_of_lt

theorem length_particular (rref : RatMatrix) (pivots : List (Nat × Nat)) :
    (rref.particular pivots).length = rref.unknowns := by
  rw [particular, List.length_map, List.length_range]

theorem length_direction (rref : RatMatrix) (pivots : List (Nat × Nat))
    (free : Nat) : (rref.direction pivots free).length = rref.unknowns := by
  rw [direction, List.length_map, List.length_range]

/-- **The family that a reduced system stands for.** -/
def solutionFamily (rref : RatMatrix) (pivots : List Nat)
    (homogeneous : Bool) : SolutionFamily where
  particular := rref.particular (rref.variablePivots pivots)
  directions := (rref.freeVariables pivots).map fun v =>
    ⟨v, rref.direction (rref.variablePivots pivots) v⟩
  homogeneous := homogeneous

/-- The entries of a point whose parameters are the values of `f` at the free
variables. -/
theorem length_getD_point_solutionFamily (rref : RatMatrix)
    (pivots : List Nat) (homogeneous : Bool) (f : Nat → Rat) :
    ((rref.solutionFamily pivots homogeneous).point
        ((rref.freeVariables pivots).map f)).length = rref.unknowns
      ∧ ∀ j, ((rref.solutionFamily pivots homogeneous).point
          ((rref.freeVariables pivots).map f)).getD j 0
        = (rref.particular (rref.variablePivots pivots)).getD j 0
          + ∑ v ∈ (rref.freeVariables pivots).toFinset,
            (rref.direction (rref.variablePivots pivots) v).getD j 0
              * f v := by
  have hp : (rref.solutionFamily pivots homogeneous).particular.length
      = rref.unknowns := length_particular _ _
  have hd : ∀ d ∈ (rref.solutionFamily pivots homogeneous).directions,
      d.direction.length = rref.unknowns := by
    intro d hd
    obtain ⟨v, _, rfl⟩ := List.mem_map.mp hd
    exact length_direction _ _ v
  obtain ⟨hl, hg⟩ := SolutionFamily.length_getD_point hp hd
    ((rref.freeVariables pivots).map f)
  refine ⟨hl, fun j => ?_⟩
  rw [hg j, solutionFamily, List.zip_map', List.map_map,
    List.sum_toFinset _ (rref.nodup_freeVariables pivots)]
  rfl

/-- With all parameters zero a point is the particular solution. -/
theorem point_zero (rref : RatMatrix) (pivots : List Nat)
    (homogeneous : Bool) :
    (rref.solutionFamily pivots homogeneous).point
        ((rref.freeVariables pivots).map fun _ => 0)
      = (rref.solutionFamily pivots homogeneous).particular := by
  obtain ⟨hl, hg⟩ := length_getD_point_solutionFamily rref pivots homogeneous
    fun _ => 0
  have hp : (rref.solutionFamily pivots homogeneous).particular.length
      = rref.unknowns := length_particular _ _
  refine vector_ext (hl.trans hp.symm) fun j _ => (hg j).trans ?_
  refine (congrArg (_ + ·) (Finset.sum_eq_zero fun v _ => ?_)).trans
    (add_zero _)
  exact mul_zero _

/-- With one parameter one and the others zero a point is one direction away
from the particular solution. -/
theorem getD_point_single (rref : RatMatrix) (pivots : List Nat)
    (homogeneous : Bool) {v : Nat} (hv : v ∈ rref.freeVariables pivots)
    (j : Nat) :
    ((rref.solutionFamily pivots homogeneous).point
        ((rref.freeVariables pivots).map fun w => if w = v then 1 else 0)).getD
          j 0
      = (rref.particular (rref.variablePivots pivots)).getD j 0
        + (rref.direction (rref.variablePivots pivots) v).getD j 0 := by
  rw [(length_getD_point_solutionFamily rref pivots homogeneous _).2,
    Finset.sum_eq_single v]
  · rw [if_pos rfl, mul_one]
  · intro w _ hne
    rw [if_neg hne, mul_zero]
  · exact fun hn => absurd (List.mem_toFinset.mpr hv) hn

section Reading

variable {rref : RatMatrix} {pivots : List Nat}
  (h : rref.IsEchelon rref.unknowns pivots)

include h

/-- Every pivot of an echelon form belongs to a variable and a row. -/
theorem variablePivots_eq_zipIdx :
    rref.variablePivots pivots = pivots.zipIdx := by
  refine List.filter_eq_self.mpr fun p hp => decide_eq_true ?_
  have hi := List.mem_zipIdx_iff_getElem?.mp hp
  exact ⟨h.row_lt hi, h.col_lt hi⟩

/-- The row found for a variable is the one whose pivot it is. -/
theorem pivotRow?_eq_some_iff {i c : Nat} :
    pivotRow? (rref.variablePivots pivots) c = some i
      ↔ pivots[i]? = some c := by
  have hfind : ∀ p : Nat × Nat,
      pivots.zipIdx.reverse.find? (fun q => decide (q.1 = c)) = some p →
      pivots[p.2]? = some c := by
    intro p hp
    have hc := List.find?_some hp
    rw [decide_eq_true_eq] at hc
    rw [← hc]
    exact List.mem_zipIdx_iff_getElem?.mp
      (List.mem_reverse.mp (List.mem_of_find?_eq_some hp))
  rw [variablePivots_eq_zipIdx h, pivotRow?, Option.map_eq_some_iff]
  constructor
  · rintro ⟨p, hp, rfl⟩
    exact hfind p hp
  · intro hi
    cases hf : pivots.zipIdx.reverse.find? fun q => decide (q.1 = c) with
    | none =>
      have hmem : (c, i) ∈ pivots.zipIdx.reverse :=
        List.mem_reverse.mpr (List.mem_zipIdx_iff_getElem?.mpr hi)
      exact absurd (decide_eq_true rfl) (List.find?_eq_none.mp hf _ hmem)
    | some p => exact ⟨p, rfl, h.row_unique (hfind p hf) hi⟩

theorem pivotRow?_eq_none {c : Nat} (hc : c ∉ pivots) :
    pivotRow? (rref.variablePivots pivots) c = none := by
  cases hrow : pivotRow? (rref.variablePivots pivots) c with
  | none => rfl
  | some i =>
    exact absurd
      (List.mem_of_getElem? ((pivotRow?_eq_some_iff h).mp hrow)) hc

/-! ## The vectors read off -/

/-- The particular solution has the right-hand side at a pivot variable. -/
theorem getD_particular_pivot {i c : Nat} (hi : pivots[i]? = some c) :
    (rref.particular (rref.variablePivots pivots)).getD c 0
      = rref.entry i rref.unknowns := by
  rw [particular, getD_map_range, if_pos (h.col_lt hi),
    (pivotRow?_eq_some_iff h).mpr hi]

/-- The particular solution is zero at a free variable. -/
theorem getD_particular_free {v : Nat} (hv : v ∉ pivots) :
    (rref.particular (rref.variablePivots pivots)).getD v 0 = 0 := by
  rw [particular, getD_map_range, pivotRow?_eq_none h hv, ite_self]

/-- A direction has at a pivot variable what makes up for its free
variable. -/
theorem getD_direction_pivot {v i c : Nat} (hv : v ∉ pivots)
    (hi : pivots[i]? = some c) :
    (rref.direction (rref.variablePivots pivots) v).getD c 0
      = -rref.entry i v := by
  have hne : c ≠ v := fun hcv => hv (hcv ▸ List.mem_of_getElem? hi)
  rw [direction, getD_map_range, if_pos (h.col_lt hi), if_neg hne,
    (pivotRow?_eq_some_iff h).mpr hi]

/-- **The direction of a free variable** has one at it and zero at every other
free variable. -/
theorem getD_direction_free {v w : Nat}
    (hw : w ∈ rref.freeVariables pivots) :
    (rref.direction (rref.variablePivots pivots) v).getD w 0
      = if w = v then 1 else 0 := by
  obtain ⟨hlt, hn⟩ := mem_freeVariables.mp hw
  rw [direction, getD_map_range, if_pos hlt, pivotRow?_eq_none h hn]

/-! ## The equations of a reduced system -/

/-- **The equation of a pivot row**, with the free variables by name. -/
theorem sum_pivotRow {i c : Nat} (hi : pivots[i]? = some c) (f : Nat → Rat) :
    ∑ j ∈ Finset.range rref.unknowns, rref.entry i j * f j
      = f c + ∑ v ∈ (rref.freeVariables pivots).toFinset,
          rref.entry i v * f v := by
  have hfree : (rref.freeVariables pivots).toFinset
      = (Finset.range rref.unknowns).filter (· ∉ pivots) := by
    ext v
    rw [Finset.mem_filter, Finset.mem_range, List.mem_toFinset,
      mem_freeVariables]
  rw [hfree, h.sum_pivotRow hi]

omit h in
/-- A contradictory row reads `0 = c` with `c` not zero. -/
theorem of_contradiction?_eq_some {row : Nat}
    (hrow : rref.contradiction? = some row) :
    row < rref.rows ∧ (∀ j, j < rref.unknowns → rref.entry row j = 0)
      ∧ rref.entry row rref.unknowns ≠ 0 := by
  have hp := List.find?_some hrow
  rw [Bool.and_eq_true, List.all_eq_true, decide_eq_true_eq] at hp
  exact ⟨List.mem_range.mp (List.mem_of_find?_eq_some hrow),
    fun j hj => of_decide_eq_true (hp.1 j (List.mem_range.mpr hj)), hp.2⟩

omit h in
/-- A contradictory row leaves no solution. -/
theorem not_satisfies_of_contradiction? {row : Nat}
    (hrow : rref.contradiction? = some row) (x : List Rat) :
    ¬rref.Satisfies x := by
  intro hx
  obtain ⟨hlt, hzero, hne⟩ := of_contradiction?_eq_some hrow
  refine hne ((hx.row row hlt).symm.trans ?_)
  refine Finset.sum_eq_zero fun j hj => ?_
  rw [hzero j (Finset.mem_range.mp hj), zero_mul]

/-- Without a contradictory row the right-hand side is zero below the
pivots. -/
theorem entry_rhs_eq_zero (hnone : rref.contradiction? = none) {i : Nat}
    (hi : pivots.length ≤ i) : rref.entry i rref.unknowns = 0 := by
  by_cases hr : i < rref.rows
  · have hp := List.find?_eq_none.mp hnone i (List.mem_range.mpr hr)
    by_contra hne
    refine hp ?_
    rw [Bool.and_eq_true, List.all_eq_true, decide_eq_true_eq]
    exact ⟨fun j hj => decide_eq_true
      (h.zero_below i hi j (List.mem_range.mp hj)), hne⟩
  · exact entry_eq_zero_of_rows_le (Nat.not_lt.mp hr) _

/-- **The solutions of a reduced system without contradiction**: each pivot
variable is what its row says, the free ones are arbitrary. -/
theorem satisfies_iff (hnone : rref.contradiction? = none) {x : List Rat} :
    rref.Satisfies x ↔ x.length = rref.unknowns
      ∧ ∀ i c, pivots[i]? = some c →
        x.getD c 0 + ∑ v ∈ (rref.freeVariables pivots).toFinset,
          rref.entry i v * x.getD v 0 = rref.entry i rref.unknowns := by
  constructor
  · intro hx
    exact ⟨hx.length_eq, fun i c hi =>
      (sum_pivotRow h hi fun j => x.getD j 0).symm.trans
        (hx.row i (h.row_lt hi))⟩
  · rintro ⟨hl, hx⟩
    refine ⟨hl, fun i _ => ?_⟩
    by_cases hi : i < pivots.length
    · have hget : pivots[i]? = some pivots[i] := List.getElem?_eq_getElem hi
      exact (sum_pivotRow h hget fun j => x.getD j 0).trans (hx i _ hget)
    · rw [h.sum_row_of_length_le (Nat.not_lt.mp hi),
        entry_rhs_eq_zero h hnone (Nat.not_lt.mp hi)]

/-! ## Points of the family read off -/

variable (homogeneous : Bool) (f : Nat → Rat)

/-- **A point has the given values at the free variables.** -/
theorem getD_point_free {w : Nat} (hw : w ∈ rref.freeVariables pivots) :
    ((rref.solutionFamily pivots homogeneous).point
      ((rref.freeVariables pivots).map f)).getD w 0 = f w := by
  rw [(length_getD_point_solutionFamily _ _ homogeneous f).2,
    getD_particular_free h (mem_freeVariables.mp hw).2, zero_add,
    Finset.sum_eq_single w]
  · rw [getD_direction_free h hw, if_pos rfl, one_mul]
  · intro v _ hne
    rw [getD_direction_free h hw, if_neg hne.symm, zero_mul]
  · exact fun hn => absurd (List.mem_toFinset.mpr hw) hn

/-- **A point has at a pivot variable what its equation demands.** -/
theorem getD_point_pivot {i c : Nat} (hi : pivots[i]? = some c) :
    ((rref.solutionFamily pivots homogeneous).point
        ((rref.freeVariables pivots).map f)).getD c 0
      = rref.entry i rref.unknowns
        - ∑ v ∈ (rref.freeVariables pivots).toFinset,
          rref.entry i v * f v := by
  rw [(length_getD_point_solutionFamily _ _ homogeneous f).2,
    getD_particular_pivot h hi, sub_eq_add_neg, ← Finset.sum_neg_distrib]
  refine congrArg (_ + ·) (Finset.sum_congr rfl fun v hv => ?_)
  have hv' := (mem_freeVariables.mp (List.mem_toFinset.mp hv)).2
  rw [getD_direction_pivot h hv' hi, neg_mul]

/-- **Every point is a solution.** -/
theorem satisfies_point (hnone : rref.contradiction? = none) :
    rref.Satisfies ((rref.solutionFamily pivots homogeneous).point
      ((rref.freeVariables pivots).map f)) := by
  refine (satisfies_iff h hnone).mpr
    ⟨(length_getD_point_solutionFamily _ _ homogeneous f).1, fun i c hi => ?_⟩
  rw [getD_point_pivot h homogeneous f hi]
  refine (congrArg (_ - _ + ·) (Finset.sum_congr rfl fun v hv => ?_)).trans
    (sub_add_cancel _ _)
  rw [getD_point_free h homogeneous f (List.mem_toFinset.mp hv)]

/-- **Every solution is the point** whose parameters are its values at the free
variables. -/
theorem point_of_satisfies (hnone : rref.contradiction? = none)
    {x : List Rat} (hx : rref.Satisfies x) :
    (rref.solutionFamily pivots homogeneous).point
      ((rref.freeVariables pivots).map fun v => x.getD v 0) = x := by
  obtain ⟨hl, hrow⟩ := (satisfies_iff h hnone).mp hx
  have hlen := (length_getD_point_solutionFamily rref pivots homogeneous
    fun v => x.getD v 0).1
  refine vector_ext (hlen.trans hl.symm) fun j hj => ?_
  by_cases hp : j ∈ pivots
  · obtain ⟨i, hi⟩ := List.mem_iff_getElem?.mp hp
    rw [getD_point_pivot h homogeneous _ hi]
    exact sub_eq_of_eq_add (hrow i j hi).symm
  · exact getD_point_free h homogeneous _
      (mem_freeVariables.mpr ⟨hlen ▸ hj, hp⟩)

end Reading

/-- A list of parameters is a value for each free variable. -/
theorem exists_parameters {free : List Nat} (hnd : free.Nodup)
    {parameters : List Rat} (hl : parameters.length = free.length) :
    ∃ f : Nat → Rat, parameters = free.map f := by
  refine ⟨fun v => parameters.getD (free.idxOf v) 0,
    List.ext_getElem (by rw [List.length_map, hl]) fun k hk hk' => ?_⟩
  have hfree : k < free.length := hl ▸ hk
  rw [List.getElem_map, hnd.idxOf_getElem k hfree,
    List.getD_eq_getElem _ _ hk]

end RatMatrix

end Stepwise
