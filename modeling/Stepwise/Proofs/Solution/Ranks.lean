import Stepwise.Proofs.Elimination.RowEquivalence
import Stepwise.Proofs.Solution.Solving

/-!
# The kind of a report follows from two ranks

Three reductions play a part. That of `A` and that behind the solution of
`A x = b` make the same moves, for the latter stops before the right-hand side.
Reducing `[A | b]` with every column allowed to hold a pivot is one column more
of the same sweep, and in that column there is a pivot exactly if some row below
the other pivots is not zero, which is a row that reads `0 = c`
(`RatMatrix.pivots_reduceColumns_cols`). So the rank grows by one exactly when
the system contradicts itself, and otherwise the rank of `A` says how many
variables are free (`RatMatrix.solveSystem_kind_of_ranks`).
-/

namespace Stepwise

open RatMatrix

/-- **A report of the kind that two reductions demand**, that of the matrix of
a system in `n` unknowns and that of its augmented matrix. -/
def SolutionReport.FitsRanks (n : Nat) (reduced augmented : Reduction) :
    SolutionReport → Prop
  | .inconsistent _ => augmented.rank = reduced.rank + 1
  | .unique _ => augmented.rank = reduced.rank ∧ reduced.rank = n
  | .infinite family =>
    augmented.rank = reduced.rank ∧ reduced.rank < n
      ∧ family.directions.map (·.index) = reduced.freeColumns n

namespace RatMatrix

/-! ## One column more -/

/-- **A reduced system contradicts itself** exactly when below its pivots some
right-hand side is not zero. -/
theorem isSome_contradiction?_iff {rref : RatMatrix} {pivots : List Nat}
    (h : rref.IsEchelon rref.unknowns pivots) :
    rref.contradiction?.isSome
      ↔ ∃ i, pivots.length ≤ i ∧ rref.entry i rref.unknowns ≠ 0 := by
  constructor
  · intro hsome
    obtain ⟨row, hrow⟩ := Option.isSome_iff_exists.mp hsome
    obtain ⟨hlt, hzero, hne⟩ := of_contradiction?_eq_some hrow
    refine ⟨row, ?_, hne⟩
    -- a row with a pivot has a one there
    by_contra hpivot
    have hget : pivots[row]? = some pivots[row] :=
      List.getElem?_eq_getElem (Nat.not_le.mp hpivot)
    have hone := h.unit row _ hget row hlt
    rw [hzero _ (h.col_lt hget), if_pos rfl] at hone
    exact zero_ne_one hone
  · rintro ⟨i, hi, hne⟩
    by_contra hnone
    exact hne (entry_rhs_eq_zero h (Option.not_isSome_iff_eq_none.mp hnone) hi)

/-- The reduction over all columns sweeps over one column more. -/
theorem eliminate_cols {system : RatMatrix} (hc : 0 < system.cols) :
    system.eliminate system.cols
      = (system.eliminate system.unknowns).sweepColumn system.unknowns := by
  have hle : system.unknowns ≤ system.cols := Nat.sub_le _ _
  have hsucc : system.unknowns + 1 = system.cols := Nat.sub_add_cancel hc
  unfold eliminate
  rw [Nat.min_self, Nat.min_eq_left hle, ← Elimination.sweep_succ, hsucc]

/-- **The right-hand side holds a pivot exactly when the system contradicts
itself.** -/
theorem pivots_reduceColumns_cols {system : RatMatrix}
    (hc : 0 < system.cols) :
    (system.reduceColumns system.cols).pivots
      = if system.reduce.rref.contradiction?.isSome then
          system.reduce.pivots ++ [system.unknowns]
        else system.reduce.pivots := by
  have hiff := isSome_contradiction?_iff (isEchelon_reduce system)
  rw [unknowns_reduce] at hiff
  have hpivots : (system.reduceColumns system.cols).pivots
      = ((system.eliminate system.unknowns).sweepColumn
          system.unknowns).pivots :=
    congrArg Elimination.pivots (eliminate_cols hc)
  have hnone : (∀ i, system.reduce.pivots.length ≤ i →
      system.reduce.rref.entry i system.unknowns = 0) →
        ¬system.reduce.rref.contradiction?.isSome := by
    intro hzero hsome
    obtain ⟨i, hi, hne⟩ := hiff.mp hsome
    exact hne (hzero i hi)
  rw [hpivots]
  rcases (system.eliminate system.unknowns).sweepColumn_cases
    system.unknowns with
    ⟨hfull, heq⟩ | ⟨_, hzero, heq⟩ | ⟨found, hle, _, hne, heq⟩
  · rw [heq, if_neg (hnone fun i hi =>
      entry_eq_zero_of_rows_le (Nat.le_trans hfull hi) _)]
    rfl
  · rw [heq, if_neg (hnone hzero)]
    rfl
  · rw [heq, if_pos (hiff.mpr ⟨found, hle, hne⟩)]
    rfl

/-! ## The ranks of a system -/

theorem pivots_reduce_besideColumn (a : RatMatrix) (b : List Rat) :
    (a.besideColumn b).reduce.pivots = (a.reduceColumns a.cols).pivots := by
  have h := pivots_reduceColumns_leftColumns (m := a.besideColumn b)
    (Nat.le_succ a.cols)
  rw [leftColumns_besideColumn] at h
  exact h.symm

/-- The free variables are the free columns of the matrix. -/
theorem freeVariables_reduce_besideColumn (a : RatMatrix) (b : List Rat) :
    (a.besideColumn b).reduce.rref.freeVariables
        (a.besideColumn b).reduce.pivots
      = (a.reduceColumns a.cols).freeColumns a.cols := by
  rw [freeVariables, unknowns_reduce, pivots_reduce_besideColumn]
  rfl

/-- **The rank of an augmented matrix** is that of the matrix, and one more if
the system contradicts itself. -/
theorem rank_reduceColumns_besideColumn (a : RatMatrix) (b : List Rat) :
    ((a.besideColumn b).reduceColumns (a.cols + 1)).rank
      = if (a.besideColumn b).reduce.rref.contradiction?.isSome then
          (a.reduceColumns a.cols).rank + 1
        else (a.reduceColumns a.cols).rank := by
  have hc : 0 < (a.besideColumn b).cols := Nat.succ_pos a.cols
  have h := pivots_reduceColumns_cols hc
  rw [pivots_reduce_besideColumn] at h
  have hlen := congrArg List.length h
  rw [apply_ite List.length, List.length_append] at hlen
  exact hlen

section Solving

variable {a : RatMatrix} {b : List Rat} (hb : b.length = a.rows)

include hb

/-- **The report on a system fits the ranks.** -/
theorem solveSystem_fitsRanks :
    ∃ worked, a.solveSystem b = .ok worked
      ∧ worked.result.FitsRanks a.cols (a.reduceColumns a.cols)
          ((a.besideColumn b).reduceColumns (a.cols + 1)) := by
  have hrank := rank_reduceColumns_besideColumn a b
  have hfree := freeVariables_reduce_besideColumn a b
  have hlen := rank_reduceAll_add_length_freeColumns a
  obtain ⟨worked, hok, hresult⟩ := exists_solveSystem_eq_ok hb
  refine ⟨worked, hok, ?_⟩
  rw [hresult]
  rcases classify_cases (isEchelon_reduce (a.besideColumn b))
      (b.all fun x => decide (x = 0)) with
    ⟨row, hrow, heq⟩ | ⟨hnone, hnil, heq⟩ | ⟨hnone, hne, heq⟩
  · rw [heq]
    rw [hrow] at hrank
    exact hrank
  · rw [heq]
    rw [hnone] at hrank
    rw [hfree] at hnil
    rw [hnil] at hlen
    exact ⟨hrank, hlen⟩
  · rw [heq]
    rw [hnone] at hrank
    rw [hfree] at hne
    have hpos := List.length_pos_iff.mpr hne
    have hlt : (a.reduceColumns a.cols).rank < a.cols := by omega
    refine ⟨hrank, hlt, ?_⟩
    rw [solutionFamily, List.map_map, ← hfree]
    exact List.map_id _

/-- **The kind of a report follows from two ranks.** Let `r` be the rank of `A`,
with `n` columns, and `r'` that of `[A | b]`. Then `r'` is `r` or `r + 1`. The
report is *inconsistent* exactly when it is `r + 1`, *unique* exactly when both
are `n`, and *infinite* exactly when they are equal and less than `n`; it then
gives `n - r` directions, whose variables are the free columns of `A` in
order. -/
theorem solveSystem_kind_of_ranks :
    ∃ system worked, a.augmentColumn b = .ok system
      ∧ a.solveSystem b = .ok worked
      ∧ let r := (a.reduceColumns a.cols).rank
        let r' := (system.reduceColumns (a.cols + 1)).rank
        (r' = r ∨ r' = r + 1)
          ∧ ((∃ row, worked.result = .inconsistent row) ↔ r' = r + 1)
          ∧ ((∃ values, worked.result = .unique values)
              ↔ r' = r ∧ r = a.cols)
          ∧ ((∃ family, worked.result = .infinite family)
              ↔ r' = r ∧ r < a.cols)
          ∧ ∀ family, worked.result = .infinite family →
              family.directions.length = a.cols - r
                ∧ family.directions.map (·.index)
                  = (a.reduceColumns a.cols).freeColumns a.cols := by
  obtain ⟨worked, hok, hfits⟩ := solveSystem_fitsRanks hb
  refine ⟨a.besideColumn b, worked, by rw [augmentColumn, if_pos hb], hok, ?_⟩
  intro r r'
  cases hr : worked.result with
  | inconsistent row =>
    have hrank : r' = r + 1 := by
      rw [hr] at hfits
      exact hfits
    refine ⟨.inr hrank, iff_of_true ⟨row, rfl⟩ hrank,
      iff_of_false (by rintro ⟨_, ⟨⟩⟩) ?_, iff_of_false (by rintro ⟨_, ⟨⟩⟩) ?_,
      by rintro _ ⟨⟩⟩ <;> omega
  | unique values =>
    have hrank : r' = r ∧ r = a.cols := by
      rw [hr] at hfits
      exact hfits
    refine ⟨.inl hrank.1, iff_of_false (by rintro ⟨_, ⟨⟩⟩) ?_,
      iff_of_true ⟨values, rfl⟩ hrank, iff_of_false (by rintro ⟨_, ⟨⟩⟩) ?_,
      by rintro _ ⟨⟩⟩ <;> omega
  | infinite family =>
    have hrank : r' = r ∧ r < a.cols ∧ family.directions.map (·.index)
        = (a.reduceColumns a.cols).freeColumns a.cols := by
      rw [hr] at hfits
      exact hfits
    obtain ⟨heq, hlt, hindex⟩ := hrank
    refine ⟨.inl heq, iff_of_false (by rintro ⟨_, ⟨⟩⟩) ?_,
      iff_of_false (by rintro ⟨_, ⟨⟩⟩) ?_, iff_of_true ⟨family, rfl⟩ ⟨heq, hlt⟩,
      ?_⟩
    · omega
    · omega
    · rintro family' ⟨⟩
      refine ⟨?_, hindex⟩
      have hlen := rank_reduceAll_add_length_freeColumns a
      have hdirections := congrArg List.length hindex
      rw [List.length_map] at hdirections
      omega

omit hb in
/-- One matrix of rank one with two right-hand sides, the first of which
contradicts it. -/
theorem solveSystem_kind_of_ranks_two_by_two :
    let a : RatMatrix := ⟨2, 2, #[1, 1, 2, 2], rfl⟩
    (([1, 3] : List Rat).length = a.rows
        ∧ ∃ worked row, a.solveSystem [1, 3] = .ok worked
          ∧ worked.result = .inconsistent row)
      ∧ ([1, 2] : List Rat).length = a.rows
        ∧ ∃ worked family, a.solveSystem [1, 2] = .ok worked
          ∧ worked.result = .infinite family
          ∧ family.directions.map (·.index) = [1] := by
  intro a
  refine ⟨⟨rfl, ?_⟩, rfl, ?_⟩
  · obtain ⟨system, worked, hsystem, hok, _, hkind, _⟩ :=
      solveSystem_kind_of_ranks (a := a) (b := [1, 3]) rfl
    have haugment : a.augmentColumn [1, 3] = .ok (a.besideColumn [1, 3]) := rfl
    obtain rfl := Except.ok.inj (haugment.symm.trans hsystem)
    obtain ⟨row, hrow⟩ := hkind.mpr (by decide +kernel)
    exact ⟨worked, row, hok, hrow⟩
  · obtain ⟨system, worked, hsystem, hok, _, _, _, hkind, hfamily⟩ :=
      solveSystem_kind_of_ranks (a := a) (b := [1, 2]) rfl
    have haugment : a.augmentColumn [1, 2] = .ok (a.besideColumn [1, 2]) := rfl
    obtain rfl := Except.ok.inj (haugment.symm.trans hsystem)
    obtain ⟨family, heq⟩ := hkind.mpr (by decide +kernel)
    refine ⟨worked, family, hok, heq, (hfamily family heq).2.trans ?_⟩
    decide +kernel

end Solving

end RatMatrix

end Stepwise
