import Stepwise.Linear.Solution
import Stepwise.Proofs.Elimination.RowEquivalence

/-!
# Augmented systems and their solutions

A row of `[A | b]` is an equation, and a vector satisfies the system when it
satisfies every row. Since this can be said as `[A | b] (x, -1) = 0`, reduction
keeps the solutions (`RatMatrix.satisfies_reduce_iff`).
-/

namespace Stepwise.RatMatrix

/-- **A solution of `A x = b`**: a vector with an entry for each column of `A`
that `A` sends to `b`. -/
def IsSolution (a : RatMatrix) (b x : List Rat) : Prop :=
  a.mulVector x = .ok b

/-- **A vector that satisfies each row** of an augmented system. -/
structure Satisfies (system : RatMatrix) (x : List Rat) : Prop where
  length_eq : x.length = system.unknowns
  row : ∀ i, i < system.rows →
    ∑ j ∈ Finset.range system.unknowns, system.entry i j * x.getD j 0
      = system.entry i system.unknowns

/-- The solutions of `A x = b` are the vectors that satisfy `[A | b]`. -/
theorem satisfies_besideColumn_iff {a : RatMatrix} {b : List Rat}
    (hb : b.length = a.rows) (x : List Rat) :
    (a.besideColumn b).Satisfies x ↔ a.IsSolution b x := by
  have hn : (a.besideColumn b).unknowns = a.cols := rfl
  have hrow : ∀ i, i < a.rows →
      (∑ j ∈ Finset.range (a.besideColumn b).unknowns,
          (a.besideColumn b).entry i j * x.getD j 0
        = (a.besideColumn b).entry i (a.besideColumn b).unknowns
      ↔ ∑ j ∈ Finset.range a.cols, a.entry i j * x.getD j 0
        = b.getD i 0) := by
    intro i hi
    rw [hn, entry_besideColumn hi (Nat.le_refl _), if_neg (Nat.lt_irrefl _)]
    have hsum : ∑ j ∈ Finset.range a.cols,
          (a.besideColumn b).entry i j * x.getD j 0
        = ∑ j ∈ Finset.range a.cols, a.entry i j * x.getD j 0 := by
      refine Finset.sum_congr rfl fun j hj => ?_
      have hj' := Finset.mem_range.mp hj
      rw [entry_besideColumn hi (Nat.le_of_lt hj'), if_pos hj']
    rw [hsum]
  unfold IsSolution
  rw [mulVector_eq_ok_iff hb]
  constructor
  · intro h
    exact ⟨h.length_eq, fun i hi => (hrow i hi).mp (h.row i hi)⟩
  · intro h
    exact ⟨h.1, fun i hi => (hrow i hi).mpr (h.2 i hi)⟩

/-- An augmented matrix applied to `(x, -1)` is what the left sides are over
the right sides. -/
theorem getD_apply_append_neg_one {system : RatMatrix} {x : List Rat}
    (hc : 0 < system.cols) (hx : x.length = system.unknowns) (i : Nat) :
    (system.apply (x ++ [-1])).getD i 0
      = ∑ j ∈ Finset.range system.unknowns, system.entry i j * x.getD j 0
        - system.entry i system.unknowns := by
  have hcols : system.cols = system.unknowns + 1 :=
    (Nat.succ_pred_eq_of_pos hc).symm
  have hlast : (x ++ [-1]).getD system.unknowns 0 = (-1 : Rat) := by
    rw [← hx, List.getD_append_right _ _ _ _ (Nat.le_refl _), Nat.sub_self]
    rfl
  rw [getD_apply, hcols, Finset.sum_range_succ, hlast, mul_neg_one,
    ← sub_eq_add_neg]
  refine congrArg (· - _) (Finset.sum_congr rfl fun j hj => ?_)
  rw [List.getD_append _ _ _ _ (hx ▸ Finset.mem_range.mp hj)]

/-- **A system as a question about the null space** of its augmented
matrix. -/
theorem satisfies_iff_apply_eq_zero {system : RatMatrix} {x : List Rat}
    (hc : 0 < system.cols) (hx : x.length = system.unknowns) :
    system.Satisfies x
      ↔ system.apply (x ++ [-1]) = List.replicate system.rows 0 := by
  constructor
  · intro h
    refine vector_ext (by rw [length_apply, List.length_replicate])
      fun i hi => ?_
    rw [length_apply] at hi
    rw [getD_apply_append_neg_one hc hx, h.row i hi, sub_self,
      getD_replicate_zero]
  · intro h
    refine ⟨hx, fun i _ => sub_eq_zero.mp ?_⟩
    rw [← getD_apply_append_neg_one hc hx, h, getD_replicate_zero]

theorem unknowns_reduce (system : RatMatrix) :
    system.reduce.rref.unknowns = system.unknowns :=
  congrArg (· - 1) (cols_rref system _)

/-- **Reduction keeps the solutions of a system.** -/
theorem satisfies_reduce_iff {system : RatMatrix} (hc : 0 < system.cols)
    (x : List Rat) :
    system.reduce.rref.Satisfies x ↔ system.Satisfies x := by
  have hn := unknowns_reduce system
  have hc' : 0 < system.reduce.rref.cols :=
    (cols_rref system _).symm ▸ hc
  by_cases hx : x.length = system.unknowns
  · rw [satisfies_iff_apply_eq_zero hc hx,
      satisfies_iff_apply_eq_zero hc' (hx.trans hn.symm)]
    have hr : system.reduce.rref.rows = system.rows := rows_rref system _
    rw [hr]
    exact apply_rref_eq_zero_iff system _ _
  · exact ⟨fun h => absurd (h.length_eq.trans hn) hx,
      fun h => absurd h.length_eq hx⟩

/-- The reduced system is in echelon form over its unknowns. -/
theorem isEchelon_reduce (system : RatMatrix) :
    system.reduce.rref.IsEchelon system.reduce.rref.unknowns
      system.reduce.pivots := by
  rw [unknowns_reduce]
  exact isEchelon_reduceColumns_of_le (Nat.sub_le system.cols 1)

end Stepwise.RatMatrix
