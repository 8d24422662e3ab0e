import Stepwise.Proofs.Inverse.Elimination
import Stepwise.Proofs.Rank.Pivots

/-!
# The rank of a transpose and of a product

The number of pivots is the rank in the sense of the theory, so what is known of
the rank holds of the number of pivots. The reduction of a matrix and that of
its transpose are of different sizes and share no step, and yet find equally
many; a product has at most as many as either factor; and a factor that
elimination accepts as invertible changes nothing, as it can be taken back
(`RatMatrix.rank_invariant`).
-/

namespace Stepwise.RatMatrix

/-- **Row rank is column rank**: a matrix and its transpose have equally many
pivots. -/
theorem rank_transpose (a : RatMatrix) : a.transpose.rank = a.rank := by
  rw [rank_eq_rank_toBlock, rows_transpose, cols_transpose, toBlock_transpose,
    Matrix.rank_transpose, rank_eq_rank_toBlock]

theorem rank_times_le_left (a b : RatMatrix) :
    (a.times b).rank ≤ a.rank := by
  rw [rank_eq_rank_toBlock, rows_times, cols_times, toBlock_times rfl,
    rank_eq_rank_toBlock]
  exact Matrix.rank_mul_le_left _ _

theorem rank_times_le_right {a b : RatMatrix} (h : a.cols = b.rows) :
    (a.times b).rank ≤ b.rank := by
  rw [rank_eq_rank_toBlock, rows_times, cols_times, toBlock_times h,
    rank_eq_rank_toBlock]
  exact Matrix.rank_mul_le_right _ _

/-! ## Factors that can be taken back -/

section Inverse

variable {a p q : RatMatrix}

theorem rank_times_of_left_inverse (hc : q.cols = p.rows)
    (h : q.times p = identity a.rows) : (p.times a).rank = a.rank := by
  have hp : p.cols = a.rows := congrArg cols h
  have hback : q.times (p.times a) = a := by
    rw [← times_assoc, h, identity_times]
  refine Nat.le_antisymm (rank_times_le_right hp) ?_
  calc a.rank = (q.times (p.times a)).rank := by rw [hback]
    _ ≤ (p.times a).rank := rank_times_le_right hc

theorem rank_times_of_right_inverse (h : p.times q = identity a.cols) :
    (a.times p).rank = a.rank := by
  have hback : (a.times p).times q = a := by
    rw [times_assoc, h, times_identity]
  refine Nat.le_antisymm (rank_times_le_left a p) ?_
  calc a.rank = ((a.times p).times q).rank := by rw [hback]
    _ ≤ (a.times p).rank := rank_times_le_left _ q

end Inverse

/-! ## The rank is a property of the matrix -/

/-- **The rank is a property of the matrix.** A matrix and its transpose have
the same number of pivots; multiplying by a matrix that elimination accepts as
invertible, on either side, leaves it as it is; and that of a product is at most
that of either factor. -/
theorem rank_invariant (a : RatMatrix) :
    (a.transpose.reduceColumns a.rows).rank = (a.reduceColumns a.cols).rank
      ∧ (∀ p worked, p.invertByElimination = .ok worked →
          (p.cols = a.rows → ∃ pa, p.product a = .ok pa
            ∧ (pa.reduceColumns pa.cols).rank
              = (a.reduceColumns a.cols).rank)
          ∧ (a.cols = p.rows → ∃ ap, a.product p = .ok ap
            ∧ (ap.reduceColumns ap.cols).rank
              = (a.reduceColumns a.cols).rank))
      ∧ ∀ b : RatMatrix, a.cols = b.rows → ∃ ab, a.product b = .ok ab
          ∧ (ab.reduceColumns ab.cols).rank ≤ (a.reduceColumns a.cols).rank
          ∧ (ab.reduceColumns ab.cols).rank
            ≤ (b.reduceColumns b.cols).rank := by
  refine ⟨rank_transpose a, fun p worked hok => ?_, fun b h => ?_⟩
  · obtain ⟨hsq, q, hq, hleft, hright⟩ := exists_inverse_of_eq_ok hok
    refine ⟨fun h => ⟨p.times a, product_eq_times h, ?_⟩,
      fun h => ⟨a.times p, product_eq_times h, ?_⟩⟩
    · exact rank_times_of_left_inverse hq (by rw [hleft, hsq, h])
    · exact rank_times_of_right_inverse (by rw [hright, h])
  · exact ⟨a.times b, product_eq_times h, rank_times_le_left a b,
      rank_times_le_right h⟩

/-- A matrix of rank one, multiplied by an invertible matrix on either side, and
by a column that it sends to zero. -/
theorem rank_invariant_two_by_three :
    let a : RatMatrix := ⟨2, 3, #[1, 2, 3, 2, 4, 6], rfl⟩
    let p : RatMatrix := ⟨2, 2, #[1, 1, 0, 1], rfl⟩
    let q : RatMatrix := ⟨3, 3, #[1, 0, 0, 0, 0, 1, 0, 1, 1], rfl⟩
    let b : RatMatrix := ⟨3, 1, #[3, 0, -1], rfl⟩
    (a.transpose.reduceColumns 2).rank = 1
      ∧ ((∃ worked, p.invertByElimination = .ok worked) ∧ p.cols = a.rows
        ∧ ∃ pa, p.product a = .ok pa ∧ (pa.reduceColumns pa.cols).rank = 1)
      ∧ ((∃ worked, q.invertByElimination = .ok worked) ∧ a.cols = q.rows
        ∧ ∃ aq, a.product q = .ok aq ∧ (aq.reduceColumns aq.cols).rank = 1)
      ∧ a.cols = b.rows
        ∧ ∃ ab, a.product b = .ok ab ∧ (ab.reduceColumns ab.cols).rank ≤ 1 := by
  intro a p q b
  have hrank : (a.reduceColumns a.cols).rank = 1 := by decide +kernel
  obtain ⟨left, hp, _⟩ := invertByElimination_of_full (a := p) rfl
    (by decide) (by decide +kernel)
  obtain ⟨right, hq, _⟩ := invertByElimination_of_full (a := q) rfl
    (by decide) (by decide +kernel)
  obtain ⟨htranspose, hproduct, hle⟩ := rank_invariant a
  rw [hrank] at htranspose hproduct hle
  obtain ⟨ab, hab, hone, _⟩ := hle b rfl
  exact ⟨htranspose, ⟨⟨left, hp⟩, rfl, (hproduct p left hp).1 rfl⟩,
    ⟨⟨right, hq⟩, rfl, (hproduct q right hq).2 rfl⟩, rfl, ab, hab, hone⟩

end Stepwise.RatMatrix
