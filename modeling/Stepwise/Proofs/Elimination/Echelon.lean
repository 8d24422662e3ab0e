import Mathlib.Data.List.Nodup
import Stepwise.Proofs.Elimination.Column

/-!
# Elimination ends in reduced row-echelon form

`RatMatrix.IsEchelon` says what it means for a matrix to be reduced over its
first columns with given pivots, entry by entry. A sweep keeps it: when `k`
columns are done, the matrix is reduced over `k` columns with the pivots found
so far (`Elimination.isEchelon_sweep`). What carries the induction is that the
rows from the next pivot row down are zero in all columns done, so that neither
exchanging two of them nor subtracting one of them from another row is felt
there.

What is left is to read off the form: the columns without pivot are the
increasing complement of the pivots, and the test `RatMatrix.isRref`, which
looks at the leading entry of each row, accepts.
-/

namespace Stepwise

namespace RatMatrix

/-- **Reduced row-echelon form** over the first `columns` columns, with the
given pivot columns. Entry `i` of the list is the pivot of row `i`. -/
structure IsEchelon (m : RatMatrix) (columns : Nat) (pivots : List Nat) :
    Prop where
  /-- The pivot columns increase strictly. -/
  increasing : pivots.Pairwise (· < ·)
  lt_columns : ∀ c ∈ pivots, c < columns
  /-- Each pivot has its row. -/
  length_le : pivots.length ≤ m.rows
  /-- The pivot column of row `i` is the `i`-th unit vector. -/
  unit : ∀ i c, pivots[i]? = some c → ∀ r, r < m.rows →
    m.entry r c = if r = i then 1 else 0
  /-- A row is zero to the left of its pivot. -/
  zero_left : ∀ i c, pivots[i]? = some c → ∀ j, j < c → m.entry i j = 0
  /-- The rows without pivot are zero. -/
  zero_below : ∀ r, pivots.length ≤ r → ∀ j, j < columns → m.entry r j = 0

namespace IsEchelon

variable {m : RatMatrix} {columns : Nat} {pivots : List Nat}
  (h : m.IsEchelon columns pivots)

include h

theorem nodup : pivots.Nodup :=
  h.increasing.imp Nat.ne_of_lt

/-- The row of a pivot lies in the matrix. -/
theorem row_lt {i c : Nat} (hi : pivots[i]? = some c) : i < m.rows :=
  Nat.lt_of_lt_of_le (List.getElem?_eq_some_iff.mp hi).1 h.length_le

theorem col_lt {i c : Nat} (hi : pivots[i]? = some c) : c < columns :=
  h.lt_columns c (List.mem_of_getElem? hi)

/-- A column belongs to one row at most. -/
theorem row_unique {i i' c : Nat} (hi : pivots[i]? = some c)
    (hi' : pivots[i']? = some c) : i = i' := by
  obtain ⟨hl, hc⟩ := List.getElem?_eq_some_iff.mp hi
  obtain ⟨hl', hc'⟩ := List.getElem?_eq_some_iff.mp hi'
  exact (List.Nodup.getElem_inj_iff h.nodup).mp (hc.trans hc'.symm)

/-- The pivots of later rows stand further to the right. -/
theorem pivot_lt_pivot {i i' c c' : Nat} (hi : pivots[i]? = some c)
    (hi' : pivots[i']? = some c') (hlt : i < i') : c < c' := by
  obtain ⟨hl, rfl⟩ := List.getElem?_eq_some_iff.mp hi
  obtain ⟨hl', rfl⟩ := List.getElem?_eq_some_iff.mp hi'
  exact List.pairwise_iff_getElem.mp h.increasing i i' hl hl' hlt

end IsEchelon

end RatMatrix

open RatMatrix

namespace Elimination

/-! ## The invariant of the sweep -/

theorem sweep_succ (m : RatMatrix) (k : Nat) :
    sweep m (k + 1) = (sweep m k).sweepColumn k := by
  unfold sweep
  rw [List.range_succ, List.foldl_append]
  rfl

/-- **What holds before the first column and is kept by each column** holds
after the sweep. -/
theorem sweep_induction {P : Nat → Elimination → Prop} {m : RatMatrix}
    (base : P 0 (start m))
    (step : ∀ k s, P k s → P (k + 1) (s.sweepColumn k)) (k : Nat) :
    P k (sweep m k) := by
  induction k with
  | zero => exact base
  | succ k ih =>
    rw [sweep_succ]
    exact step k _ ih

/-- A sweep keeps the size of the matrix. -/
theorem size_sweep (m : RatMatrix) (k : Nat) :
    (sweep m k).current.rows = m.rows ∧ (sweep m k).current.cols = m.cols := by
  refine sweep_induction (m := m)
    (P := fun _ s => s.current.rows = m.rows ∧ s.current.cols = m.cols)
    ⟨rfl, rfl⟩ (fun k s hs => ?_) k
  rcases s.sweepColumn_cases k with
    ⟨_, heq⟩ | ⟨_, _, heq⟩ | ⟨found, hle, hlt, hne, heq⟩
  · rw [heq]
    exact hs
  · rw [heq]
    exact hs
  · have hop := operates_install (Nat.lt_of_le_of_lt hle hlt) hlt hne
    rw [heq]
    exact ⟨hop.rows_eq.trans hs.1, hop.cols_eq.trans hs.2⟩

section Install

variable {s : Elimination} {k found : Nat}
  (hs : s.current.IsEchelon k s.pivots) (hle : s.pivots.length ≤ found)
  (hlt : found < s.current.rows) (hne : s.current.entry found k ≠ 0)

include hs hle hlt hne

/-- A pivot step is not felt in the columns done before. -/
theorem entry_install_of_lt {i j : Nat} (hi : i < s.current.rows)
    (hj : j < k) :
    (install s.pivots.length k found s).current.entry i j
      = s.current.entry i j := by
  have hf : s.current.entry found j = 0 := hs.zero_below found hle j hj
  have ht : s.current.entry s.pivots.length j = 0 :=
    hs.zero_below _ (Nat.le_refl _) j hj
  rw [entry_install (Nat.lt_of_le_of_lt hle hlt) hlt hne hi, hf, zero_mul,
    zero_mul, sub_zero]
  split
  · rw [‹i = s.pivots.length›, ht]
  · by_cases hif : i = found
    · rw [hif, Equiv.swap_apply_right, ht, hf]
    · rw [Equiv.swap_apply_of_ne_of_ne ‹_› hif]

omit hs in
/-- A pivot step makes its column a unit vector. -/
theorem entry_install_self {i : Nat} (hi : i < s.current.rows) :
    (install s.pivots.length k found s).current.entry i k
      = if i = s.pivots.length then 1 else 0 := by
  rw [entry_install (Nat.lt_of_le_of_lt hle hlt) hlt hne hi,
    mul_inv_cancel₀ hne, one_mul, sub_self]

/-- **A pivot step keeps the invariant**, with one pivot more. -/
theorem isEchelon_install :
    (install s.pivots.length k found s).current.IsEchelon (k + 1)
      (s.pivots ++ [k]) := by
  have htop := Nat.lt_of_le_of_lt hle hlt
  have hrows := (operates_install htop hlt hne).rows_eq
  have hold := fun {i j : Nat} => entry_install_of_lt hs hle hlt hne
    (i := i) (j := j)
  have hnew := fun {i : Nat} => entry_install_self hle hlt hne (i := i)
  have hlen : (s.pivots ++ [k]).length = s.pivots.length + 1 :=
    List.length_append
  -- a pivot is one of those found before, or the new one
  have hsplit : ∀ i c, (s.pivots ++ [k])[i]? = some c →
      s.pivots[i]? = some c ∨ i = s.pivots.length ∧ c = k := by
    intro i c hi
    rcases Nat.lt_trichotomy i s.pivots.length with hlt | heq | hgt
    · rw [List.getElem?_append_left hlt] at hi
      exact .inl hi
    · rw [heq, List.getElem?_concat_length] at hi
      exact .inr ⟨heq, (Option.some.inj hi).symm⟩
    · rw [List.getElem?_eq_none (by omega)] at hi
      cases hi
  constructor
  case increasing =>
    refine List.pairwise_append.mpr
      ⟨hs.increasing, List.pairwise_singleton _ _, fun a ha b hb => ?_⟩
    rw [List.mem_singleton.mp hb]
    exact hs.lt_columns a ha
  case lt_columns =>
    intro c hc
    rcases List.mem_append.mp hc with hc | hc
    · exact Nat.lt_succ_of_lt (hs.lt_columns c hc)
    · rw [List.mem_singleton.mp hc]
      exact Nat.lt_succ_self k
  case length_le =>
    rw [hlen, hrows]
    exact htop
  case unit =>
    intro i c hi r hr
    rw [hrows] at hr
    rcases hsplit i c hi with hi | ⟨rfl, rfl⟩
    · rw [hold hr (hs.col_lt hi)]
      exact hs.unit i c hi r hr
    · exact hnew hr
  case zero_left =>
    intro i c hi j hj
    rcases hsplit i c hi with hi | ⟨rfl, rfl⟩
    · rw [hold (hs.row_lt hi) (Nat.lt_trans hj (hs.col_lt hi))]
      exact hs.zero_left i c hi j hj
    · rw [hold htop hj]
      exact hs.zero_below _ (Nat.le_refl _) j hj
  case zero_below =>
    intro r hr j hj
    rw [hlen] at hr
    by_cases hrow : r < s.current.rows
    · rcases Nat.lt_succ_iff_lt_or_eq.mp hj with hj | rfl
      · rw [hold hrow hj]
        exact hs.zero_below r (by omega) j hj
      · rw [hnew hrow, if_neg (by omega)]
    · exact entry_eq_zero_of_rows_le (hrows ▸ Nat.not_lt.mp hrow) j

end Install

/-- **Each column keeps the invariant.** -/
theorem isEchelon_sweepColumn {s : Elimination} {k : Nat}
    (hs : s.current.IsEchelon k s.pivots) :
    (s.sweepColumn k).current.IsEchelon (k + 1) (s.sweepColumn k).pivots := by
  -- without a new pivot, one more column must be zero from the next row down
  have hstay : (∀ i, s.pivots.length ≤ i → s.current.entry i k = 0) →
      s.current.IsEchelon (k + 1) s.pivots := fun hz =>
    { hs with
      lt_columns := fun c hc => Nat.lt_succ_of_lt (hs.lt_columns c hc)
      zero_below := fun r hr j hj => by
        rcases Nat.lt_succ_iff_lt_or_eq.mp hj with hj | rfl
        · exact hs.zero_below r hr j hj
        · exact hz r hr }
  rcases s.sweepColumn_cases k with
    ⟨hfull, heq⟩ | ⟨_, hz, heq⟩ | ⟨found, hle, hlt, hne, heq⟩
  · rw [heq]
    exact hstay fun i hi =>
      entry_eq_zero_of_rows_le (Nat.le_trans hfull hi) k
  · rw [heq]
    exact hstay hz
  · rw [heq]
    exact isEchelon_install hs hle hlt hne

/-- **After `k` columns the matrix is reduced over `k` columns**, with the
pivots found so far. -/
theorem isEchelon_sweep (m : RatMatrix) (k : Nat) :
    (sweep m k).current.IsEchelon k (sweep m k).pivots := by
  refine sweep_induction (P := fun k s => s.current.IsEchelon k s.pivots)
    { increasing := .nil
      lt_columns := fun _ hc => absurd hc List.not_mem_nil
      length_le := Nat.zero_le _
      unit := fun _ _ hi => by cases hi
      zero_left := fun _ _ hi => by cases hi
      zero_below := fun _ _ _ hj => absurd hj (Nat.not_lt_zero _) }
    (fun _ _ hs => isEchelon_sweepColumn hs) k

end Elimination

namespace RatMatrix

/-! ## Reading off the form -/

namespace IsEchelon

variable {m : RatMatrix} {columns : Nat} {pivots : List Nat}
  (h : m.IsEchelon columns pivots)

include h

/-- The pivot of a row is its leading column. -/
theorem leadingColumn?_eq_some {i c : Nat} (hi : pivots[i]? = some c) :
    m.leadingColumn? columns i = some c := by
  refine List.find?_range_eq_some.mpr
    ⟨?_, List.mem_range.mpr (h.col_lt hi), fun j hj => ?_⟩
  · rw [h.unit i c hi i (h.row_lt hi), if_pos rfl]
    rfl
  · rw [h.zero_left i c hi j hj]
    rfl

/-- A row without pivot has no leading column. -/
theorem leadingColumn?_eq_none {i : Nat} (hi : pivots.length ≤ i) :
    m.leadingColumn? columns i = none := by
  refine List.find?_range_eq_none.mpr fun j hj => ?_
  rw [h.zero_below i hi j hj]
  rfl

/-- **The test for reduced form accepts** the rows from `i` on, provided no
pivot follows a zero row and the pivots go on increasing. -/
theorem isReducedFrom (n : Nat) : ∀ {i : Nat} {last : Option Nat}
    {zeroSeen : Bool}, i + n = m.rows →
    (zeroSeen = true → pivots.length ≤ i) →
    (∀ p ∈ last, ∀ c, pivots[i]? = some c → p < c) →
    m.isReducedFrom columns (List.range' i n) last zeroSeen = true := by
  induction n with
  | zero => exact fun _ _ _ => rfl
  | succ n ih =>
    intro i last zeroSeen hn hzero hlast
    rw [List.range'_succ, RatMatrix.isReducedFrom]
    cases hi : pivots[i]? with
    | none =>
      -- the pivots are used up, so no row further down has one
      have hlen := List.getElem?_eq_none_iff.mp hi
      rw [h.leadingColumn?_eq_none hlen]
      refine ih (by omega) (fun _ => by omega) fun p _ c hc => ?_
      rw [List.getElem?_eq_none (by omega)] at hc
      cases hc
    | some c =>
      have hlen := (List.getElem?_eq_some_iff.mp hi).1
      have hseen : zeroSeen = false := by
        by_contra hz
        exact absurd (hzero (eq_true_of_ne_false hz)) (Nat.not_le.mpr hlen)
      have hall : ((List.range m.rows).all fun r =>
          decide (r ≠ i → m.entry r c = 0)) = true := by
        refine List.all_eq_true.mpr fun r hr => decide_eq_true fun hne => ?_
        rw [h.unit i c hi r (List.mem_range.mp hr), if_neg hne]
      have hnext : ∀ p ∈ some c, ∀ c', pivots[i + 1]? = some c' → p < c' := by
        intro p hp c' hc'
        rw [← Option.some.inj hp]
        exact h.pivot_lt_pivot hi hc' (Nat.lt_succ_self i)
      rw [h.leadingColumn?_eq_some hi]
      show (!zeroSeen && decide _ && decide _ && _ && _) = true
      rw [hseen, decide_eq_true (fun p hp => hlast p hp c hi),
        h.unit i c hi i (h.row_lt hi), if_pos rfl, hall,
        ih (by omega) (fun hz => absurd hz Bool.false_ne_true) hnext]
      rfl

/-- A matrix in reduced form passes the test. -/
theorem isRref (hcols : columns ≤ m.cols) : m.isRref columns = true := by
  unfold RatMatrix.isRref
  rw [Nat.min_eq_left hcols, List.range_eq_range']
  exact h.isReducedFrom m.rows (Nat.zero_add _)
    (fun hz => absurd hz Bool.false_ne_true) (fun p hp => by cases hp)

end IsEchelon

end RatMatrix

namespace Reduction

theorem mem_freeColumns (r : Reduction) (columns c : Nat) :
    c ∈ r.freeColumns columns ↔ c < columns ∧ c ∉ r.pivots := by
  unfold freeColumns
  rw [List.mem_filter, List.mem_range, Bool.not_eq_true',
    List.contains_eq_mem, decide_eq_false_iff_not]

theorem pairwise_freeColumns (r : Reduction) (columns : Nat) :
    (r.freeColumns columns).Pairwise (· < ·) :=
  List.pairwise_lt_range.sublist List.filter_sublist

/-- **Pivots and free columns together are all columns.** -/
theorem rank_add_length_freeColumns {r : Reduction} {columns : Nat}
    (hnd : r.pivots.Nodup) (hlt : ∀ c ∈ r.pivots, c < columns) :
    r.rank + (r.freeColumns columns).length = columns := by
  have hperm : ((List.range columns).filter r.pivots.contains).Perm
      r.pivots := by
    refine (List.perm_ext_iff_of_nodup (List.nodup_range.filter _) hnd).mpr
      fun c => ?_
    rw [List.mem_filter, List.mem_range, List.contains_iff_mem]
    exact ⟨And.right, fun hc => ⟨hlt c hc, hc⟩⟩
  calc r.rank + (r.freeColumns columns).length
      = ((List.range columns).filter r.pivots.contains).length
        + (r.freeColumns columns).length := by rw [hperm.length_eq]; rfl
    _ = (List.range columns).length :=
        (List.length_eq_length_filter_add r.pivots.contains).symm
    _ = columns := List.length_range

end Reduction

namespace RatMatrix

/-- Reduction keeps the number of rows. -/
theorem rows_rref (m : RatMatrix) (limit : Nat) :
    (m.reduceColumns limit).rref.rows = m.rows :=
  (Elimination.size_sweep m (min limit m.cols)).1

/-- Reduction keeps the number of columns. -/
theorem cols_rref (m : RatMatrix) (limit : Nat) :
    (m.reduceColumns limit).rref.cols = m.cols :=
  (Elimination.size_sweep m (min limit m.cols)).2

/-- The reduced matrix is in reduced form over the columns that may hold a
pivot. -/
theorem isEchelon_reduceColumns (m : RatMatrix) (limit : Nat) :
    (m.reduceColumns limit).rref.IsEchelon (min limit m.cols)
      (m.reduceColumns limit).pivots :=
  Elimination.isEchelon_sweep m (min limit m.cols)

/-- The same, for columns that the matrix has. -/
theorem isEchelon_reduceColumns_of_le {m : RatMatrix} {limit : Nat}
    (h : limit ≤ m.cols) :
    (m.reduceColumns limit).rref.IsEchelon limit
      (m.reduceColumns limit).pivots := by
  have hmin := isEchelon_reduceColumns m limit
  rwa [Nat.min_eq_left h] at hmin

theorem isEchelon_reduceAll (a : RatMatrix) :
    (a.reduceColumns a.cols).rref.IsEchelon a.cols
      (a.reduceColumns a.cols).pivots :=
  isEchelon_reduceColumns_of_le (Nat.le_refl a.cols)

/-- The free columns are as many as the rank leaves over. -/
theorem rank_reduceAll_add_length_freeColumns (a : RatMatrix) :
    (a.reduceColumns a.cols).rank
      + ((a.reduceColumns a.cols).freeColumns a.cols).length = a.cols :=
  Reduction.rank_add_length_freeColumns (isEchelon_reduceAll a).nodup
    (isEchelon_reduceAll a).lt_columns

/-- **Reduction reaches the reduced row-echelon form.** Over the columns that
may hold a pivot the reduced matrix is in echelon form with exactly the pivots
reported, the free columns are their increasing complement, and the test for
the form accepts. -/
theorem reduceColumns_echelon (m : RatMatrix) (limit : Nat) :
    let k := min limit m.cols
    let r := m.reduceColumns limit
    (r.rref.rows = m.rows ∧ r.rref.cols = m.cols)
      ∧ r.rref.IsEchelon k r.pivots
      ∧ (r.freeColumns k).Pairwise (· < ·)
      ∧ (∀ c, c ∈ r.freeColumns k ↔ c < k ∧ c ∉ r.pivots)
      ∧ r.rank + (r.freeColumns k).length = k
      ∧ r.rref.isRref k = true := by
  intro k r
  have h : r.rref.IsEchelon k r.pivots := isEchelon_reduceColumns m limit
  have hk : k ≤ r.rref.cols :=
    (cols_rref m limit).symm ▸ Nat.min_le_right limit m.cols
  exact ⟨⟨rows_rref m limit, cols_rref m limit⟩, h,
    r.pairwise_freeColumns k, r.mem_freeColumns k,
    Reduction.rank_add_length_freeColumns h.nodup h.lt_columns, h.isRref hk⟩

/-- The first column has no pivot. The others have theirs after an exchange, two
divisions and a subtraction. -/
theorem reduceColumns_echelon_free :
    let r := (⟨2, 3, #[0, 0, 2, 0, 3, 6], rfl⟩ : RatMatrix).reduceColumns 3
    r.rref = ⟨2, 3, #[0, 1, 0, 0, 0, 1], rfl⟩ ∧ r.pivots = [1, 2]
      ∧ r.freeColumns 3 = [0] ∧ r.rref.IsEchelon 3 [1, 2] := by
  intro r
  have hpivots : r.pivots = [1, 2] := by decide +kernel
  obtain ⟨-, hechelon, -⟩ :=
    reduceColumns_echelon ⟨2, 3, #[0, 0, 2, 0, 3, 6], rfl⟩ 3
  exact ⟨by decide +kernel, hpivots, by decide +kernel, hpivots ▸ hechelon⟩

end RatMatrix

end Stepwise
