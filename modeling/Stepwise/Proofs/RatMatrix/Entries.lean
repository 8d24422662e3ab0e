import Mathlib.Algebra.BigOperators.Fin
import Mathlib.Algebra.BigOperators.Group.Finset.Sigma
import Mathlib.Algebra.BigOperators.Ring.Finset
import Mathlib.Algebra.Field.Rat
import Mathlib.Data.List.GetD
import Mathlib.Data.Matrix.Mul
import Stepwise.RatMatrix.Algebra

/-!
# Matrices through their entries

An entry outside a matrix is zero, so the entries of a product, of blocks side
by side and of a matrix applied to a vector are given by formulas that need no
condition on the indices. The laws of multiplication follow from these formulas
by exchanging sums. They hold for matrices of any sizes, since
`RatMatrix.times` and `RatMatrix.apply` are total. Where the theory of matrices
is called for, the first rows and columns are read as a function of two indices
(`RatMatrix.toBlock`).
-/

namespace Stepwise.RatMatrix

/-- Adding up the values of a formula one after the other gives their sum. -/
theorem sumRange_eq_sum (n : Nat) (f : Nat → Rat) :
    sumRange n f = ∑ k ∈ Finset.range n, f k := by
  unfold sumRange
  induction n with
  | zero => rfl
  | succ n ih =>
    rw [List.range_succ, List.foldl_append, ih, Finset.sum_range_succ]
    rfl

theorem entry_eq_zero_of_rows_le {m : RatMatrix} {i : Nat} (hi : m.rows ≤ i)
    (j : Nat) : m.entry i j = 0 :=
  entry_eq_zero fun h => absurd h.1 (Nat.not_lt.mpr hi)

theorem entry_eq_zero_of_cols_le {m : RatMatrix} {j : Nat} (hj : m.cols ≤ j)
    (i : Nat) : m.entry i j = 0 :=
  entry_eq_zero fun h => absurd h.2 (Nat.not_lt.mpr hj)

/-- A formula that vanishes outside the matrix it describes gives its entries
everywhere. -/
theorem entry_ofFn_of_zero {r c : Nat} {f : Nat → Nat → Rat}
    (h : ∀ i j, ¬(i < r ∧ j < c) → f i j = 0) (i j : Nat) :
    (ofFn r c f).entry i j = f i j := by
  rw [entry_ofFn]
  split
  · rfl
  · rw [h i j ‹_›]

/-- Only what a formula says inside the matrix matters. -/
theorem ofFn_congr {r c : Nat} {f g : Nat → Nat → Rat}
    (h : ∀ i j, i < r → j < c → f i j = g i j) : ofFn r c f = ofFn r c g :=
  ext_entry rfl rfl fun i j hi hj =>
    calc (ofFn r c f).entry i j = f i j := entry_ofFn_of_lt f hi hj
      _ = g i j := h i j hi hj
      _ = (ofFn r c g).entry i j := (entry_ofFn_of_lt g hi hj).symm

/-! ## Sizes -/

section Sizes

variable (m a b : RatMatrix)

@[simp] theorem rows_identity (n : Nat) : (identity n).rows = n := rfl

@[simp] theorem cols_identity (n : Nat) : (identity n).cols = n := rfl

@[simp] theorem rows_transpose : m.transpose.rows = m.cols := rfl

@[simp] theorem cols_transpose : m.transpose.cols = m.rows := rfl

@[simp] theorem rows_times : (a.times b).rows = a.rows := rfl

@[simp] theorem cols_times : (a.times b).cols = b.cols := rfl

@[simp] theorem rows_beside : (a.beside b).rows = a.rows := rfl

@[simp] theorem cols_beside : (a.beside b).cols = a.cols + b.cols := rfl

@[simp] theorem rows_besideColumn (v : List Rat) :
    (a.besideColumn v).rows = a.rows := rfl

@[simp] theorem cols_besideColumn (v : List Rat) :
    (a.besideColumn v).cols = a.cols + 1 := rfl

@[simp] theorem rows_leftColumns (k : Nat) :
    (m.leftColumns k).rows = m.rows := rfl

@[simp] theorem cols_leftColumns (k : Nat) :
    (m.leftColumns k).cols = k := rfl

@[simp] theorem length_apply (v : List Rat) :
    (m.apply v).length = m.rows := by
  rw [apply, List.length_map, List.length_range]

@[simp] theorem length_row (i : Nat) : (m.row i).length = m.cols := by
  rw [row, List.length_map, List.length_range]

@[simp] theorem length_column (j : Nat) :
    (m.column j).length = m.rows := by
  rw [column, List.length_map, List.length_range]

end Sizes

/-! ## Vectors -/

/-- **Two vectors of one length with the same entries are equal.** -/
theorem vector_ext {v w : List Rat} (hl : v.length = w.length)
    (h : ∀ i, i < v.length → v.getD i 0 = w.getD i 0) : v = w := by
  refine List.ext_getElem hl fun i hv hw => ?_
  have hi := h i hv
  rwa [List.getD_eq_getElem _ _ hv, List.getD_eq_getElem _ _ hw] at hi

/-- Every entry of the zero vector is zero. -/
theorem getD_replicate_zero (n i : Nat) :
    (List.replicate n (0 : Rat)).getD i 0 = 0 := by
  rw [List.getD_eq_getElem?_getD, List.getElem?_getD_replicate_default_eq]

/-- The entries of a vector given by a formula. -/
theorem getD_map_range (n : Nat) (f : Nat → Rat) (i : Nat) :
    ((List.range n).map f).getD i 0 = if i < n then f i else 0 := by
  rw [List.getD_eq_getElem?_getD, List.getElem?_map]
  by_cases hi : i < n
  · rw [List.getElem?_range hi, if_pos hi]
    rfl
  · rw [List.getElem?_eq_none (by simpa using hi), if_neg hi]
    rfl

theorem getD_row {m : RatMatrix} (i j : Nat) :
    (m.row i).getD j 0 = m.entry i j := by
  rw [row, getD_map_range]
  split
  · rfl
  · exact (entry_eq_zero_of_cols_le (Nat.not_lt.mp ‹_›) i).symm

theorem getD_column {m : RatMatrix} (i j : Nat) :
    (m.column j).getD i 0 = m.entry i j := by
  rw [column, getD_map_range]
  split
  · rfl
  · exact (entry_eq_zero_of_rows_le (Nat.not_lt.mp ‹_›) j).symm

/-- Entry `i` of a matrix applied to a vector is row `i` against the vector. -/
theorem getD_apply (m : RatMatrix) (v : List Rat) (i : Nat) :
    (m.apply v).getD i 0
      = ∑ j ∈ Finset.range m.cols, m.entry i j * v.getD j 0 := by
  rw [apply, getD_map_range]
  split
  · exact sumRange_eq_sum _ _
  · refine (Finset.sum_eq_zero fun j _ => ?_).symm
    rw [entry_eq_zero_of_rows_le (Nat.not_lt.mp ‹_›), zero_mul]

/-- A matrix applied to a vector is the given vector exactly when each row
says so. -/
theorem mulVector_eq_ok_iff {m : RatMatrix} {v w : List Rat}
    (hw : w.length = m.rows) :
    m.mulVector v = .ok w ↔ v.length = m.cols ∧ ∀ i, i < m.rows →
      ∑ j ∈ Finset.range m.cols, m.entry i j * v.getD j 0 = w.getD i 0 := by
  unfold mulVector
  by_cases hv : v.length = m.cols
  · rw [if_pos hv, Except.ok.injEq]
    refine ⟨fun h => ⟨hv, fun i _ => by rw [← h, getD_apply]⟩, fun h => ?_⟩
    refine vector_ext (by rw [length_apply, hw]) fun i hi => ?_
    rw [getD_apply, h.2 i (by rwa [length_apply] at hi)]
  · rw [if_neg hv]
    exact ⟨nofun, fun h => absurd h.1 hv⟩

/-- A matrix sends a vector to zero exactly when the vector fits it and every
entry of the result is zero. -/
theorem mulVector_eq_zero_iff {m : RatMatrix} {v : List Rat} {n : Nat} :
    m.mulVector v = .ok (List.replicate n 0)
      ↔ v.length = m.cols ∧ m.apply v = List.replicate n 0 := by
  unfold mulVector
  split
  · rw [Except.ok.injEq]
    exact (and_iff_right ‹_›).symm
  · exact ⟨nofun, fun h => absurd h.1 ‹_›⟩

/-! ## Entries of what is built from matrices -/

theorem entry_identity {n i j : Nat} (hi : i < n) (hj : j < n) :
    (identity n).entry i j = if i = j then 1 else 0 :=
  entry_ofFn_of_lt _ hi hj

/-- An entry of a transposed matrix is the entry with the indices
exchanged. -/
theorem entry_transpose (m : RatMatrix) (i j : Nat) :
    m.transpose.entry i j = m.entry j i :=
  entry_ofFn_of_zero (fun _ _ h => entry_eq_zero fun hij => h hij.symm) i j

/-- **An entry of a product** is a row of the one factor against a column of
the other. -/
theorem entry_times (a b : RatMatrix) (i j : Nat) :
    (a.times b).entry i j
      = ∑ k ∈ Finset.range a.cols, a.entry i k * b.entry k j := by
  unfold times
  simp only [sumRange_eq_sum]
  refine entry_ofFn_of_zero (fun i j h => Finset.sum_eq_zero fun k _ => ?_) i j
  by_cases hi : i < a.rows
  · rw [entry_eq_zero_of_cols_le (Nat.not_lt.mp fun hj => h ⟨hi, hj⟩),
      mul_zero]
  · rw [entry_eq_zero_of_rows_le (Nat.not_lt.mp hi), zero_mul]

theorem entry_leftColumns (m : RatMatrix) (k i j : Nat) :
    (m.leftColumns k).entry i j = if j < k then m.entry i j else 0 := by
  rw [leftColumns, entry_ofFn]
  by_cases hj : j < k
  · by_cases hi : i < m.rows
    · rw [if_pos ⟨hi, hj⟩, if_pos hj]
    · rw [if_neg fun h => hi h.1, if_pos hj,
        entry_eq_zero_of_rows_le (Nat.not_lt.mp hi)]
  · rw [if_neg fun h => hj h.2, if_neg hj]

theorem entry_leftColumns_of_lt (m : RatMatrix) {k j : Nat} (hj : j < k)
    (i : Nat) : (m.leftColumns k).entry i j = m.entry i j := by
  rw [entry_leftColumns, if_pos hj]

/-- An entry of `[A | B]` is one of `A` or one of `B`. -/
theorem entry_beside {a b : RatMatrix} (h : b.rows = a.rows) (i j : Nat) :
    (a.beside b).entry i j
      = if j < a.cols then a.entry i j else b.entry i (j - a.cols) := by
  refine entry_ofFn_of_zero (fun i j hij => ?_) i j
  by_cases hi : i < a.rows
  · have hj : a.cols + b.cols ≤ j := Nat.not_lt.mp fun hj => hij ⟨hi, hj⟩
    rw [if_neg (by omega), entry_eq_zero_of_cols_le (by omega)]
  · have hr : a.rows ≤ i := Nat.not_lt.mp hi
    split
    · exact entry_eq_zero_of_rows_le hr j
    · exact entry_eq_zero_of_rows_le (h ▸ hr) _

/-- An entry of `[A | b]` is one of `A`, or in the last column one of `b`. -/
theorem entry_besideColumn {a : RatMatrix} {v : List Rat} {i j : Nat}
    (hi : i < a.rows) (hj : j ≤ a.cols) :
    (a.besideColumn v).entry i j
      = if j < a.cols then a.entry i j else v.getD i 0 :=
  entry_ofFn_of_lt _ hi (Nat.lt_succ_of_le hj)

theorem leftColumns_besideColumn (a : RatMatrix) (v : List Rat) :
    (a.besideColumn v).leftColumns a.cols = a := by
  refine ext_entry rfl rfl fun i j hi hj => ?_
  have hi' : i < a.rows := hi
  have hj' : j < a.cols := hj
  rw [entry_leftColumns_of_lt _ hj',
    entry_besideColumn hi' (Nat.le_of_lt hj'), if_pos hj']

/-! ## Laws of multiplication -/

theorem product_eq_times {a b : RatMatrix} (h : a.cols = b.rows) :
    a.product b = .ok (a.times b) := by
  rw [product, if_pos h]

/-- The product with the identity on the left. -/
theorem identity_times (m : RatMatrix) : (identity m.rows).times m = m := by
  refine ext_entry rfl rfl fun i j hi _ => ?_
  have hi' : i < m.rows := hi
  rw [entry_times, cols_identity, Finset.sum_eq_single i]
  · rw [entry_identity hi' hi', if_pos rfl, one_mul]
  · intro k hk hne
    rw [entry_identity hi' (Finset.mem_range.mp hk), if_neg hne.symm, zero_mul]
  · exact fun h => absurd (Finset.mem_range.mpr hi') h

/-- The product with the identity on the right. -/
theorem times_identity (m : RatMatrix) : m.times (identity m.cols) = m := by
  refine ext_entry rfl rfl fun i j _ hj => ?_
  have hj' : j < m.cols := hj
  rw [entry_times, Finset.sum_eq_single j]
  · rw [entry_identity hj' hj', if_pos rfl, mul_one]
  · intro k hk hne
    rw [entry_identity (Finset.mem_range.mp hk) hj', if_neg hne, mul_zero]
  · exact fun h => absurd (Finset.mem_range.mpr hj') h

/-- **A product of three matrices** does not depend on the brackets. -/
theorem times_assoc (a b c : RatMatrix) :
    (a.times b).times c = a.times (b.times c) := by
  refine ext_entry rfl rfl fun i j _ _ => ?_
  simp only [entry_times, cols_times, Finset.sum_mul, Finset.mul_sum]
  rw [Finset.sum_comm]
  exact Finset.sum_congr rfl fun k _ =>
    Finset.sum_congr rfl fun l _ => mul_assoc _ _ _

/-- A product applied to a vector is the one factor after the other. -/
theorem apply_times (a b : RatMatrix) (v : List Rat) :
    (a.times b).apply v = a.apply (b.apply v) := by
  refine vector_ext (by rw [length_apply, length_apply]; rfl) fun i _ => ?_
  simp only [getD_apply, entry_times, cols_times, Finset.sum_mul,
    Finset.mul_sum]
  rw [Finset.sum_comm]
  exact Finset.sum_congr rfl fun k _ =>
    Finset.sum_congr rfl fun l _ => mul_assoc _ _ _

/-- A matrix sends the zero vector to the zero vector. -/
theorem apply_replicate_zero (m : RatMatrix) (n : Nat) :
    m.apply (List.replicate n 0) = List.replicate m.rows 0 := by
  refine vector_ext (by rw [length_apply, List.length_replicate])
    fun i _ => ?_
  rw [getD_apply, getD_replicate_zero]
  refine Finset.sum_eq_zero fun j _ => ?_
  rw [getD_replicate_zero, mul_zero]

/-- A column of a product is the one factor applied to a column of the
other. -/
theorem column_times (a b : RatMatrix) (j : Nat) :
    (a.times b).column j = a.apply (b.column j) := by
  refine vector_ext (by rw [length_column, length_apply]; rfl) fun i _ => ?_
  rw [getD_column, entry_times, getD_apply]
  exact Finset.sum_congr rfl fun k _ => by rw [getD_column]

/-! ## Functions of two indices -/

/-- **The first rows and columns of a matrix** as a function of two indices. -/
def toBlock (m : RatMatrix) (r c : Nat) : Matrix (Fin r) (Fin c) Rat :=
  Matrix.of fun i j => m.entry i j

@[simp] theorem toBlock_apply (m : RatMatrix) {r c : Nat} (i : Fin r)
    (j : Fin c) : m.toBlock r c i j = m.entry i j := rfl

theorem toBlock_transpose (m : RatMatrix) (r c : Nat) :
    m.transpose.toBlock c r = (m.toBlock r c).transpose := by
  ext i j
  exact entry_transpose m i j

theorem toBlock_times {a : RatMatrix} {k : Nat} (hc : a.cols = k)
    (b : RatMatrix) (r c : Nat) :
    (a.times b).toBlock r c = a.toBlock r k * b.toBlock k c := by
  ext i j
  rw [toBlock_apply, entry_times, hc, Matrix.mul_apply, Finset.sum_range]
  rfl

/-! ## Blocks side by side -/

section Blocks

variable {a b : RatMatrix} (h : b.rows = a.rows)

include h

theorem augment_eq_beside : a.augment b = .ok (a.beside b) := by
  rw [augment, if_pos h]

theorem leftColumns_beside : (a.beside b).leftColumns a.cols = a := by
  refine ext_entry rfl rfl fun i j _ hj => ?_
  have hj' : j < a.cols := hj
  rw [entry_leftColumns_of_lt _ hj', entry_beside h, if_pos hj']

theorem rightColumns_beside : (a.beside b).rightColumns a.cols = b := by
  refine ext_entry h.symm (Nat.add_sub_cancel_left _ _) fun i j hi hj => ?_
  have hi' : i < (a.beside b).rows := hi
  have hj' : j < (a.beside b).cols - a.cols := hj
  rw [rightColumns, entry_ofFn_of_lt _ hi' hj', entry_beside h,
    if_neg (by omega), Nat.add_sub_cancel_left]

/-- **Blocks are taken apart** where they were put together. -/
theorem splitColumns_beside (ha : 0 < a.cols) (hb : 0 < b.cols) :
    (a.beside b).splitColumns a.cols = .ok (a, b) := by
  rw [splitColumns, if_neg, leftColumns_beside h, rightColumns_beside h]
  rw [cols_beside]
  omega

theorem column_beside_add (j : Nat) :
    (a.beside b).column (a.cols + j) = b.column j := by
  refine vector_ext (by rw [length_column, length_column, rows_beside, h])
    fun i _ => ?_
  rw [getD_column, getD_column, entry_beside h, if_neg (by omega),
    Nat.add_sub_cancel_left]

/-- A product with `[A | B]` is one with each block. -/
theorem times_beside (p : RatMatrix) :
    p.times (a.beside b) = (p.times a).beside (p.times b) := by
  refine ext_entry rfl rfl fun i j _ _ => ?_
  rw [entry_beside (show (p.times b).rows = (p.times a).rows from rfl),
    entry_times, cols_times]
  simp only [entry_beside h]
  split <;> rw [entry_times]

end Blocks

end Stepwise.RatMatrix
