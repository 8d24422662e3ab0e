import Stepwise.LinearError

/-!
# Matrices of exact numbers

A matrix knows its size and keeps its cells row by row in one array, so the
cell in row `i` and column `j` stands at place `i * cols + j`. Sizes may be
zero. Nearly every operation is given by the size of its result and a formula
for the cells, `RatMatrix.ofFn`; what it does is then said by one lemma,
`entry_ofFn`, and two matrices are equal as soon as their sizes and entries
are, `RatMatrix.ext_entry`.

An operation that takes an index unchecked computes a place in words, where a
number that is too large starts again from zero, `RatMatrix.wordPlace`.
-/

namespace Stepwise

/-- **A matrix of exact numbers**, cells row by row. -/
structure RatMatrix where
  rows : Nat
  cols : Nat
  cells : Array Rat
  size_cells : cells.size = rows * cols
  deriving DecidableEq

namespace RatMatrix

/-- The matrix of the given size whose cells are the values of `f`. -/
def ofFn (rows cols : Nat) (f : Nat → Nat → Rat) : RatMatrix where
  rows := rows
  cols := cols
  cells := Array.ofFn fun place : Fin (rows * cols) =>
    f (place.val / cols) (place.val % cols)
  size_cells := Array.size_ofFn

/-- **The entry in row `i` and column `j`**, and zero outside the matrix. -/
def entry (m : RatMatrix) (i j : Nat) : Rat :=
  if i < m.rows ∧ j < m.cols then m.cells.getD (i * m.cols + j) 0 else 0

/-- The entry in row `i` and column `j`, if there is one. -/
def get? (m : RatMatrix) (i j : Nat) : Option Rat :=
  if i < m.rows ∧ j < m.cols then m.cells[i * m.cols + j]? else none

@[simp] theorem rows_ofFn (r c : Nat) (f : Nat → Nat → Rat) :
    (ofFn r c f).rows = r := rfl

@[simp] theorem cols_ofFn (r c : Nat) (f : Nat → Nat → Rat) :
    (ofFn r c f).cols = c := rfl

/-- A place in row-major order lies inside the array of cells. -/
theorem place_lt {r c i j : Nat} (hi : i < r) (hj : j < c) :
    i * c + j < r * c :=
  calc i * c + j < i * c + c := Nat.add_lt_add_left hj _
    _ = (i + 1) * c := (Nat.succ_mul i c).symm
    _ ≤ r * c := Nat.mul_le_mul_right c hi

/-- How many numbers a word of 64 bits tells apart. -/
def wordSize : Nat := 18446744073709551616

/-- **A place as it is computed in words**, for a matrix of the given size:
past the last number of a word the count starts again from zero. The cells of a
matrix are in memory, so their places and the one after them fit a word. -/
def wordPlace (rows cols i j : Nat) : Nat :=
  (i * cols + j) % max wordSize (rows * cols + 1)

/-- In a matrix no place is cut down. -/
theorem wordPlace_eq {rows cols i j : Nat}
    (h : i * cols + j ≤ rows * cols) :
    wordPlace rows cols i j = i * cols + j :=
  Nat.mod_eq_of_lt
    (Nat.lt_of_lt_of_le (Nat.lt_succ_of_le h) (Nat.le_max_right _ _))

/-- Nor is one that fits a word. -/
theorem wordPlace_eq_of_lt {rows cols i j : Nat}
    (h : i * cols + j < wordSize) :
    wordPlace rows cols i j = i * cols + j :=
  Nat.mod_eq_of_lt (Nat.lt_of_lt_of_le h (Nat.le_max_left _ _))

/-- For a matrix whose number of cells fits a word, places are computed modulo
the size of a word. -/
theorem wordPlace_eq_mod {rows cols : Nat} (h : rows * cols < wordSize)
    (i j : Nat) : wordPlace rows cols i j = (i * cols + j) % wordSize :=
  congrArg (_ % ·) (Nat.max_eq_left h)

theorem place_div {c i j : Nat} (hj : j < c) : (i * c + j) / c = i := by
  rw [Nat.mul_comm, Nat.mul_add_div (Nat.zero_lt_of_lt hj),
    Nat.div_eq_of_lt hj, Nat.add_zero]

theorem place_mod {c i j : Nat} (hj : j < c) : (i * c + j) % c = j := by
  rw [Nat.mul_comm, Nat.mul_add_mod, Nat.mod_eq_of_lt hj]

/-- **The entries of a matrix given by a formula** are the values of the
formula. -/
theorem entry_ofFn (r c : Nat) (f : Nat → Nat → Rat) (i j : Nat) :
    (ofFn r c f).entry i j = if i < r ∧ j < c then f i j else 0 := by
  unfold entry ofFn
  by_cases h : i < r ∧ j < c
  · have hp := place_lt h.1 h.2
    simp [h, hp, Array.getD, place_div h.2, place_mod h.2]
  · simp [h]

theorem entry_ofFn_of_lt {r c i j : Nat} (f : Nat → Nat → Rat)
    (hi : i < r) (hj : j < c) : (ofFn r c f).entry i j = f i j := by
  rw [entry_ofFn, if_pos ⟨hi, hj⟩]

theorem entry_eq_zero {m : RatMatrix} {i j : Nat}
    (h : ¬(i < m.rows ∧ j < m.cols)) : m.entry i j = 0 := by
  rw [entry, if_neg h]

theorem get?_eq_some {m : RatMatrix} {i j : Nat} (hi : i < m.rows)
    (hj : j < m.cols) : m.get? i j = some (m.entry i j) := by
  have hp : i * m.cols + j < m.cells.size := m.size_cells ▸ place_lt hi hj
  simp [get?, entry, hi, hj, hp, Array.getD]

/-- **Two matrices of one size with the same entries are equal.** -/
theorem ext_entry {m m' : RatMatrix} (hr : m.rows = m'.rows)
    (hc : m.cols = m'.cols)
    (h : ∀ i j, i < m.rows → j < m.cols → m.entry i j = m'.entry i j) :
    m = m' := by
  obtain ⟨r, c, cells, hsize⟩ := m
  obtain ⟨r', c', cells', hsize'⟩ := m'
  obtain rfl : r = r' := hr
  obtain rfl : c = c' := hc
  have hcells : cells = cells' := by
    refine Array.ext (hsize.trans hsize'.symm) fun k hk hk' => ?_
    have hlt : k < r * c := hsize ▸ hk
    have hc : 0 < c := Nat.pos_of_ne_zero fun h0 => by simp [h0] at hlt
    have hj : k % c < c := Nat.mod_lt _ hc
    have hi : k / c < r := (Nat.div_lt_iff_lt_mul hc).2 hlt
    have hk0 : k / c * c + k % c = k := by
      rw [Nat.mul_comm]; exact Nat.div_add_mod k c
    have he := h (k / c) (k % c) hi hj
    simpa [entry, hi, hj, hk0, Array.getD, hk, hk'] using he
  subst hcells
  rfl

theorem ofFn_entry (m : RatMatrix) : ofFn m.rows m.cols m.entry = m :=
  ext_entry rfl rfl fun _ _ hi hj => entry_ofFn_of_lt _ hi hj

/-! ## Building matrices -/

/-- The matrix with the given rows, which must be non-empty and of one
length. -/
def ofRows (rows : List (List Rat)) : Except LinearError RatMatrix :=
  match rows with
  | [] => .error (.shape .noRows)
  | first :: _ =>
    let cols := first.length
    if cols = 0 then .error (.shape .noColumns)
    else match rows.findIdx? fun row => row.length ≠ cols with
      | some index =>
        .error (.shape (.raggedRow index (rows.getD index []).length cols))
      | none =>
        .ok (ofFn rows.length cols fun i j => (rows.getD i []).getD j 0)

/-- The matrix with the given rows of integers. -/
def ofIntegers (rows : List (List Int)) : Except LinearError RatMatrix :=
  ofRows (rows.map fun row => row.map Rat.ofInt)

/-- The matrix of zeros. -/
def zeros (rows cols : Nat) : RatMatrix :=
  ofFn rows cols fun _ _ => 0

/-- The identity matrix. -/
def identity (n : Nat) : RatMatrix :=
  ofFn n n fun i j => if i = j then 1 else 0

/-! ## Rows and columns -/

/-- Row `i` as a vector. -/
def row (m : RatMatrix) (i : Nat) : List Rat :=
  (List.range m.cols).map fun j => m.entry i j

/-- Column `j` as a vector. -/
def column (m : RatMatrix) (j : Nat) : List Rat :=
  (List.range m.rows).map fun i => m.entry i j

/-- All rows. -/
def toRows (m : RatMatrix) : List (List Rat) :=
  (List.range m.rows).map m.row

/-- The entries with equal indices. -/
def diagonal (m : RatMatrix) : List Rat :=
  (List.range (min m.rows m.cols)).map fun i => m.entry i i

/-- The cells from one place up to another, if they lie in the array. -/
def slice? (m : RatMatrix) (start stop : Nat) : Option (List Rat) :=
  if start ≤ stop ∧ stop ≤ m.cells.size then
    some (m.cells.extract start stop).toList
  else none

/-- The cells from where row `i` starts to where the next one does, if there
are such cells. A matrix without columns has every row. -/
def row? (m : RatMatrix) (i : Nat) : Option (List Rat) :=
  m.slice? (wordPlace m.rows m.cols i 0) (wordPlace m.rows m.cols (i + 1) 0)

/-- Column `j`, if each row has such an entry. A matrix without rows has every
column. -/
def column? (m : RatMatrix) (j : Nat) : Option (List Rat) :=
  if m.rows = 0 ∨ j < m.cols then some (m.column j) else none

/-! ## Forms -/

/-- As many rows as columns. -/
def isSquare (m : RatMatrix) : Bool :=
  m.rows == m.cols

/-- Square, and zero below the diagonal. -/
def isUpperTriangular (m : RatMatrix) : Bool :=
  m.isSquare && (List.range m.rows).all fun i =>
    (List.range i).all fun j => decide (m.entry i j = 0)

/-- Square, and zero above the diagonal. -/
def isLowerTriangular (m : RatMatrix) : Bool :=
  m.isSquare && (List.range m.rows).all fun i =>
    (List.range m.cols).all fun j => decide (i < j → m.entry i j = 0)

/-- Square, with ones on the diagonal and zeros elsewhere. -/
def isIdentity (m : RatMatrix) : Bool :=
  decide (m = identity m.rows)

end RatMatrix

end Stepwise
