import Stepwise.RatMatrix.Basic

/-!
# The algebra of matrices

Transposition, products, and the operations that take matrices apart and put
them side by side. Where the sizes must agree there are two functions: the
formula itself, which is total, and under the plain name the operation that
refuses arguments of the wrong size.
-/

namespace Stepwise.RatMatrix

/-- The sum of `f 0, …, f (n - 1)`. -/
def sumRange (n : Nat) (f : Nat → Rat) : Rat :=
  (List.range n).foldl (fun sum k => sum + f k) 0

/-- Rows and columns exchanged. -/
def transpose (m : RatMatrix) : RatMatrix :=
  ofFn m.cols m.rows fun i j => m.entry j i

/-- Every entry multiplied by `factor`. -/
def scale (m : RatMatrix) (factor : Rat) : RatMatrix :=
  ofFn m.rows m.cols fun i j => m.entry i j * factor

/-- Rows times columns. -/
def times (a b : RatMatrix) : RatMatrix :=
  ofFn a.rows b.cols fun i j =>
    sumRange a.cols fun k => a.entry i k * b.entry k j

/-- **The product** of two matrices, when the rows of the one are as long as
the columns of the other. -/
def product (a b : RatMatrix) : Except LinearError RatMatrix :=
  if a.cols = b.rows then .ok (a.times b)
  else .error (.shape (.product a.rows a.cols b.rows b.cols))

/-- The matrix applied to a vector. -/
def apply (m : RatMatrix) (v : List Rat) : List Rat :=
  (List.range m.rows).map fun i =>
    sumRange m.cols fun j => m.entry i j * v.getD j 0

/-- **The matrix applied to a vector** that has an entry for each column. -/
def mulVector (m : RatMatrix) (v : List Rat) : Except LinearError (List Rat) :=
  if v.length = m.cols then .ok (m.apply v)
  else .error (.shape (.vector v.length m.cols))

/-! ## Side by side -/

/-- `a` with `b` to its right. -/
def beside (a b : RatMatrix) : RatMatrix :=
  ofFn a.rows (a.cols + b.cols) fun i j =>
    if j < a.cols then a.entry i j else b.entry i (j - a.cols)

/-- `[A | B]`, for two matrices of the same height. -/
def augment (a b : RatMatrix) : Except LinearError RatMatrix :=
  if b.rows = a.rows then .ok (a.beside b)
  else .error (.shape (.augment a.rows b.rows))

/-- `a` with one column to its right. -/
def besideColumn (a : RatMatrix) (b : List Rat) : RatMatrix :=
  ofFn a.rows (a.cols + 1) fun i j =>
    if j < a.cols then a.entry i j else b.getD i 0

/-- `[A | b]`, for a vector with an entry for each row. -/
def augmentColumn (a : RatMatrix) (b : List Rat) :
    Except LinearError RatMatrix :=
  if b.length = a.rows then .ok (a.besideColumn b)
  else .error (.shape (.rightHandSide b.length a.rows))

/-- The first `count` columns. -/
def leftColumns (m : RatMatrix) (count : Nat) : RatMatrix :=
  ofFn m.rows count m.entry

/-- The columns from `first` on. -/
def rightColumns (m : RatMatrix) (first : Nat) : RatMatrix :=
  ofFn m.rows (m.cols - first) fun i j => m.entry i (first + j)

/-- `[L | R]` taken apart before column `position`, so that neither part is
empty. -/
def splitColumns (m : RatMatrix) (position : Nat) :
    Except LinearError (RatMatrix × RatMatrix) :=
  if position = 0 ∨ m.cols ≤ position then
    .error (.shape (.split m.cols position))
  else .ok (m.leftColumns position, m.rightColumns position)

/-- Column `j` replaced by `values`. -/
def replaceColumn (m : RatMatrix) (j : Nat) (values : List Rat) : RatMatrix :=
  ofFn m.rows m.cols fun r c => if c = j then values.getD r 0 else m.entry r c

/-- **A column replaced** by a vector with an entry for each row. -/
def withColumn (m : RatMatrix) (j : Nat) (values : List Rat) :
    Except LinearError RatMatrix :=
  if m.cols ≤ j ∨ values.length ≠ m.rows then
    .error (.shape (.replacedColumn j m.rows m.cols values.length))
  else .ok (m.replaceColumn j values)

/-! ## Minors -/

/-- The index in the full matrix of index `k` in a minor without `removed`. -/
def skip (removed k : Nat) : Nat :=
  if k < removed then k else k + 1

/-- **The minor**: the matrix without row `i` and column `j`. -/
def minor (m : RatMatrix) (i j : Nat) : RatMatrix :=
  ofFn (m.rows - 1) (m.cols - 1) fun r c => m.entry (skip i r) (skip j c)

/-- The minor of a matrix that has the row and the column, and others
besides. -/
def minor? (m : RatMatrix) (i j : Nat) : Option RatMatrix :=
  if 2 ≤ m.rows ∧ 2 ≤ m.cols ∧ i < m.rows ∧ j < m.cols then some (m.minor i j)
  else none

end Stepwise.RatMatrix
