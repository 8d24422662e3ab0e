import Stepwise.Number.Fraction

/-!
# What can go wrong in linear algebra

Exact arithmetic never fails, so a computation on matrices can only be refused
for four reasons: the sizes do not fit, a cell is not a number, a determinant
is zero where the method divides by it, or a matrix has no inverse. The last
one comes with evidence, a non-zero vector that the matrix sends to zero.
-/

namespace Stepwise

/-- Sizes that do not fit the operation asked for. Indices are counted from
zero here and from one in messages. -/
inductive ShapeFault where
  | noRows
  | noColumns
  | raggedRow (index entries expected : Nat)
  | rightHandSide (entries rows : Nat)
  | augment (rows otherRows : Nat)
  | split (columns position : Nat)
  | product (rows cols otherRows otherCols : Nat)
  | vector (entries columns : Nat)
  | replacedColumn (column rows cols entries : Nat)
  | determinant (rows cols : Nat)
  | minor (row col rows cols : Nat)
  | inverse (rows cols : Nat)
  | adjugateOrder (order : Nat)
  deriving DecidableEq

/-- The largest order for which the adjugate method is offered. -/
def adjugateMaxOrder : Nat := 3

/-- The fault in words. -/
def ShapeFault.message : ShapeFault → String
  | .noRows => "matrix has no rows"
  | .noColumns => "matrix has no columns"
  | .raggedRow index entries expected =>
    s!"row {index + 1} has {entries} entries, expected {expected}"
  | .rightHandSide entries rows =>
    s!"right-hand side has {entries} entries but the matrix has {rows} rows"
  | .augment rows otherRows =>
    s!"cannot augment a matrix with {rows} rows by one with {otherRows} rows"
  | .split columns position => s!"cannot split {columns} columns at {position}"
  | .product rows cols otherRows otherCols =>
    s!"cannot multiply {rows}x{cols} by {otherRows}x{otherCols}"
  | .vector entries columns =>
    s!"vector has {entries} entries but the matrix has {columns} columns"
  | .replacedColumn column rows cols entries =>
    s!"cannot replace column {column + 1} of a {rows}x{cols} matrix with {entries} values"
  | .determinant rows cols =>
    s!"determinant requires a square matrix, got {rows}x{cols}"
  | .minor row col rows cols =>
    s!"minor ({row + 1}, {col + 1}) is outside a {rows}x{cols} matrix"
  | .inverse rows cols =>
    s!"only square matrices can be inverted, got {rows}x{cols}"
  | .adjugateOrder order =>
    s!"the adjugate method supports orders up to {adjugateMaxOrder}, got {order}; use Gauss-Jordan"

/-- **Why a computation on matrices was refused.** -/
inductive LinearError where
  | shape (fault : ShapeFault)
  /-- A text that is not an exact number, as it was given. -/
  | parse (input : String) (fault : Fraction.Fault)
  /-- The determinant is zero. -/
  | singular
  /-- A non-zero vector that the matrix sends to zero. -/
  | notInvertible (witness : List Rat)
  deriving DecidableEq

/-- A text that was not read as an error of linear algebra. -/
def LinearError.ofParseError (e : Fraction.ParseError) : LinearError :=
  .parse e.input e.fault

/-- The error in words. -/
def LinearError.message : LinearError → String
  | .shape fault => s!"shape error: {fault.message}"
  | .parse input fault =>
    s!"cannot parse \"{input}\" as a number: {fault.message}"
  | .singular => "matrix is singular: its determinant is 0"
  | .notInvertible witness =>
    s!"matrix is not invertible: A·v = 0 for v = {Fraction.formatVector witness}"

end Stepwise
