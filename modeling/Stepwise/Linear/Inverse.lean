import Stepwise.Linear.Determinant
import Stepwise.Linear.Elimination

/-!
# Inverse matrices

Elimination turns `[A | I]` into `[I | A⁻¹]` when `A` has an inverse, and
otherwise leaves a column without pivot, from which a vector can be read that
`A` sends to zero. For small orders the inverse is also given by the adjugate,
`adj(A) / det(A)`.
-/

namespace Stepwise.RatMatrix

/-- A vector that a matrix with the given reduced form sends to zero, read off
the first column without pivot; zero when each of the first `n` columns has
one. -/
def nullVector (rref : RatMatrix) (pivots : List Nat) (n : Nat) : List Rat :=
  match (List.range n).find? fun c => !pivots.contains c with
  | none => List.replicate n 0
  | some free =>
    (List.range n).map fun j =>
      match pivots.idxOf? j with
      | some i => -rref.entry i free
      | none => if j = free then 1 else 0

/-- The reduction of `[A | I]`. -/
def reduceWithIdentity (a : RatMatrix) : Reduction :=
  (a.beside (identity a.rows)).reduceColumns a.rows

/-- **The inverse by elimination.** -/
def invertByElimination (a : RatMatrix) :
    Except LinearError (Worked RatMatrix) :=
  if !a.isSquare then .error (.shape (.inverse a.rows a.cols))
  else
    let reduction := a.reduceWithIdentity
    if reduction.rank < a.rows then
      .error (.notInvertible
        (nullVector reduction.rref reduction.pivots a.rows))
    else do
      let (_, inverse) ← reduction.rref.splitColumns a.rows
      return {
        result := inverse
        trace := reduction.trace
          ++ [(Step.matrix "A^-1 (right half)" inverse).because
            "The left half reached the identity, so the right half is the inverse"] }

/-- **The inverse by the adjugate**, for small orders. -/
def invertByAdjugate (a : RatMatrix) :
    Except LinearError (Worked RatMatrix) :=
  if !a.isSquare then .error (.shape (.inverse a.rows a.cols))
  else if adjugateMaxOrder < a.rows then
    .error (.shape (.adjugateOrder a.rows))
  else
    let worked := a.expand 0
    let determinant := worked.result
    if determinant = 0 then .error .singular
    else
      let adjoint := a.cofactors.transpose
      let inverse := adjoint.scale determinant⁻¹
      .ok {
        result := inverse
        trace := Trace.deeper 1 worked.trace
          ++ [Step.scalar "det(A)" determinant,
            (Step.matrix "Cofactor matrix C" a.cofactors).because
              "C_ij = (-1)^(i+j) * det(M_ij)",
            Step.matrix "adj(A) = C^T" adjoint,
            (Step.matrix "A^-1 = adj(A) / det(A)" inverse).because
              s!"Each entry of adj(A) divided by {Fraction.format determinant}"] }

/-! ## Events -/

/-- What is reported while a matrix is inverted by elimination. -/
def invertByEliminationEvents (a : RatMatrix) : List Event :=
  if !a.isSquare then []
  else
    let n := a.rows
    let rank := a.reduceWithIdentity.rank
    .debug s!"inverting a {n}x{n} matrix by Gauss-Jordan"
      :: (a.beside (identity n)).reduceColumnsEvents n
      ++ (if rank < n then
          [.debug s!"matrix has rank {rank} < {n}; not invertible"]
        else [])

/-- What is reported while a matrix is inverted by the adjugate. -/
def invertByAdjugateEvents (a : RatMatrix) : List Event :=
  if !a.isSquare || decide (adjugateMaxOrder < a.rows) then []
  else
    .debug s!"inverting a {a.rows}x{a.rows} matrix by the adjugate"
      :: a.determinantEvents
      ++ (if (a.expand 0).result = 0 then [] else a.cofactorsEvents)

end Stepwise.RatMatrix
