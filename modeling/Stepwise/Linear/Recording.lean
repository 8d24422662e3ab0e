import Stepwise.Linear.Determinant

/-!
# Writing the account of a determinant

While a determinant is worked out, its account is written at the end of a trace
that may hold steps already: the matrix before its terms, a minor before its
own determinant, a term as soon as the determinant of its minor is known. Here
the recursion is given in that form, a program over the trace that is being
written. What it writes is the account of `RatMatrix.expandOrder`.
-/

namespace Stepwise

/-- Writes a step at the end of the trace. -/
def Trace.push (step : Step) : StateM Trace Unit :=
  modify fun steps => steps ++ [step]

namespace Worked

variable {α : Type}

/-- Writes the account of a result at the end of the trace. -/
def record (worked : Worked α) : StateM Trace α :=
  modifyGet fun steps => (worked.result, steps ++ worked.trace)

/-- A worked result with its account moved `depth` levels deeper. -/
def deeper (depth : Nat) (worked : Worked α) : Worked α :=
  { worked with trace := Trace.deeper depth worked.trace }

end Worked

namespace RatMatrix

/-- **Writes the account of the determinant** of a square matrix of the given
order at the end of the trace, its own steps at the given depth, and gives the
determinant. -/
def recordOrder : Nat → RatMatrix → Nat → StateM Trace Rat
  | 0, m, depth => (m.diagonalProduct depth).record
  | 1, m, depth => (m.singleEntry depth).record
  | 2, m, depth => (m.crossDifference depth).record
  | n + 3, m, depth =>
    if m.isUpperTriangular || m.isLowerTriangular then
      (m.diagonalProduct depth).record
    else do
      Trace.push (m.expansionStep.atDepth depth)
      let terms ← (List.range m.cols).mapM fun col =>
        if m.entry 0 col = 0 then do
          Trace.push ((omittedStep col).atDepth depth)
          return 0
        else do
          Trace.push ((m.minorStep col).atDepth depth)
          let det ← recordOrder (n + 2) (m.minor 0 col) (depth + 1)
          Trace.push ((m.termStep col det).atDepth depth)
          return m.signedTerm col det
      Trace.push ((m.sumStep terms).atDepth depth)
      return sumOf terms

/-- Writes the account of the determinant of a square matrix at the end of the
trace, and gives the determinant. -/
def record (m : RatMatrix) (depth : Nat) : StateM Trace Rat :=
  recordOrder m.rows m depth

end RatMatrix

end Stepwise
