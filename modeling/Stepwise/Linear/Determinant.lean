import Stepwise.RatMatrix.Algebra
import Stepwise.Trace
import Stepwise.Event

/-!
# Determinants by cofactor expansion

The determinant is worked out as one does by hand: orders one and two by their
formulas, a triangular matrix by the product of its diagonal, and every other
matrix along its first row, term by term, leaving out the terms whose entry is
zero. The account of each minor is nested one level below that of its matrix.
-/

namespace Stepwise

/-- The label of the step that evaluates a determinant of order two. -/
def crossLabel : String := "2x2 determinant: ad - bc"

/-- The arithmetic of a determinant of order two. -/
def crossText (a b c d : Rat) : String :=
  let text := Fraction.format
  s!"({text a})({text d}) - ({text b})({text c}) = "
    ++ s!"{text (a * d)} - {Fraction.formatOperand (b * c)} = "
    ++ text (a * d - b * c)

namespace RatMatrix

/-- The determinant of order one. -/
def singleEntry (m : RatMatrix) (depth : Nat) : Worked Rat where
  result := m.entry 0 0
  trace := [(Step.scalar "1x1 determinant: the single entry"
    (m.entry 0 0)).atDepth depth]

/-- The determinant of order two. -/
def crossDifference (m : RatMatrix) (depth : Nat) : Worked Rat :=
  let (a, b, c, d) := (m.entry 0 0, m.entry 0 1, m.entry 1 0, m.entry 1 1)
  { result := a * d - b * c
    trace := [((Step.scalar crossLabel (a * d - b * c)).because
      (crossText a b c d)).atDepth depth] }

/-- The determinant of a triangular matrix. -/
def diagonalProduct (m : RatMatrix) (depth : Nat) : Worked Rat :=
  let value := m.diagonal.foldl (fun product entry => product * entry) 1
  let kind := if m.isUpperTriangular then "Upper" else "Lower"
  let factors :=
    String.join (m.diagonal.map fun entry => s!"({Fraction.format entry})")
  { result := value
    trace := [((Step.scalar
        s!"{kind} triangular matrix: determinant is the product of the diagonal"
        value).because s!"{factors} = {Fraction.format value}").atDepth
      depth] }

/-! ## The steps of an expansion -/

/-- The step that shows the matrix which is expanded. -/
def expansionStep (m : RatMatrix) : Step :=
  .matrix s!"Cofactor expansion of a {m.cols}x{m.cols} matrix along row 1" m

/-- The remark that the term of column `col` is left out. -/
def omittedStep (col : Nat) : Step :=
  .note s!"Term {col + 1}: a1{col + 1} = 0, term omitted"

/-- The step that shows the minor of column `col`. -/
def minorStep (m : RatMatrix) (col : Nat) : Step :=
  .matrix s!"Minor M1{col + 1} (row 1 and column {col + 1} removed)"
    (m.minor 0 col)

/-- The term of column `col`, where `det` is the determinant of its minor. -/
def signedTerm (m : RatMatrix) (col : Nat) (det : Rat) : Rat :=
  let magnitude := m.entry 0 col * det
  if col % 2 = 0 then magnitude else -magnitude

/-- The step that shows the term of column `col`. -/
def termStep (m : RatMatrix) (col : Nat) (det : Rat) : Step :=
  let sign := if col % 2 = 0 then "+" else "-"
  let text := Fraction.format
  let term := m.signedTerm col det
  (Step.scalar s!"Term {col + 1}" term).because
    s!"({sign}1)({text (m.entry 0 col)})({text det}) = {text term}"

/-- The sum of the terms, added from the left. -/
def sumOf (terms : List Rat) : Rat :=
  terms.foldl (fun sum term => sum + term) 0

/-- The step that shows the sum of the terms. -/
def sumStep (m : RatMatrix) (terms : List Rat) : Step :=
  let sum := String.intercalate " + " (terms.map Fraction.formatOperand)
  (Step.scalar s!"det = sum of the {m.cols} terms" (sumOf terms)).because
    s!"{sum} = {Fraction.format (sumOf terms)}"

/-! ## The recursion -/

/-- The term of column `col` in the expansion along the first row, when its
entry is zero. -/
def omittedTerm (depth col : Nat) : Worked Rat where
  result := 0
  trace := [(omittedStep col).atDepth depth]

/-- The term of column `col` in the expansion along the first row, where
`minor` is the worked determinant of the minor. -/
def expansionTerm (m : RatMatrix) (depth col : Nat) (minor : Worked Rat) :
    Worked Rat where
  result := m.signedTerm col minor.result
  trace := (m.minorStep col).atDepth depth
    :: minor.trace
    ++ [(m.termStep col minor.result).atDepth depth]

/-- The sum of the terms of an expansion along the first row. -/
def expansionSum (m : RatMatrix) (depth : Nat) (terms : List (Worked Rat)) :
    Worked Rat where
  result := sumOf (terms.map (·.result))
  trace := m.expansionStep.atDepth depth
    :: terms.flatMap (·.trace)
    ++ [(m.sumStep (terms.map (·.result))).atDepth depth]

/-- **The determinant of a square matrix of the given order**, worked out at
the given depth. -/
def expandOrder : Nat → RatMatrix → Nat → Worked Rat
  | 0, m, depth => m.diagonalProduct depth
  | 1, m, depth => m.singleEntry depth
  | 2, m, depth => m.crossDifference depth
  | n + 3, m, depth =>
    if m.isUpperTriangular || m.isLowerTriangular then m.diagonalProduct depth
    else
      m.expansionSum depth <| (List.range m.cols).map fun col =>
        if m.entry 0 col = 0 then omittedTerm depth col
        else
          m.expansionTerm depth col <|
            expandOrder (n + 2) (m.minor 0 col) (depth + 1)

/-- The determinant of a square matrix, worked out at the given depth. -/
def expand (m : RatMatrix) (depth : Nat) : Worked Rat :=
  expandOrder m.rows m depth

/-- **The determinant** with its account. -/
def determinant (m : RatMatrix) : Except LinearError (Worked Rat) :=
  if m.isSquare then .ok (m.expand 0)
  else .error (.shape (.determinant m.rows m.cols))

/-- The determinant without its account. -/
def determinantValue (m : RatMatrix) : Except LinearError Rat :=
  m.determinant.map (·.result)

/-! ## Minors and cofactors -/

/-- The determinant of the minor without row `i` and column `j`; that of the
empty minor is one. -/
def minorValue (m : RatMatrix) (i j : Nat) : Rat :=
  if m.rows = 1 then 1 else ((m.minor i j).expand 0).result

/-- The signed determinant of a minor. -/
def cofactorValue (m : RatMatrix) (i j : Nat) : Rat :=
  if (i + j) % 2 = 0 then m.minorValue i j else -m.minorValue i j

/-- A square matrix with row `i` and column `j`. -/
def checkMinor (m : RatMatrix) (i j : Nat) : Except LinearError Unit :=
  if !m.isSquare then .error (.shape (.determinant m.rows m.cols))
  else if m.rows ≤ i ∨ m.cols ≤ j then
    .error (.shape (.minor i j m.rows m.cols))
  else .ok ()

/-- **The determinant of a minor** of a square matrix. -/
def minorDeterminant (m : RatMatrix) (i j : Nat) : Except LinearError Rat :=
  (m.checkMinor i j).map fun _ => m.minorValue i j

/-- **The cofactor**: the determinant of a minor with its sign. -/
def cofactor (m : RatMatrix) (i j : Nat) : Except LinearError Rat :=
  (m.checkMinor i j).map fun _ => m.cofactorValue i j

/-- The matrix of cofactors. -/
def cofactors (m : RatMatrix) : RatMatrix :=
  ofFn m.rows m.rows m.cofactorValue

/-- **The matrix of cofactors** of a square matrix. -/
def cofactorMatrix (m : RatMatrix) : Except LinearError RatMatrix :=
  if m.isSquare then .ok m.cofactors
  else .error (.shape (.inverse m.rows m.cols))

/-- **The adjugate**: the matrix of cofactors transposed. -/
def adjugate (m : RatMatrix) : Except LinearError RatMatrix :=
  m.cofactorMatrix.map transpose

/-! ## Events -/

/-- Each determinant of order two is reported with its arithmetic. -/
def crossEvent? (step : Step) : Option Event :=
  if step.label = crossLabel then
    step.rationale.map fun text => .trace s!"2x2 determinant: {text}"
  else none

/-- What is reported while the determinant is worked out. -/
def determinantEvents (m : RatMatrix) : List Event :=
  match m.determinant with
  | .error _ => []
  | .ok worked =>
    .debug s!"determinant of a {m.rows}x{m.cols} matrix"
      :: worked.trace.filterMap crossEvent?
      ++ [.debug s!"determinant = {Fraction.format worked.result}"]

/-- What is reported while a cofactor is worked out. -/
def cofactorEvents (m : RatMatrix) (i j : Nat) : List Event :=
  if m.rows = 1 then [] else (m.minor i j).determinantEvents

/-- What is reported while the matrix of cofactors is worked out. -/
def cofactorsEvents (m : RatMatrix) : List Event :=
  (List.range m.rows).flatMap fun i =>
    (List.range m.rows).flatMap fun j => m.cofactorEvents i j

end RatMatrix

end Stepwise
