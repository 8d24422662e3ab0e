import Stepwise.RatMatrix.Basic

/-!
# Matrices as text

A matrix is read from a grid of texts, one exact number each, and written as
such a grid, or as lines of right-aligned cells in brackets.
-/

namespace Stepwise

/-- Reads the cells of a vector; the first text that is no number is the
error. -/
def parseVector (cells : List String) : Except LinearError (List Rat) :=
  cells.mapM fun text => (Fraction.read text).mapError .ofParseError

namespace RatMatrix

/-- **Reads a matrix** from a grid of texts. All cells are read before the
shape of the grid is looked at. -/
def parse (grid : List (List String)) : Except LinearError RatMatrix :=
  grid.mapM parseVector >>= ofRows

/-- The cells as texts. -/
def toStrings (m : RatMatrix) : List (List String) :=
  m.toRows.map fun row => row.map Fraction.format

/-- A text with blanks in front up to the given width. -/
def padLeft (width : Nat) (text : String) : String :=
  String.ofList (List.replicate (width - text.length) ' ') ++ text

/-- The width of the widest cell, and one when there are none. -/
def cellWidth (m : RatMatrix) : Nat :=
  match m.toStrings.flatten.map String.length with
  | [] => 1
  | first :: rest => rest.foldl max first

/-- The lines of the picture of a matrix, one per row: `[  1 -1/2 ]`. -/
def lines (m : RatMatrix) : List String :=
  m.toStrings.map fun row =>
    "[" ++ String.join (row.map fun cell => " " ++ padLeft m.cellWidth cell)
      ++ " ]"

/-- **The picture of a matrix.** -/
def display (m : RatMatrix) : String :=
  String.intercalate "\n" m.lines

end RatMatrix

end Stepwise
