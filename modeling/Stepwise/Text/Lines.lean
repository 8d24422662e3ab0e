/-!
# Lines of a text

A line ends at a line feed, which may follow a carriage return; the last line
need not end. A text that ends with a line feed has no empty line after it.
-/

namespace Stepwise.Text

/-- The lines of a text, without their ends. -/
def splitLines : List Char → List (List Char)
  | [] => []
  | '\n' :: cs => [] :: splitLines cs
  | '\r' :: '\n' :: cs => [] :: splitLines cs
  | c :: cs =>
    match cs, splitLines cs with
    | [], _ | _ :: _, [] => [[c]]
    | _ :: _, line :: lines => (c :: line) :: lines

/-- The lines of a string. -/
def lines (text : String) : List String :=
  (splitLines text.toList).map String.ofList

end Stepwise.Text
