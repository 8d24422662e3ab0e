import Stepwise.Number.DoubleText
import Stepwise.Text.Blank

/-!
# Exact numbers as text

An exact number is read from a decimal (`1.25`, `-0,5`, `.5`) or from a
fraction of two decimals (`3/4`, `1,5/2`), blanks around them aside; point and
comma are both decimal marks. It is written in lowest terms: `3`, `-1/2`.
-/

namespace Stepwise.Fraction

/-- Why a text is not an exact number. -/
inductive Fault where
  | empty
  | secondSlash
  | missingDigits
  | unexpectedCharacter
  | zeroDenominator
  deriving DecidableEq

/-- The fault in words. -/
def Fault.message : Fault → String
  | .empty => "empty input"
  | .secondSlash => "more than one '/'"
  | .missingDigits => "missing digits"
  | .unexpectedCharacter => "unexpected character"
  | .zeroDenominator => "zero denominator"

/-- The text before the first `mark` and the text after it. -/
def splitAtFirst? (mark : Char) : List Char → Option (List Char × List Char)
  | [] => none
  | c :: cs =>
    if c = mark then some ([], cs)
    else (splitAtFirst? mark cs).map fun (left, right) => (c :: left, right)

/-- A sign, if there is one, and the rest. -/
def splitSign : List Char → Bool × List Char
  | '-' :: cs => (true, cs)
  | '+' :: cs => (false, cs)
  | cs => (false, cs)

/-- A comma read as a point. -/
def pointOfComma (c : Char) : Char :=
  if c = ',' then '.' else c

/-- Reads digits with at most one decimal point among them. -/
def parseMagnitude (cs : List Char) : Except Fault Rat :=
  let (whole, fraction) := (splitAtFirst? '.' cs).getD (cs, [])
  if whole.isEmpty && fraction.isEmpty then .error .missingDigits
  else if !(whole.all Char.isDigit && fraction.all Char.isDigit) then
    .error .unexpectedCharacter
  else
    .ok (mkRat (Nat.ofDigitChars 10 (whole ++ fraction) 0)
      (Nat.pow 10 fraction.length))

/-- **A text that is not an exact number**, as it was given, and why. -/
structure ParseError where
  input : String
  fault : Fault
  deriving DecidableEq

/-- Reads an optional sign, digits and at most one decimal mark. The characters
are a part of the text `original`, which an error names. -/
def parseDecimal (original : String) (cs : List Char) :
    Except ParseError Rat :=
  let (negative, body) := splitSign (cs.map pointOfComma)
  match parseMagnitude body with
  | .error fault => .error ⟨original, fault⟩
  | .ok magnitude => .ok (if negative then -magnitude else magnitude)

/-- Reads a decimal, or two around a slash. -/
def parseChars (original : String) (cs : List Char) :
    Except ParseError Rat :=
  let body := Text.trim cs
  if body.isEmpty then .error ⟨original, .empty⟩
  else match splitAtFirst? '/' body with
    | none => parseDecimal original body
    | some (above, below) => do
      if below.contains '/' then throw ⟨original, .secondSlash⟩
      let numerator ← parseDecimal original (Text.trim above)
      let denominator ← parseDecimal original (Text.trim below)
      if denominator = 0 then throw ⟨original, .zeroDenominator⟩
      return numerator / denominator

/-- **Reads an exact number.** An error names the text with its blanks. -/
def read (text : String) : Except ParseError Rat :=
  parseChars text text.toList

/-- Reads an exact number, and says of another text only why it is none. -/
def parse (text : String) : Except Fault Rat :=
  (read text).mapError ParseError.fault

/-- An integer in decimal digits. -/
def integerChars (n : Int) : List Char :=
  signed (n < 0) (Nat.toDigits 10 n.natAbs)

/-- An exact number in lowest terms, a whole one without denominator. -/
def chars (value : Rat) : List Char :=
  if value.den = 1 then integerChars value.num
  else integerChars value.num ++ '/' :: Nat.toDigits 10 value.den

/-- **Writes an exact number.** -/
def format (value : Rat) : String :=
  String.ofList (chars value)

/-- An exact number as an operand: in parentheses when it is negative. -/
def formatOperand (value : Rat) : String :=
  if value < 0 then s!"({format value})" else format value

/-- A list of exact numbers: `[1, -1/2]`. -/
def formatVector (values : List Rat) : String :=
  "[" ++ String.intercalate ", " (values.map format) ++ "]"

/-- The decimal approximation of an exact number: the nearest double to so
many decimals. -/
def formatDecimal (places : Nat) (value : Rat) : String :=
  fixedPlaces places (nearestDouble value)

end Stepwise.Fraction
