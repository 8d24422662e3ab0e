import Stepwise.Number.Shortest

/-!
# Doubles in messages

A double is written with the fewest digits that read back. Two styles differ
in the layout of these digits: the plain one is always positional and leaves
out an empty fraction, the annotated one always shows a fraction or an
exponent, so that a double cannot be taken for an integer.

`fixedPlaces` writes the exact value of a double rounded to a given number of
decimals.
-/

namespace Stepwise

/-- How the digits of a double are laid out. The point stands after
`point` digits, counted from the first one. -/
structure DoubleStyle where
  /-- Whether a whole number is written with `.0`. -/
  keepFraction : Bool
  /-- The least and the largest `point` that are written without exponent; no
  exponent at all when this is `none`. -/
  positional : Option (Int × Int)

/-- Always positional, no empty fraction. -/
def DoubleStyle.plain : DoubleStyle :=
  { keepFraction := false, positional := none }

/-- With a fraction, and with an exponent below `0.0001` and from `10^16`
on. -/
def DoubleStyle.annotated : DoubleStyle :=
  { keepFraction := true, positional := some (-3, 16) }

/-- Digits with the point after the first `point` of them, zeros filled in. -/
def positionalText (keepFraction : Bool) (digits : List Char) (point : Int) :
    List Char :=
  if point ≤ 0 then
    ['0', '.'] ++ List.replicate (-point).toNat '0' ++ digits
  else if digits.length ≤ point then
    digits ++ List.replicate (point.toNat - digits.length) '0'
      ++ (if keepFraction then ['.', '0'] else [])
  else digits.take point.toNat ++ ['.'] ++ digits.drop point.toNat

/-- Digits with the point after the first, and the power of ten. -/
def exponentText (digits : List Char) (point : Int) : List Char :=
  let fraction :=
    match digits.drop 1 with
    | [] => []
    | rest => '.' :: rest
  digits.take 1 ++ fraction ++ ['e'] ++ (toString (point - 1)).toList

/-- The text of the digits of a positive double. -/
def DoubleStyle.layout (style : DoubleStyle) (digits : List Char)
    (point : Int) : List Char :=
  match style.positional with
  | none => positionalText style.keepFraction digits point
  | some (least, largest) =>
    if least ≤ point ∧ point ≤ largest then
      positionalText style.keepFraction digits point
    else exponentText digits point

/-- The digits of a decimal without trailing zeros, and the place of its
point. -/
def Decimal.digitsAndPoint (d : Decimal) : List Char × Int :=
  let digits := Nat.toDigits 10 d.significand
  ((digits.reverse.dropWhile (· == '0')).reverse, digits.length + d.exponent)

/-- The sign of a number in front of its text. -/
def signed (negative : Bool) (text : List Char) : List Char :=
  if negative then '-' :: text else text

/-- **The text of a double** in a style. -/
def DoubleStyle.text (style : DoubleStyle) (x : Float) : String :=
  String.ofList <|
    match Binary64.ofFloat x with
    | .nan => ['N', 'a', 'N']
    | .infinite negative => signed negative ['i', 'n', 'f']
    | .finite negative mantissa exponent =>
      signed negative <|
        if mantissa = 0 then
          if style.keepFraction then ['0', '.', '0'] else ['0']
        else
          let (digits, point) :=
            (shortestDecimal mantissa exponent).digitsAndPoint
          style.layout digits point

/-- The text of a double in messages. -/
def plainText (x : Float) : String :=
  DoubleStyle.plain.text x

/-- The text of a double where it must not look like an integer. -/
def annotatedText (x : Float) : String :=
  DoubleStyle.annotated.text x

/-- `count / 10^places` in positional form. -/
def placesText (count places : Nat) : List Char :=
  let digits := Nat.toDigits 10 count
  let padded := List.replicate (places + 1 - digits.length) '0' ++ digits
  let whole := padded.length - places
  if places = 0 then padded
  else padded.take whole ++ ['.'] ++ padded.drop whole

/-- **A double to a fixed number of decimals.** Its exact value is rounded, a
half to even, and keeps its sign even when nothing else is left of it. -/
def fixedPlaces (places : Nat) (x : Float) : String :=
  String.ofList <|
    match Binary64.ofFloat x with
    | .nan => ['N', 'a', 'N']
    | .infinite negative => signed negative ['i', 'n', 'f']
    | .finite negative mantissa exponent =>
      signed negative <|
        let num := mantissa * Nat.pow 2 exponent.toNat
        let den := Nat.pow 2 (-exponent).toNat
        placesText (roundHalfEven (num * Nat.pow 10 places) den) places

end Stepwise
