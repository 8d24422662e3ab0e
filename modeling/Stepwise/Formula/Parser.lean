import Stepwise.Formula.Basic
import Stepwise.Formula.Token

/-!
# Parsing formulas

A formula is read by the usual precedences: sums of products of signed
powers. A product may be written without a sign in front of a number, a word
or a parenthesis, a power is right-associative and binds tighter than a sign
in front of it, and `lhs = rhs` is read as `lhs - rhs`.

There is one function for each level of precedence. Each returns the formula
that it read and the tokens after it, together with the fact that these are
fewer; this is what the recursion rests on.
-/

namespace Stepwise

/-- What a text of a formula is read against. -/
structure ParseContext where
  /-- The name of the variable. -/
  variableName : String
  /-- The number of characters of the text. -/
  stop : Nat

/-- A formula and the tokens after it. -/
abbrev Parsed (fits : List Token → Prop) :=
  Except SyntaxError (Formula × { rest : List Token // fits rest })

/-- The ratio of a circle's circumference to its diameter. -/
def piValue : Float := .ofBits 0x400921fb54442d18

/-- The base of the natural logarithm. -/
def eulerValue : Float := .ofBits 0x4005bf0a8b145769

/-- The operation of a sum that a token stands for. -/
def additive? : TokenKind → Option BinaryOp
  | .plus => some .add
  | .minus => some .sub
  | _ => none

/-- The operation of a product that a token stands for. -/
def multiplicative? : TokenKind → Option BinaryOp
  | .times => some .mul
  | .slash => some .div
  | _ => none

/-- Whether a token starts the second factor of a product written without a
sign. -/
def startsFactor : TokenKind → Bool
  | .number _ | .word _ | .openParen => true
  | _ => false

/-- Reads the parenthesis that closes the one at `position`. -/
def closing (position : Nat) (ts : List Token) :
    Except SyntaxError { rest : List Token // rest.length < ts.length } :=
  match ts with
  | ⟨.closeParen, _, _⟩ :: rest => .ok ⟨rest, Nat.lt_succ_self _⟩
  | _ => .error ⟨position, .unclosed⟩

mutual

/-- Reads a sum of products. -/
def parseSum (ctx : ParseContext) (ts : List Token) :
    Parsed fun rest => rest.length < ts.length := do
  let (left, ⟨rest, hrest⟩) ← parseProduct ctx ts
  let (formula, ⟨rest', hrest'⟩) ← parseSumTail ctx left rest
  return (formula, ⟨rest', Nat.lt_of_le_of_lt hrest' hrest⟩)
termination_by (ts.length, 4)

/-- Reads on after the first terms of a sum. -/
def parseSumTail (ctx : ParseContext) (left : Formula) (ts : List Token) :
    Parsed fun rest => rest.length ≤ ts.length :=
  match ts with
  | [] => .ok (left, ⟨[], Nat.le_refl _⟩)
  | t :: ts =>
    match additive? t.kind with
    | none => .ok (left, ⟨t :: ts, Nat.le_refl _⟩)
    | some op => do
      let (right, ⟨rest, hrest⟩) ← parseProduct ctx ts
      let (formula, ⟨rest', hrest'⟩) ←
        parseSumTail ctx (.binary op left right) rest
      return (formula, ⟨rest', by simp only [List.length_cons]; omega⟩)
termination_by (ts.length, 0)

/-- Reads a product of signed powers. -/
def parseProduct (ctx : ParseContext) (ts : List Token) :
    Parsed fun rest => rest.length < ts.length := do
  let (left, ⟨rest, hrest⟩) ← parseSigned ctx ts
  let (formula, ⟨rest', hrest'⟩) ← parseProductTail ctx left rest
  return (formula, ⟨rest', Nat.lt_of_le_of_lt hrest' hrest⟩)
termination_by (ts.length, 3)

/-- Reads on after the first factors of a product. -/
def parseProductTail (ctx : ParseContext) (left : Formula)
    (ts : List Token) : Parsed fun rest => rest.length ≤ ts.length :=
  match ts with
  | [] => .ok (left, ⟨[], Nat.le_refl _⟩)
  | t :: ts =>
    match multiplicative? t.kind with
    | some op => do
      let (right, ⟨rest, hrest⟩) ← parseSigned ctx ts
      let (formula, ⟨rest', hrest'⟩) ←
        parseProductTail ctx (.binary op left right) rest
      return (formula, ⟨rest', by simp only [List.length_cons]; omega⟩)
    | none =>
      if startsFactor t.kind then do
        let (right, ⟨rest, hrest⟩) ← parseSigned ctx (t :: ts)
        let (formula, ⟨rest', hrest'⟩) ←
          parseProductTail ctx (.binary .mul left right) rest
        return (formula, ⟨rest', by omega⟩)
      else .ok (left, ⟨t :: ts, Nat.le_refl _⟩)
termination_by (ts.length, 3)

/-- Reads a power with any number of signs in front. -/
def parseSigned (ctx : ParseContext) (ts : List Token) :
    Parsed fun rest => rest.length < ts.length :=
  match ts with
  | ⟨.minus, _, _⟩ :: ts => do
    let (operand, ⟨rest, hrest⟩) ← parseSigned ctx ts
    return (.neg operand, ⟨rest, Nat.lt_succ_of_lt hrest⟩)
  | ⟨.plus, _, _⟩ :: ts => do
    let (operand, ⟨rest, hrest⟩) ← parseSigned ctx ts
    return (operand, ⟨rest, Nat.lt_succ_of_lt hrest⟩)
  | ts => parsePower ctx ts
termination_by (ts.length, 2)

/-- Reads an operand with its exponent, if it has one. -/
def parsePower (ctx : ParseContext) (ts : List Token) :
    Parsed fun rest => rest.length < ts.length := do
  let (base, ⟨rest, hrest⟩) ← parseAtom ctx ts
  let (formula, ⟨rest', hrest'⟩) ← parseExponent ctx base rest
  return (formula, ⟨rest', Nat.lt_of_le_of_lt hrest' hrest⟩)
termination_by (ts.length, 1)

/-- Reads on after the base of a power. -/
def parseExponent (ctx : ParseContext) (base : Formula) (ts : List Token) :
    Parsed fun rest => rest.length ≤ ts.length :=
  match ts with
  | ⟨.power, _, _⟩ :: ts => do
    let (exponent, ⟨rest, hrest⟩) ← parseSigned ctx ts
    return (.binary .pow base exponent,
      ⟨rest, Nat.le_succ_of_le (Nat.le_of_lt hrest)⟩)
  | ts => .ok (base, ⟨ts, Nat.le_refl _⟩)
termination_by (ts.length, 0)

/-- Reads a number, a name, a call or a formula in parentheses. -/
def parseAtom (ctx : ParseContext) (ts : List Token) :
    Parsed fun rest => rest.length < ts.length :=
  match ts with
  | [] => .error ⟨ctx.stop, .unexpectedEnd⟩
  | ⟨.number value, _, _⟩ :: rest =>
    .ok (.number value, ⟨rest, Nat.lt_succ_self _⟩)
  | ⟨.openParen, position, _⟩ :: ts => do
    let (formula, ⟨rest, hrest⟩) ← parseSum ctx ts
    let ⟨rest', hrest'⟩ ← closing position rest
    return (formula, ⟨rest', by simp only [List.length_cons]; omega⟩)
  | ⟨.word name, position, _⟩ :: ts =>
    if name = ctx.variableName then .ok (.var, ⟨ts, Nat.lt_succ_self _⟩)
    else if name = "pi" then
      .ok (.number piValue, ⟨ts, Nat.lt_succ_self _⟩)
    else if name = "e" then
      .ok (.number eulerValue, ⟨ts, Nat.lt_succ_self _⟩)
    else
      match Function.ofName? name with
      | none => .error ⟨position, .unknownWord name⟩
      | some function =>
        match ts with
        | ⟨.openParen, opening, _⟩ :: ts => do
          let (argument, ⟨rest, hrest⟩) ← parseSum ctx ts
          let ⟨rest', hrest'⟩ ← closing opening rest
          return (.call function argument,
            ⟨rest', by simp only [List.length_cons]; omega⟩)
        | _ => .error ⟨position, .missingParentheses name⟩
  | ⟨_, position, _⟩ :: _ => .error ⟨position, .unexpectedToken⟩
termination_by (ts.length, 0)

end

/-- What is wrong with a token after the end of a formula. -/
def trailingFault : TokenKind → SyntaxFault
  | .equals => .secondEquals
  | .closeParen => .unmatchedClose
  | _ => .unexpectedToken

/-- Nothing may follow a formula. -/
def finish (formula : Formula) : List Token → Except SyntaxError Formula
  | [] => .ok formula
  | t :: _ => .error ⟨t.start, trailingFault t.kind⟩

/-- Reads a sum, or two with an equals sign between them. -/
def parseEquation (ctx : ParseContext) (ts : List Token) :
    Except SyntaxError Formula := do
  let (left, ⟨rest, _⟩) ← parseSum ctx ts
  match rest with
  | ⟨.equals, _, _⟩ :: rest => do
    let (right, ⟨rest', _⟩) ← parseSum ctx rest
    finish (.binary .sub left right) rest'
  | rest => finish left rest

/-- **Reads a formula** in the given variable. -/
def Formula.parse (text : List Char) (variableName : String) :
    Except SyntaxError Formula := do
  match ← tokens text with
  | [] => .error ⟨0, .empty⟩
  | ts => parseEquation ⟨variableName, text.length⟩ ts

end Stepwise
