import Stepwise.Number.Fraction
import Stepwise.Text.Blank
import Stepwise.Text.Letter
import Stepwise.Text.LowerCase

/-!
# The tokens of a formula

The text of a formula is a row of numbers, words and symbols, with blanks
anywhere between them. Numbers and words reach as far as they can; a comma is
a decimal point, words are lowered, and most symbols have more than one
spelling. Each token remembers the characters it was read from, counted from
the start of the text.
-/

namespace Stepwise

/-- What a token is. -/
inductive TokenKind where
  | number (value : Float)
  /-- A word in lower case. -/
  | word (name : String)
  | plus
  | minus
  | times
  | slash
  | power
  | openParen
  | closeParen
  | equals

/-- **A token**, read from the characters from `start` up to `stop`. -/
structure Token where
  kind : TokenKind
  start : Nat
  stop : Nat

/-- What is wrong with the text of a formula. -/
inductive SyntaxFault where
  | empty
  | malformedNumber (text : String)
  | unexpectedCharacter (c : Char)
  | secondEquals
  | unmatchedClose
  | unexpectedToken
  | unexpectedEnd
  | unknownWord (name : String)
  | missingParentheses (name : String)
  | unclosed
  deriving DecidableEq

/-- The fault in words. -/
def SyntaxFault.message : SyntaxFault → String
  | .empty => "empty expression"
  | .malformedNumber text => s!"invalid number '{text}'"
  | .unexpectedCharacter c => s!"unexpected character '{c}'"
  | .secondEquals => "only one '=' is allowed"
  | .unmatchedClose => "unmatched ')'"
  | .unexpectedToken => "unexpected token"
  | .unexpectedEnd => "unexpected end of expression"
  | .unknownWord name => s!"unknown identifier '{name}'"
  | .missingParentheses name => s!"function '{name}' needs parentheses"
  | .unclosed => "expected ')' to close '('"

/-- **An error in the text of a formula** and the character where it is
noticed. -/
structure SyntaxError where
  position : Nat
  fault : SyntaxFault
  deriving DecidableEq

/-- The error in words. -/
def SyntaxError.message (e : SyntaxError) : String :=
  s!"parse error at position {e.position}: {e.fault.message}"

/-- The characters of a number. -/
def isNumberChar (c : Char) : Bool :=
  c.isDigit || c == '.' || c == ','

/-- The meaning of a symbol. -/
def symbol? : Char → Option TokenKind
  | '+' => some .plus
  | '-' | '−' => some .minus
  | '*' | '·' | '×' => some .times
  | '/' | '÷' => some .slash
  | '^' => some .power
  | '(' | '[' => some .openParen
  | ')' | ']' => some .closeParen
  | '=' => some .equals
  | _ => none

/-- The value of a number as it is written, the double nearest to it. -/
def numberKind (position : Nat) (lexeme : List Char) :
    Except SyntaxError TokenKind :=
  let text := lexeme.map Fraction.pointOfComma
  match Fraction.parseMagnitude text with
  | .ok value => .ok (.number (nearestDouble value))
  | .error _ => .error ⟨position, .malformedNumber (String.ofList text)⟩

/-- The lowered name of a word. -/
def wordKind (lexeme : List Char) : TokenKind :=
  .word (String.ofList (Text.lower lexeme))

theorem length_dropWhile_le {α : Type} (p : α → Bool) (l : List α) :
    (l.dropWhile p).length ≤ l.length :=
  (List.dropWhile_sublist p).length_le

/-- The tokens of a text whose first character is the one at `position`. -/
def tokensFrom (position : Nat) :
    List Char → Except SyntaxError (List Token)
  | [] => .ok []
  | c :: cs =>
    if Text.isBlank c then tokensFrom (position + 1) cs
    else if isNumberChar c then do
      let lexeme := c :: cs.takeWhile isNumberChar
      let stop := position + lexeme.length
      let kind ← numberKind position lexeme
      return ⟨kind, position, stop⟩
        :: (← tokensFrom stop (cs.dropWhile isNumberChar))
    else if Text.isLetter c then do
      let lexeme := c :: cs.takeWhile Text.isWordChar
      let stop := position + lexeme.length
      return ⟨wordKind lexeme, position, stop⟩
        :: (← tokensFrom stop (cs.dropWhile Text.isWordChar))
    else
      match symbol? c with
      | some kind => do
        return ⟨kind, position, position + 1⟩
          :: (← tokensFrom (position + 1) cs)
      | none => .error ⟨position, .unexpectedCharacter c⟩
  termination_by cs => cs.length
  decreasing_by
    all_goals
      simp only [List.length_cons]
      first
        | exact Nat.lt_succ_self _
        | exact Nat.lt_succ_of_le (length_dropWhile_le _ _)

/-- **The tokens of a text.** -/
def tokens (text : List Char) : Except SyntaxError (List Token) :=
  tokensFrom 0 text

end Stepwise
