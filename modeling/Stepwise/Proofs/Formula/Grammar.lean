import Stepwise.Formula.Parser

/-!
# The grammar of formulas

What a formula looks like, said without a parser: `Derives` relates the tokens
of a phrase to its tree, one rule for each way to build a phrase. Sums and
products associate to the left, as their rules take a phrase of the same sort on
the left only; a power associates to the right, its exponent being signed again.
A name that is the name of the variable is the variable and nothing else, also
where it is that of a constant or of a function.
-/

namespace Stepwise

/-- The sorts of phrases, from the loosest to the tightest. -/
inductive Phrase where
  | equation
  | sum
  | product
  | signed
  | power
  | atom

/-- Tokens that begin with a number, a word or an opening parenthesis. -/
inductive BeginsOperand : List TokenKind → Prop where
  | number (value : Float) (ks : List TokenKind) :
    BeginsOperand (.number value :: ks)
  | word (name : String) (ks : List TokenKind) : BeginsOperand (.word name :: ks)
  | openParen (ks : List TokenKind) : BeginsOperand (.openParen :: ks)

theorem BeginsOperand.append {ks : List TokenKind} (h : BeginsOperand ks)
    (ks' : List TokenKind) : BeginsOperand (ks ++ ks') := by
  cases h with
  | number value ks => exact .number value _
  | word name ks => exact .word name _
  | openParen ks => exact .openParen _

theorem BeginsOperand.exists_cons {ks : List TokenKind}
    (h : BeginsOperand ks) :
    ∃ k ks', ks = k :: ks' ∧ startsFactor k = true := by
  cases h with
  | number value ks => exact ⟨_, ks, rfl, rfl⟩
  | word name ks => exact ⟨_, ks, rfl, rfl⟩
  | openParen ks => exact ⟨_, ks, rfl, rfl⟩

/-- **The names of the functions.** Three functions have a second name. -/
inductive NamesFunction : String → Function → Prop where
  | sen : NamesFunction "sen" .sin
  | sin : NamesFunction "sin" .sin
  | cos : NamesFunction "cos" .cos
  | tan : NamesFunction "tan" .tan
  | tg : NamesFunction "tg" .tan
  | ln : NamesFunction "ln" .ln
  | log : NamesFunction "log" .log10
  | exp : NamesFunction "exp" .exp
  | sqrt : NamesFunction "sqrt" .sqrt
  | raiz : NamesFunction "raiz" .sqrt
  | abs : NamesFunction "abs" .abs

/-- The parser knows these names and no others. -/
theorem ofName?_eq_some_iff {name : String} {function : Function} :
    Function.ofName? name = some function ↔ NamesFunction name function := by
  constructor
  · intro h
    unfold Function.ofName? at h
    split at h <;> cases h <;> constructor
  · rintro (_ | _) <;> rfl

theorem NamesFunction.isSome_ofName? {name : String} {function : Function}
    (named : NamesFunction name function) :
    (Function.ofName? name).isSome = true := by
  rw [ofName?_eq_some_iff.mpr named]
  rfl

/-- **The grammar of formulas** in the variable of the given name: the tokens
`ks` are a phrase of a sort, and `f` is its tree. -/
inductive Derives (variableName : String) :
    Phrase → List TokenKind → Formula → Prop where
  | equation_sum {ks : List TokenKind} {f : Formula}
      (sum : Derives variableName .sum ks f) :
      Derives variableName .equation ks f
  | equation_equals {ls rs : List TokenKind} {l r : Formula}
      (left : Derives variableName .sum ls l)
      (right : Derives variableName .sum rs r) :
      Derives variableName .equation (ls ++ .equals :: rs) (.binary .sub l r)
  | sum_product {ks : List TokenKind} {f : Formula}
      (product : Derives variableName .product ks f) :
      Derives variableName .sum ks f
  | sum_plus {ls rs : List TokenKind} {l r : Formula}
      (left : Derives variableName .sum ls l)
      (right : Derives variableName .product rs r) :
      Derives variableName .sum (ls ++ .plus :: rs) (.binary .add l r)
  | sum_minus {ls rs : List TokenKind} {l r : Formula}
      (left : Derives variableName .sum ls l)
      (right : Derives variableName .product rs r) :
      Derives variableName .sum (ls ++ .minus :: rs) (.binary .sub l r)
  | product_signed {ks : List TokenKind} {f : Formula}
      (signed : Derives variableName .signed ks f) :
      Derives variableName .product ks f
  | product_times {ls rs : List TokenKind} {l r : Formula}
      (left : Derives variableName .product ls l)
      (right : Derives variableName .signed rs r) :
      Derives variableName .product (ls ++ .times :: rs) (.binary .mul l r)
  | product_slash {ls rs : List TokenKind} {l r : Formula}
      (left : Derives variableName .product ls l)
      (right : Derives variableName .signed rs r) :
      Derives variableName .product (ls ++ .slash :: rs) (.binary .div l r)
  /-- A product written without a sign. -/
  | product_adjacent {ls rs : List TokenKind} {l r : Formula}
      (left : Derives variableName .product ls l)
      (right : Derives variableName .power rs r) (begins : BeginsOperand rs) :
      Derives variableName .product (ls ++ rs) (.binary .mul l r)
  | signed_minus {ks : List TokenKind} {f : Formula}
      (operand : Derives variableName .signed ks f) :
      Derives variableName .signed (.minus :: ks) (.neg f)
  | signed_plus {ks : List TokenKind} {f : Formula}
      (operand : Derives variableName .signed ks f) :
      Derives variableName .signed (.plus :: ks) f
  | signed_power {ks : List TokenKind} {f : Formula}
      (power : Derives variableName .power ks f) :
      Derives variableName .signed ks f
  | power_atom {ks : List TokenKind} {f : Formula}
      (atom : Derives variableName .atom ks f) :
      Derives variableName .power ks f
  | power_power {bs es : List TokenKind} {b e : Formula}
      (base : Derives variableName .atom bs b)
      (exponent : Derives variableName .signed es e) :
      Derives variableName .power (bs ++ .power :: es) (.binary .pow b e)
  | atom_number (value : Float) :
      Derives variableName .atom [.number value] (.number value)
  | atom_variable : Derives variableName .atom [.word variableName] .var
  | atom_pi (other : "pi" ≠ variableName) :
      Derives variableName .atom [.word "pi"] (.number 3.141592653589793)
  | atom_e (other : "e" ≠ variableName) :
      Derives variableName .atom [.word "e"] (.number 2.718281828459045)
  | atom_parentheses {ks : List TokenKind} {f : Formula}
      (inner : Derives variableName .sum ks f) :
      Derives variableName .atom (.openParen :: ks ++ [.closeParen]) f
  | atom_call {name : String} {function : Function} {ks : List TokenKind}
      {f : Formula} (other : name ≠ variableName)
      (named : NamesFunction name function)
      (argument : Derives variableName .sum ks f) :
      Derives variableName .atom
        (.word name :: .openParen :: ks ++ [.closeParen]) (.call function f)

/-- The double that is nearest to the circle number. -/
theorem piValue_eq : piValue = 3.141592653589793 := rfl

/-- The double that is nearest to the base of the natural logarithm. -/
theorem eulerValue_eq : eulerValue = 2.718281828459045 := rfl

namespace Derives

variable {variableName : String} {ls rs : List TokenKind} {l r : Formula}
  {k : TokenKind} {op : BinaryOp}

/-- A sum, with the sign by its meaning. -/
theorem sum_additive (h : additive? k = some op)
    (left : Derives variableName .sum ls l)
    (right : Derives variableName .product rs r) :
    Derives variableName .sum (ls ++ k :: rs) (.binary op l r) := by
  cases k with
  | plus =>
    obtain rfl : BinaryOp.add = op := Option.some.inj h
    exact .sum_plus left right
  | minus =>
    obtain rfl : BinaryOp.sub = op := Option.some.inj h
    exact .sum_minus left right
  | _ => cases h

/-- A product, with the sign by its meaning. -/
theorem product_multiplicative (h : multiplicative? k = some op)
    (left : Derives variableName .product ls l)
    (right : Derives variableName .signed rs r) :
    Derives variableName .product (ls ++ k :: rs) (.binary op l r) := by
  cases k with
  | times =>
    obtain rfl : BinaryOp.mul = op := Option.some.inj h
    exact .product_times left right
  | slash =>
    obtain rfl : BinaryOp.div = op := Option.some.inj h
    exact .product_slash left right
  | _ => cases h

/-- An atom begins with a number, a word or an opening parenthesis. -/
theorem beginsOperand_of_atom {ks : List TokenKind} {f : Formula}
    (h : Derives variableName .atom ks f) : BeginsOperand ks := by
  cases h with
  | atom_number value => exact .number value []
  | atom_variable => exact .word variableName []
  | atom_pi => exact .word "pi" []
  | atom_e => exact .word "e" []
  | atom_parentheses => exact .openParen _
  | atom_call => exact .word _ _

/-- **A power begins as its base does**, so it can always be a factor without a
sign in front. -/
theorem beginsOperand_of_power {ks : List TokenKind} {f : Formula}
    (h : Derives variableName .power ks f) : BeginsOperand ks := by
  cases h with
  | power_atom atom => exact atom.beginsOperand_of_atom
  | power_power base _ => exact base.beginsOperand_of_atom.append _

end Derives

end Stepwise
