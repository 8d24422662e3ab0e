import Mathlib
import Stepwise.Proofs.Formula.Reading

/-!
# The parser reads the grammar

A phrase is read as a whole when the token after it does not go on with it. A
sum or a product may be the left part of a longer one, so of these `Parses` says
that the function goes on with its tail, having read the phrase. This is kept by
each rule of the grammar, and by induction on the derivation it holds of every
phrase (`Derives.parses`).

With what `Reads` says of the other direction, the parser accepts exactly what
the grammar derives (`parseEquation_eq_ok_iff`). As it is a function, the
grammar gives a list of tokens one tree at most.
-/

namespace Stepwise

/-! ## Where a phrase ends -/

/-- No token that goes on with a power comes first. -/
def EndsPower (ks : List TokenKind) : Prop :=
  ∀ k ∈ ks.head?, k ≠ .power

/-- No token that goes on with a product comes first. -/
def EndsProduct (ks : List TokenKind) : Prop :=
  ∀ k ∈ ks.head?,
    k ≠ .power ∧ multiplicative? k = none ∧ startsFactor k = false

/-- No token that goes on with a sum comes first. -/
def EndsSum (ks : List TokenKind) : Prop :=
  EndsProduct ks ∧ ∀ k ∈ ks.head?, additive? k = none

theorem EndsProduct.endsPower {ks : List TokenKind} (h : EndsProduct ks) :
    EndsPower ks :=
  fun k hk => (h k hk).1

theorem BeginsOperand.endsPower {ks : List TokenKind} (h : BeginsOperand ks) :
    EndsPower ks := by
  obtain ⟨k, ks, rfl, hs⟩ := h.exists_cons
  rintro k ⟨⟩
  exact (of_startsFactor hs).2.2

theorem endsSum_nil : EndsSum [] :=
  ⟨fun _ hk => (Option.not_mem_none _ hk).elim,
    fun _ hk => (Option.not_mem_none _ hk).elim⟩

theorem endsSum_closeParen (ks : List TokenKind) :
    EndsSum (.closeParen :: ks) := by
  constructor
  · rintro k ⟨⟩
    exact ⟨nofun, rfl, rfl⟩
  · rintro k ⟨⟩
    rfl

theorem endsSum_equals (ks : List TokenKind) : EndsSum (.equals :: ks) := by
  constructor
  · rintro k ⟨⟩
    exact ⟨nofun, rfl, rfl⟩
  · rintro k ⟨⟩
    rfl

section Tails

variable {ctx : ParseContext} {ts : List Token}

theorem outcome_parseProductTail_of_ends (h : EndsProduct (kinds ts))
    (left : Formula) :
    outcome (parseProductTail ctx left ts) = .ok (left, ts) := by
  cases ts with
  | nil => exact outcome_parseProductTail_nil ctx left
  | cons t ts =>
    obtain ⟨_, hm, hs⟩ := h t.kind rfl
    exact outcome_parseProductTail_of_none ctx hm hs left ts

theorem outcome_parseSumTail_of_ends (h : EndsSum (kinds ts))
    (left : Formula) :
    outcome (parseSumTail ctx left ts) = .ok (left, ts) := by
  cases ts with
  | nil => exact outcome_parseSumTail_nil ctx left
  | cons t ts =>
    exact outcome_parseSumTail_of_none ctx (h.2 t.kind rfl) left ts

end Tails

/-! ## A phrase is read as a whole -/

variable {ctx : ParseContext}

/-- **How a phrase is read** by the function for its sort, whatever tokens
`after` it that do not go on with it. -/
def Parses (ctx : ParseContext) : Phrase → List TokenKind → Formula → Prop
  | .equation, ks, f => ∀ ts, kinds ts = ks → parseEquation ctx ts = .ok f
  | .sum, ks, f => ∀ ts after, kinds ts = ks ++ after → EndsProduct after →
    ∃ rest, kinds rest = after
      ∧ outcome (parseSum ctx ts) = outcome (parseSumTail ctx f rest)
  | .product, ks, f => ∀ ts after, kinds ts = ks ++ after →
    EndsPower after → ∃ rest, kinds rest = after
      ∧ outcome (parseProduct ctx ts) = outcome (parseProductTail ctx f rest)
  | .signed, ks, f => ∀ ts after, kinds ts = ks ++ after →
    EndsPower after → ∃ rest, kinds rest = after
      ∧ outcome (parseSigned ctx ts) = .ok (f, rest)
  | .power, ks, f => ∀ ts after, kinds ts = ks ++ after →
    EndsPower after → ∃ rest, kinds rest = after
      ∧ outcome (parsePower ctx ts) = .ok (f, rest)
  | .atom, ks, f => ∀ ts after, kinds ts = ks ++ after →
    ∃ rest, kinds rest = after ∧ outcome (parseAtom ctx ts) = .ok (f, rest)

namespace Parses

variable {ls rs ks : List TokenKind} {l r f : Formula} {k : TokenKind}
  {op : BinaryOp}

/-- A sum is read to its end where nothing goes on with it. -/
theorem outcome_parseSum (h : Parses ctx .sum ks f) {ts : List Token}
    {after : List TokenKind} (hts : kinds ts = ks ++ after)
    (hafter : EndsSum after) :
    ∃ rest, kinds rest = after ∧ outcome (parseSum ctx ts) = .ok (f, rest) := by
  obtain ⟨rest, rfl, hsum⟩ := h ts after hts hafter.1
  exact ⟨rest, rfl, hsum.trans (outcome_parseSumTail_of_ends hafter f)⟩

theorem sum_additive (hk : additive? k = some op)
    (left : Parses ctx .sum ls l) (right : Parses ctx .product rs r) :
    Parses ctx .sum (ls ++ k :: rs) (.binary op l r) := by
  intro ts after hts hafter
  rw [List.append_assoc] at hts
  have hends : EndsProduct (k :: rs ++ after) := by
    rintro k ⟨⟩
    exact of_additive?_eq_some hk
  obtain ⟨mid, hmid, hl⟩ := left ts _ hts hends
  obtain ⟨start, stop, mid, rfl, hmid'⟩ := exists_of_kinds_eq_cons hmid
  obtain ⟨rest, rfl, hr⟩ := right mid after hmid' hafter.endsPower
  refine ⟨rest, rfl, ?_⟩
  rw [hl, outcome_parseSumTail_of_some ctx hk, hr,
    outcome_parseProductTail_of_ends hafter]
  rfl

theorem product_multiplicative (hk : multiplicative? k = some op)
    (left : Parses ctx .product ls l) (right : Parses ctx .signed rs r) :
    Parses ctx .product (ls ++ k :: rs) (.binary op l r) := by
  intro ts after hts hafter
  rw [List.append_assoc] at hts
  have hends : EndsPower (k :: rs ++ after) := by
    rintro k ⟨⟩ rfl
    cases hk
  obtain ⟨mid, hmid, hl⟩ := left ts _ hts hends
  obtain ⟨start, stop, mid, rfl, hmid'⟩ := exists_of_kinds_eq_cons hmid
  obtain ⟨rest, rfl, hr⟩ := right mid after hmid' hafter
  refine ⟨rest, rfl, ?_⟩
  rw [hl, outcome_parseProductTail_of_some ctx hk, hr]
  rfl

/-- No token is passed over between the factors of a product without a
sign. -/
theorem product_adjacent (left : Parses ctx .product ls l)
    (right : Parses ctx .power rs r) (begins : BeginsOperand rs) :
    Parses ctx .product (ls ++ rs) (.binary .mul l r) := by
  intro ts after hts hafter
  rw [List.append_assoc] at hts
  obtain ⟨mid, hmid, hl⟩ := left ts _ hts (begins.append after).endsPower
  obtain ⟨rest, rfl, hr⟩ := right mid after hmid hafter
  obtain ⟨k, rs, rfl, hs⟩ := begins.exists_cons
  obtain ⟨start, stop, mid, rfl, _⟩ := exists_of_kinds_eq_cons hmid
  refine ⟨rest, rfl, ?_⟩
  rw [hl, outcome_parseProductTail_of_startsFactor ctx hs, hr]
  rfl

theorem signed_minus (operand : Parses ctx .signed ks f) :
    Parses ctx .signed (.minus :: ks) (.neg f) := by
  intro ts after hts hafter
  obtain ⟨start, stop, ts, rfl, hts'⟩ := exists_of_kinds_eq_cons hts
  obtain ⟨rest, rfl, ho⟩ := operand ts after hts' hafter
  refine ⟨rest, rfl, ?_⟩
  rw [outcome_parseSigned_minus, ho]
  rfl

theorem signed_plus (operand : Parses ctx .signed ks f) :
    Parses ctx .signed (.plus :: ks) f := by
  intro ts after hts hafter
  obtain ⟨start, stop, ts, rfl, hts'⟩ := exists_of_kinds_eq_cons hts
  obtain ⟨rest, rfl, ho⟩ := operand ts after hts' hafter
  exact ⟨rest, rfl, (outcome_parseSigned_plus ctx start stop ts).trans ho⟩

theorem signed_power (power : Parses ctx .power ks f)
    (begins : BeginsOperand ks) : Parses ctx .signed ks f := by
  intro ts after hts hafter
  obtain ⟨rest, rfl, hp⟩ := power ts after hts hafter
  refine ⟨rest, rfl, ?_⟩
  rw [parseSigned_eq_parsePower, hp]
  obtain ⟨k, ks, rfl, hs⟩ := begins.exists_cons
  rw [hts]
  rintro k ⟨⟩
  exact (of_startsFactor hs).1

theorem power_atom (atom : Parses ctx .atom ks f) :
    Parses ctx .power ks f := by
  intro ts after hts hafter
  obtain ⟨rest, rfl, ha⟩ := atom ts after hts
  refine ⟨rest, rfl, ?_⟩
  rw [outcome_parsePower, ha]
  exact outcome_parseExponent_of_ne ctx (fun hp => hafter .power hp rfl) f

theorem power_power (base : Parses ctx .atom ls l)
    (exponent : Parses ctx .signed rs r) :
    Parses ctx .power (ls ++ .power :: rs) (.binary .pow l r) := by
  intro ts after hts hafter
  rw [List.append_assoc] at hts
  obtain ⟨mid, hmid, hb⟩ := base ts _ hts
  obtain ⟨start, stop, mid, rfl, hmid'⟩ := exists_of_kinds_eq_cons hmid
  obtain ⟨rest, rfl, he⟩ := exponent mid after hmid' hafter
  refine ⟨rest, rfl, ?_⟩
  rw [outcome_parsePower, hb]
  show outcome (parseExponent ctx l _) = _
  rw [outcome_parseExponent_power, he]
  rfl

/-- A sum in parentheses is read up to the closing one. -/
theorem closed (inner : Parses ctx .sum ks f) {ts : List Token}
    {after : List TokenKind} (hts : kinds ts = ks ++ .closeParen :: after)
    (position : Nat) (build : Formula → Formula) :
    ∃ rest, kinds rest = after
      ∧ (outcome (parseSum ctx ts) >>= fun read =>
          Stepwise.closed position (build read.1) read.2)
        = .ok (build f, rest) := by
  obtain ⟨mid, hmid, hi⟩ := inner.outcome_parseSum hts
    (endsSum_closeParen after)
  obtain ⟨start, stop, rest, rfl, hrest⟩ := exists_of_kinds_eq_cons hmid
  refine ⟨rest, hrest, ?_⟩
  rw [hi]
  rfl

/-- An atom of one token. -/
theorem atom_single (h : ∀ start stop ts,
    outcome (parseAtom ctx (⟨k, start, stop⟩ :: ts)) = .ok (f, ts)) :
    Parses ctx .atom [k] f := by
  intro ts after hts
  obtain ⟨start, stop, ts, rfl, hts'⟩ := exists_of_kinds_eq_cons hts
  exact ⟨ts, hts', h start stop ts⟩

theorem atom_number (value : Float) :
    Parses ctx .atom [.number value] (.number value) := by
  refine atom_single fun start stop ts => ?_
  rw [parseAtom]
  rfl

theorem atom_variable : Parses ctx .atom [.word ctx.variableName] .var := by
  refine atom_single fun start stop ts => ?_
  rw [parseAtom, if_pos rfl]
  rfl

theorem atom_pi (other : "pi" ≠ ctx.variableName) :
    Parses ctx .atom [.word "pi"] (.number 3.141592653589793) := by
  refine atom_single fun start stop ts => ?_
  rw [← piValue_eq, parseAtom, if_neg other, if_pos rfl]
  rfl

theorem atom_e (other : "e" ≠ ctx.variableName) :
    Parses ctx .atom [.word "e"] (.number 2.718281828459045) := by
  refine atom_single fun start stop ts => ?_
  rw [← eulerValue_eq, parseAtom, if_neg other, if_neg (by decide), if_pos rfl]
  rfl

theorem atom_parentheses (inner : Parses ctx .sum ks f) :
    Parses ctx .atom (.openParen :: ks ++ [.closeParen]) f := by
  intro ts after hts
  rw [List.append_assoc] at hts
  obtain ⟨start, stop, ts, rfl, hts'⟩ := exists_of_kinds_eq_cons hts
  rw [outcome_parseAtom_openParen]
  exact inner.closed hts' start id

theorem atom_call {name : String} {function : Function}
    (other : name ≠ ctx.variableName)
    (named : NamesFunction name function)
    (argument : Parses ctx .sum ks f) :
    Parses ctx .atom (.word name :: .openParen :: ks ++ [.closeParen])
      (.call function f) := by
  intro ts after hts
  rw [List.append_assoc] at hts
  obtain ⟨start, stop, ts, rfl, hts'⟩ := exists_of_kinds_eq_cons hts
  obtain ⟨start', stop', ts, rfl, hts''⟩ := exists_of_kinds_eq_cons hts'
  rw [outcome_parseAtom_call ctx other (ofName?_eq_some_iff.mpr named)]
  exact argument.closed hts'' start' (Formula.call function)

theorem sum_product (product : Parses ctx .product ks f) :
    Parses ctx .sum ks f := by
  intro ts after hts hafter
  obtain ⟨rest, rfl, hp⟩ := product ts after hts hafter.endsPower
  refine ⟨rest, rfl, ?_⟩
  rw [Stepwise.outcome_parseSum, hp, outcome_parseProductTail_of_ends hafter]
  rfl

theorem product_signed (signed : Parses ctx .signed ks f) :
    Parses ctx .product ks f := by
  intro ts after hts hafter
  obtain ⟨rest, rfl, hs⟩ := signed ts after hts hafter
  refine ⟨rest, rfl, ?_⟩
  rw [outcome_parseProduct, hs]
  rfl

theorem equation_sum (sum : Parses ctx .sum ks f) :
    Parses ctx .equation ks f := by
  intro ts hts
  rw [← List.append_nil ks] at hts
  obtain ⟨rest, hrest, hs⟩ := sum.outcome_parseSum hts endsSum_nil
  obtain rfl : rest = [] := List.map_eq_nil_iff.mp hrest
  rw [parseEquation_eq, hs]
  rfl

theorem equation_equals (left : Parses ctx .sum ls l)
    (right : Parses ctx .sum rs r) :
    Parses ctx .equation (ls ++ .equals :: rs) (.binary .sub l r) := by
  intro ts hts
  obtain ⟨mid, hmid, hl⟩ := left.outcome_parseSum hts (endsSum_equals rs)
  obtain ⟨start, stop, mid, rfl, hmid'⟩ := exists_of_kinds_eq_cons hmid
  rw [← List.append_nil rs] at hmid'
  obtain ⟨rest, hrest, hr⟩ := right.outcome_parseSum hmid' endsSum_nil
  obtain rfl : rest = [] := List.map_eq_nil_iff.mp hrest
  rw [parseEquation_eq, hl]
  show (outcome (parseSum ctx mid) >>= _) = _
  rw [hr]
  rfl

end Parses

/-- **A phrase is read as a whole**, one rule of the grammar after the
other. -/
theorem Derives.parses {phrase : Phrase} {ks : List TokenKind} {f : Formula}
    (h : Derives ctx.variableName phrase ks f) : Parses ctx phrase ks f := by
  induction h with
  | equation_sum _ ih => exact ih.equation_sum
  | equation_equals _ _ ihl ihr => exact .equation_equals ihl ihr
  | sum_product _ ih => exact ih.sum_product
  | sum_plus _ _ ihl ihr => exact .sum_additive rfl ihl ihr
  | sum_minus _ _ ihl ihr => exact .sum_additive rfl ihl ihr
  | product_signed _ ih => exact ih.product_signed
  | product_times _ _ ihl ihr => exact .product_multiplicative rfl ihl ihr
  | product_slash _ _ ihl ihr => exact .product_multiplicative rfl ihl ihr
  | product_adjacent _ _ begins ihl ihr =>
    exact .product_adjacent ihl ihr begins
  | signed_minus _ ih => exact ih.signed_minus
  | signed_plus _ ih => exact ih.signed_plus
  | signed_power power ih => exact ih.signed_power power.beginsOperand_of_power
  | power_atom _ ih => exact ih.power_atom
  | power_power _ _ ihb ihe => exact .power_power ihb ihe
  | atom_number value => exact .atom_number value
  | atom_variable => exact .atom_variable
  | atom_pi other => exact .atom_pi other
  | atom_e other => exact .atom_e other
  | atom_parentheses _ ih => exact ih.atom_parentheses
  | atom_call other named _ ih => exact .atom_call other named ih

/-! ## The parser and the grammar -/

theorem finish_eq_ok_iff {f g : Formula} {ts : List Token} :
    finish f ts = .ok g ↔ ts = [] ∧ f = g := by
  cases ts with
  | nil => exact ⟨fun h => ⟨rfl, Except.ok.inj h⟩, fun h => congrArg _ h.2⟩
  | cons t ts => exact ⟨nofun, fun h => nomatch h.1⟩

/-- **What is accepted is derived.** After the first sum there is an equals sign
and another sum, or nothing. -/
theorem derives_of_parseEquation {ts : List Token} {f : Formula}
    (h : parseEquation ctx ts = .ok f) :
    Derives ctx.variableName .equation (kinds ts) f := by
  rw [parseEquation_eq] at h
  obtain ⟨⟨l, mid⟩, hl, h⟩ := exists_of_bind_eq_ok h
  obtain ⟨ls, hls, dl⟩ := reads_sum ctx ts l mid hl
  rw [hls]
  by_cases hequals : (kinds mid).head? = some .equals
  · obtain ⟨start, stop, mid, rfl⟩ := exists_of_head?_kinds hequals
    obtain ⟨⟨r, rest⟩, hr, h⟩ := exists_of_bind_eq_ok h
    obtain ⟨rfl, rfl⟩ := finish_eq_ok_iff.mp h
    obtain ⟨rs, hrs, dr⟩ := reads_sum ctx mid r [] hr
    obtain rfl : kinds mid = rs := hrs.trans (List.append_nil rs)
    exact .equation_equals dl dr
  · rw [rightSide_of_ne ctx l hequals] at h
    obtain ⟨rfl, rfl⟩ := finish_eq_ok_iff.mp h
    rw [show ls ++ kinds [] = ls from List.append_nil ls]
    exact .equation_sum dl

/-- **The parser accepts exactly what the grammar derives**, and with its
tree. -/
theorem parseEquation_eq_ok_iff {ts : List Token} {f : Formula} :
    parseEquation ctx ts = .ok f
      ↔ Derives ctx.variableName .equation (kinds ts) f :=
  ⟨derives_of_parseEquation, fun h => h.parses ts rfl⟩

/-- Every list of kinds is that of some tokens. -/
theorem exists_kinds_eq (ks : List TokenKind) : ∃ ts, kinds ts = ks := by
  refine ⟨ks.map fun k => ⟨k, 0, 0⟩, ?_⟩
  unfold kinds
  rw [List.map_map]
  exact List.map_id ks

/-- **A phrase has one tree at most**, as it is the one that the parser
returns. -/
theorem Derives.unique {variableName : String} {ks : List TokenKind}
    {f g : Formula} (hf : Derives variableName .equation ks f)
    (hg : Derives variableName .equation ks g) : f = g := by
  obtain ⟨ts, rfl⟩ := exists_kinds_eq ks
  have hparse : parseEquation ⟨variableName, 0⟩ ts = .ok f :=
    parseEquation_eq_ok_iff.mpr hf
  exact Except.ok.inj (hparse.symm.trans (parseEquation_eq_ok_iff.mpr hg))

/-- No phrase is empty. -/
theorem not_derives_nil {variableName : String} {f : Formula} :
    ¬Derives variableName .equation [] f := by
  intro h
  have hparse : parseEquation ⟨variableName, 0⟩ [] = .ok f :=
    parseEquation_eq_ok_iff.mpr h
  have hsigned : parseSigned ⟨variableName, 0⟩ [] = parsePower _ [] :=
    parseSigned_eq_parsePower _ fun _ hk => (Option.not_mem_none _ hk).elim
  rw [parseEquation_eq, outcome_parseSum, outcome_parseProduct, hsigned,
    outcome_parsePower, parseAtom] at hparse
  cases hparse

/-- **The text of a formula is read as the grammar says.** A text of tokens is
accepted with a tree if and only if the grammar derives it, there is one such
tree at most, and where there is none the result is an error. -/
theorem Formula.parse_eq_ok_iff_derives {text : List Char} {ts : List Token}
    (h : tokens text = .ok ts) (variableName : String) :
    (∀ f, Formula.parse text variableName = .ok f
        ↔ Derives variableName .equation (kinds ts) f)
      ∧ (∀ ks f g, Derives variableName .equation ks f →
          Derives variableName .equation ks g → f = g)
      ∧ ((∀ f, ¬Derives variableName .equation (kinds ts) f) →
          ∃ e, Formula.parse text variableName = .error e) := by
  have hparse : ∀ f, Formula.parse text variableName = .ok f
      ↔ Derives variableName .equation (kinds ts) f := by
    intro f
    unfold Formula.parse
    rw [h]
    cases ts with
    | nil => exact ⟨nofun, fun hd => (not_derives_nil hd).elim⟩
    | cons t ts => exact parseEquation_eq_ok_iff
  refine ⟨hparse, fun _ _ _ => Derives.unique, fun hnone => ?_⟩
  cases hresult : Formula.parse text variableName with
  | error e => exact ⟨e, rfl⟩
  | ok f => exact absurd ((hparse f).mp hresult) (hnone f)

/-! ## Some readings -/

namespace Derives

variable {variableName : String} {ks : List TokenKind} {f : Formula}

/-- An atom, as a product. -/
theorem product_atom (atom : Derives variableName .atom ks f) :
    Derives variableName .product ks f :=
  .product_signed (.signed_power (.power_atom atom))

/-- An atom, as a sum. -/
theorem sum_atom (atom : Derives variableName .atom ks f) :
    Derives variableName .sum ks f :=
  .sum_product atom.product_atom

end Derives

/-- `e(x)(x)^-x`: the name of a constant in front of a parenthesis is the
constant, and the product without signs is read from the left. -/
theorem derives_e_x_x :
    Derives "x" .equation
      [.word "e", .openParen, .word "x", .closeParen, .openParen, .word "x",
        .closeParen, .power, .minus, .word "x"]
      (.binary .mul (.binary .mul (.number 2.718281828459045) .var)
        (.binary .pow .var (.neg .var))) := by
  have he : Derives "x" .atom [.word "e"] (.number 2.718281828459045) :=
    .atom_e (by decide)
  have hparens : Derives "x" .atom [.openParen, .word "x", .closeParen] .var :=
    .atom_parentheses (.sum_atom .atom_variable)
  have hpower : Derives "x" .power
      [.openParen, .word "x", .closeParen, .power, .minus, .word "x"]
      (.binary .pow .var (.neg .var)) :=
    .power_power hparens
      (.signed_minus (.signed_power (.power_atom .atom_variable)))
  have hleft : Derives "x" .product
      [.word "e", .openParen, .word "x", .closeParen]
      (.binary .mul (.number 2.718281828459045) .var) :=
    .product_adjacent (.product_atom he) (.power_atom hparens) (.openParen _)
  exact .equation_sum (.sum_product
    (.product_adjacent hleft hpower (.openParen _)))

/-- `x sen(pi)=tg(x)`: two calls, each by the second name of its function. -/
theorem derives_x_sen_pi_equals_tg_x :
    Derives "x" .equation
      [.word "x", .word "sen", .openParen, .word "pi", .closeParen, .equals,
        .word "tg", .openParen, .word "x", .closeParen]
      (.binary .sub
        (.binary .mul .var (.call .sin (.number 3.141592653589793)))
        (.call .tan .var)) := by
  have hsen : Derives "x" .power
      [.word "sen", .openParen, .word "pi", .closeParen]
      (.call .sin (.number 3.141592653589793)) :=
    .power_atom (.atom_call (by decide) .sen (.sum_atom (.atom_pi (by decide))))
  have hleft : Derives "x" .sum
      [.word "x", .word "sen", .openParen, .word "pi", .closeParen]
      (.binary .mul .var (.call .sin (.number 3.141592653589793))) :=
    .sum_product (.product_adjacent (.product_atom .atom_variable) hsen
      (.word "sen" _))
  have hright : Derives "x" .sum
      [.word "tg", .openParen, .word "x", .closeParen] (.call .tan .var) :=
    .sum_atom (.atom_call (by decide) .tg (.sum_atom .atom_variable))
  exact .equation_equals hleft hright

/-- `ln(ln)` in the variable `ln`: a product, not a call. -/
theorem derives_ln_ln :
    Derives "ln" .equation [.word "ln", .openParen, .word "ln", .closeParen]
      (.binary .mul .var .var) :=
  .equation_sum (.sum_product (.product_adjacent (.product_atom .atom_variable)
    (.power_atom (.atom_parentheses (.sum_atom .atom_variable)))
    (.openParen _)))

/-- The readings of `e(x)(x)^-x` and `x SEN(pi)=tg(x)` in `x` and of `ln(ln)`
in `ln`. -/
theorem Formula.parse_words :
    Formula.parse "e(x)(x)^-x".toList "x"
        = .ok (.binary .mul (.binary .mul (.number 2.718281828459045) .var)
            (.binary .pow .var (.neg .var)))
      ∧ Formula.parse "x SEN(pi)=tg(x)".toList "x"
        = .ok (.binary .sub
            (.binary .mul .var (.call .sin (.number 3.141592653589793)))
            (.call .tan .var))
      ∧ Formula.parse "ln(ln)".toList "ln" = .ok (.binary .mul .var .var) := by
  have he : tokens "e(x)(x)^-x".toList
      = .ok [⟨.word "e", 0, 1⟩, ⟨.openParen, 1, 2⟩, ⟨.word "x", 2, 3⟩,
        ⟨.closeParen, 3, 4⟩, ⟨.openParen, 4, 5⟩, ⟨.word "x", 5, 6⟩,
        ⟨.closeParen, 6, 7⟩, ⟨.power, 7, 8⟩, ⟨.minus, 8, 9⟩,
        ⟨.word "x", 9, 10⟩] := by cbv
  have hsen : tokens "x SEN(pi)=tg(x)".toList
      = .ok [⟨.word "x", 0, 1⟩, ⟨.word "sen", 2, 5⟩, ⟨.openParen, 5, 6⟩,
        ⟨.word "pi", 6, 8⟩, ⟨.closeParen, 8, 9⟩, ⟨.equals, 9, 10⟩,
        ⟨.word "tg", 10, 12⟩, ⟨.openParen, 12, 13⟩, ⟨.word "x", 13, 14⟩,
        ⟨.closeParen, 14, 15⟩] := by cbv
  have hln : tokens "ln(ln)".toList
      = .ok [⟨.word "ln", 0, 2⟩, ⟨.openParen, 2, 3⟩, ⟨.word "ln", 3, 5⟩,
        ⟨.closeParen, 5, 6⟩] := by cbv
  exact ⟨((Formula.parse_eq_ok_iff_derives he "x").1 _).mpr derives_e_x_x,
    ((Formula.parse_eq_ok_iff_derives hsen "x").1 _).mpr
      derives_x_sen_pi_equals_tg_x,
    ((Formula.parse_eq_ok_iff_derives hln "ln").1 _).mpr derives_ln_ln⟩

end Stepwise
