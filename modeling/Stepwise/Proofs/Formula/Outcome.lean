import Stepwise.Formula.Parser

/-!
# What the parser reads

Each function of the parser returns, with the tokens left over, a proof that
these are fewer. The recursion needs it, and nothing else does: `outcome` drops
it, and for each function there is an equation between outcomes that says how it
reads on with the help of the others, errors included. What is proved about the
parser rests on these equations alone.
-/

namespace Stepwise

/-- The kinds of tokens. -/
def kinds (ts : List Token) : List TokenKind :=
  ts.map Token.kind

/-- The first token by its kind. -/
theorem exists_of_kinds_eq_cons {ts : List Token} {k : TokenKind}
    {ks : List TokenKind} (h : kinds ts = k :: ks) :
    ∃ start stop rest, ts = ⟨k, start, stop⟩ :: rest ∧ kinds rest = ks := by
  obtain ⟨⟨kind, start, stop⟩, rest, rfl, rfl, hrest⟩ :=
    List.map_eq_cons_iff.mp h
  exact ⟨start, stop, rest, rfl, hrest⟩

theorem exists_of_head?_kinds {ts : List Token} {k : TokenKind}
    (h : (kinds ts).head? = some k) :
    ∃ start stop rest, ts = ⟨k, start, stop⟩ :: rest := by
  obtain ⟨ks, hks⟩ := List.head?_eq_some_iff.mp h
  obtain ⟨start, stop, rest, hts, _⟩ := exists_of_kinds_eq_cons hks
  exact ⟨start, stop, rest, hts⟩

/-- A token that starts a factor is neither a sign nor a power sign. -/
theorem of_startsFactor {k : TokenKind} (h : startsFactor k = true) :
    additive? k = none ∧ multiplicative? k = none ∧ k ≠ .power := by
  cases k with
  | number value => exact ⟨rfl, rfl, nofun⟩
  | word name => exact ⟨rfl, rfl, nofun⟩
  | openParen => exact ⟨rfl, rfl, nofun⟩
  | _ => cases h

/-- The sign of a sum does not go on with a product. -/
theorem of_additive?_eq_some {k : TokenKind} {op : BinaryOp}
    (h : additive? k = some op) :
    k ≠ .power ∧ multiplicative? k = none ∧ startsFactor k = false := by
  cases k with
  | plus => exact ⟨nofun, rfl, rfl⟩
  | minus => exact ⟨nofun, rfl, rfl⟩
  | _ => cases h

/-- A computation of two steps succeeds by both of them. -/
theorem exists_of_bind_eq_ok {ε α β : Type} {first : Except ε α}
    {next : α → Except ε β} {b : β} (h : (first >>= next) = .ok b) :
    ∃ a, first = .ok a ∧ next a = .ok b := by
  cases first with
  | error e => cases h
  | ok a => exact ⟨a, rfl, h⟩

/-- **What was read** and the tokens after it, without the proof that these
fit. -/
def outcome {fits : List Token → Prop} (result : Parsed fits) :
    Except SyntaxError (Formula × List Token) :=
  result.map fun read => (read.1, read.2.1)

section Outcome

variable {fits fits' : List Token → Prop}

/-- The tokens left over are as the function says. -/
theorem fits_of_outcome {result : Parsed fits} {f : Formula}
    {rest : List Token} (h : outcome result = .ok (f, rest)) : fits rest := by
  cases result with
  | error e => cases h
  | ok read =>
    obtain rfl : read.2.1 = rest :=
      congrArg Prod.snd (Except.ok.inj h)
    exact read.2.2

/-- The outcome of one function after the other. -/
theorem outcome_bind {result : Parsed fits}
    {next : Formula × { rest : List Token // fits rest } → Parsed fits'}
    {next' : Formula × List Token → Except SyntaxError (Formula × List Token)}
    (h : ∀ f rest hrest, outcome (next (f, ⟨rest, hrest⟩)) = next' (f, rest)) :
    outcome (result >>= next) = outcome result >>= next' := by
  cases result with
  | error e => rfl
  | ok read => exact h read.1 read.2.1 read.2.2

/-- The outcome where all that is done in the end is to build a formula. -/
theorem outcome_bind_pure {result : Parsed fits} (build : Formula → Formula)
    (weaken : ∀ rest, fits rest → fits' rest) :
    @outcome fits' (result >>= fun read => match read with
      | (f, ⟨rest, h⟩) => pure (build f, ⟨rest, weaken rest h⟩))
      = (outcome result).map fun read => (build read.1, read.2) := by
  cases result with
  | error e => rfl
  | ok read => rfl

/-- The outcome where nothing is done in the end. -/
theorem outcome_bind_self {result : Parsed fits}
    (weaken : ∀ rest, fits rest → fits' rest) :
    @outcome fits' (result >>= fun read => match read with
      | (f, ⟨rest, h⟩) => pure (f, ⟨rest, weaken rest h⟩))
      = outcome result :=
  (outcome_bind_pure id weaken).trans (congrFun Except.map_id _)

end Outcome

section Equations

variable (ctx : ParseContext)

/-! ## Sums -/

theorem outcome_parseSum (ts : List Token) :
    outcome (parseSum ctx ts) = outcome (parseProduct ctx ts) >>= fun read =>
      outcome (parseSumTail ctx read.1 read.2) := by
  rw [parseSum]
  exact outcome_bind fun left rest hrest => outcome_bind_self _

theorem outcome_parseSumTail_of_some {t : Token} {op : BinaryOp}
    (h : additive? t.kind = some op) (left : Formula) (ts : List Token) :
    outcome (parseSumTail ctx left (t :: ts))
      = outcome (parseProduct ctx ts) >>= fun read =>
        outcome (parseSumTail ctx (.binary op left read.1) read.2) := by
  rw [parseSumTail]
  simp only [h]
  exact outcome_bind fun right rest hrest => outcome_bind_self _

theorem outcome_parseSumTail_nil (left : Formula) :
    outcome (parseSumTail ctx left []) = .ok (left, []) := by
  rw [parseSumTail]
  rfl

theorem outcome_parseSumTail_of_none {t : Token}
    (h : additive? t.kind = none) (left : Formula) (ts : List Token) :
    outcome (parseSumTail ctx left (t :: ts)) = .ok (left, t :: ts) := by
  rw [parseSumTail]
  simp only [h]
  rfl

/-! ## Signs and powers -/

theorem outcome_parseSigned_minus (start stop : Nat) (ts : List Token) :
    outcome (parseSigned ctx (⟨.minus, start, stop⟩ :: ts))
      = (outcome (parseSigned ctx ts)).map fun read => (.neg read.1, read.2) := by
  rw [parseSigned]
  exact outcome_bind_pure Formula.neg _

theorem outcome_parseSigned_plus (start stop : Nat) (ts : List Token) :
    outcome (parseSigned ctx (⟨.plus, start, stop⟩ :: ts))
      = outcome (parseSigned ctx ts) := by
  rw [parseSigned]
  exact outcome_bind_self _

/-- Without a sign in front there is a power. -/
theorem parseSigned_eq_parsePower {ts : List Token}
    (h : ∀ k ∈ (kinds ts).head?, additive? k = none) :
    parseSigned ctx ts = parsePower ctx ts := by
  refine parseSigned.eq_3 ctx ts ?_ ?_
  · rintro start stop ts' rfl
    cases h .minus rfl
  · rintro start stop ts' rfl
    cases h .plus rfl

theorem outcome_parsePower (ts : List Token) :
    outcome (parsePower ctx ts) = outcome (parseAtom ctx ts) >>= fun read =>
      outcome (parseExponent ctx read.1 read.2) := by
  rw [parsePower]
  exact outcome_bind fun base rest hrest => outcome_bind_self _

theorem outcome_parseExponent_power (base : Formula) (start stop : Nat)
    (ts : List Token) :
    outcome (parseExponent ctx base (⟨.power, start, stop⟩ :: ts))
      = (outcome (parseSigned ctx ts)).map fun read =>
        (.binary .pow base read.1, read.2) := by
  rw [parseExponent]
  exact outcome_bind_pure (Formula.binary .pow base) _

theorem outcome_parseExponent_of_ne {ts : List Token}
    (h : (kinds ts).head? ≠ some .power) (base : Formula) :
    outcome (parseExponent ctx base ts) = .ok (base, ts) := by
  rw [parseExponent.eq_2]
  · rfl
  · rintro start stop ts' rfl
    exact h rfl

/-! ## Products -/

theorem outcome_parseProduct (ts : List Token) :
    outcome (parseProduct ctx ts) = outcome (parseSigned ctx ts) >>= fun read =>
      outcome (parseProductTail ctx read.1 read.2) := by
  rw [parseProduct]
  exact outcome_bind fun left rest hrest => outcome_bind_self _

theorem outcome_parseProductTail_of_some {t : Token} {op : BinaryOp}
    (h : multiplicative? t.kind = some op) (left : Formula)
    (ts : List Token) :
    outcome (parseProductTail ctx left (t :: ts))
      = outcome (parseSigned ctx ts) >>= fun read =>
        outcome (parseProductTail ctx (.binary op left read.1) read.2) := by
  rw [parseProductTail]
  simp only [h]
  exact outcome_bind fun right rest hrest => outcome_bind_self _

/-- A factor without a sign in front is a power. -/
theorem outcome_parseProductTail_of_startsFactor {t : Token}
    (hs : startsFactor t.kind = true) (left : Formula) (ts : List Token) :
    outcome (parseProductTail ctx left (t :: ts))
      = outcome (parsePower ctx (t :: ts)) >>= fun read =>
        outcome (parseProductTail ctx (.binary .mul left read.1) read.2) := by
  have hsigned : parseSigned ctx (t :: ts) = parsePower ctx (t :: ts) := by
    refine parseSigned_eq_parsePower ctx ?_
    rintro k ⟨⟩
    exact (of_startsFactor hs).1
  rw [parseProductTail, ← hsigned]
  simp only [(of_startsFactor hs).2.1, hs, if_true]
  exact outcome_bind fun right rest hrest => outcome_bind_self _

theorem outcome_parseProductTail_nil (left : Formula) :
    outcome (parseProductTail ctx left []) = .ok (left, []) := by
  rw [parseProductTail]
  rfl

theorem outcome_parseProductTail_of_none {t : Token}
    (hm : multiplicative? t.kind = none) (hs : startsFactor t.kind = false)
    (left : Formula) (ts : List Token) :
    outcome (parseProductTail ctx left (t :: ts)) = .ok (left, t :: ts) := by
  rw [parseProductTail]
  simp only [hm, hs, Bool.false_eq_true, if_false]
  rfl

/-! ## Atoms -/

/-- Reads the parenthesis that closes the one at `position`, after the formula
`f`. -/
def closed (position : Nat) (f : Formula) :
    List Token → Except SyntaxError (Formula × List Token)
  | ⟨.closeParen, _, _⟩ :: rest => .ok (f, rest)
  | _ => .error ⟨position, .unclosed⟩

theorem outcome_closing {fits : List Token → Prop} (position : Nat)
    (f : Formula) (ts : List Token)
    (weaken : ∀ rest : List Token, rest.length < ts.length → fits rest) :
    @outcome fits (closing position ts >>= fun read => match read with
      | ⟨rest, h⟩ => pure (f, ⟨rest, weaken rest h⟩)) = closed position f ts := by
  unfold closing
  split
  · rfl
  · exact (closed.eq_2 position f ts ‹_›).symm

theorem outcome_parseAtom_openParen (start stop : Nat) (ts : List Token) :
    outcome (parseAtom ctx (⟨.openParen, start, stop⟩ :: ts))
      = outcome (parseSum ctx ts) >>= fun read =>
        closed start read.1 read.2 := by
  rw [parseAtom]
  exact outcome_bind fun f rest hrest => outcome_closing start f rest _

theorem outcome_parseAtom_call {name : String} {function : Function}
    (hother : name ≠ ctx.variableName)
    (hnamed : Function.ofName? name = some function)
    (start stop start' stop' : Nat) (ts : List Token) :
    outcome (parseAtom ctx
        (⟨.word name, start, stop⟩ :: ⟨.openParen, start', stop'⟩ :: ts))
      = outcome (parseSum ctx ts) >>= fun read =>
        closed start' (.call function read.1) read.2 := by
  have hpi : name ≠ "pi" := by
    rintro rfl
    cases hnamed
  have he : name ≠ "e" := by
    rintro rfl
    cases hnamed
  rw [parseAtom, if_neg hother, if_neg hpi, if_neg he]
  simp only [hnamed]
  exact outcome_bind fun f rest hrest => outcome_closing start' _ rest _

end Equations

/-! ## Equations -/

theorem outcome_finish {fits : List Token → Prop} (result : Parsed fits)
    (build : Formula → Formula) :
    (result >>= fun read => match read with
      | (f, ⟨rest, _⟩) => finish (build f) rest)
      = outcome result >>= fun read => finish (build read.1) read.2 := by
  cases result with
  | error e => rfl
  | ok read => rfl

/-- Reads on after the left side `left` of an equation, or the whole formula. -/
def rightSide (ctx : ParseContext) (left : Formula) :
    List Token → Except SyntaxError Formula
  | ⟨.equals, _, _⟩ :: rest => outcome (parseSum ctx rest) >>= fun right =>
    finish (.binary .sub left right.1) right.2
  | rest => finish left rest

theorem rightSide_of_ne (ctx : ParseContext) (left : Formula)
    {ts : List Token} (h : (kinds ts).head? ≠ some .equals) :
    rightSide ctx left ts = finish left ts := by
  refine rightSide.eq_2 ctx left ts ?_
  rintro start stop rest rfl
  exact h rfl

/-- The outcome for a whole list of tokens. -/
theorem parseEquation_eq (ctx : ParseContext) (ts : List Token) :
    parseEquation ctx ts = outcome (parseSum ctx ts) >>= fun read =>
      rightSide ctx read.1 read.2 := by
  unfold parseEquation
  cases parseSum ctx ts with
  | error e => rfl
  | ok read =>
    obtain ⟨left, rest, hrest⟩ := read
    cases rest with
    | nil => rfl
    | cons t rest =>
      obtain ⟨kind, start, stop⟩ := t
      cases kind with
      | equals => exact outcome_finish (parseSum ctx rest) (.binary .sub left)
      | _ => rfl

end Stepwise
