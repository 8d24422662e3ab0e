import Stepwise.Proofs.Formula.Lexemes

/-!
# Where an error points

An error in the text of a formula names a position and says what is wrong there. The
parser finds fault with the token it cannot go on with, but not always: a parenthesis
that is not closed is noticed long after it was opened, and a function without
parentheses only at the token behind it, and in both cases the error points back. What
all its functions have in common is that they point at one of the tokens that they were
given, at one that the fault can be about (`SyntaxFault.Blames`), or at the end of the
text, and that they leave no other tokens over (`StaysIn`). This is kept by every way
to put the functions together, so the induction is the one of the parser itself
(`staysIn_parseSum`).

The errors of a text are therefore those of its lexemes that cannot be read, those of
its tokens, and that it ends too soon (`Formula.position_of_parse_eq_error`).
-/

namespace Stepwise

/-- **What a fault is about**: the kinds of token that it can be found with. -/
inductive SyntaxFault.Blames : SyntaxFault → TokenKind → Prop where
  | secondEquals : Blames .secondEquals .equals
  | unmatchedClose : Blames .unmatchedClose .closeParen
  | unclosed : Blames .unclosed .openParen
  | unknownWord (name : String) : Blames (.unknownWord name) (.word name)
  | missingParentheses (name : String) :
    Blames (.missingParentheses name) (.word name)
  | unexpectedToken (kind : TokenKind) : Blames .unexpectedToken kind

/-- **What an error of the parser is about**: one of the tokens of `all`, or the end of
the text at `stop`. -/
inductive Complains (stop : Nat) (all : List Token) : SyntaxError → Prop where
  | token {t : Token} {fault : SyntaxFault} (mem : t ∈ all)
    (blames : fault.Blames t.kind) : Complains stop all ⟨t.start, fault⟩
  | unexpectedEnd : Complains stop all ⟨stop, .unexpectedEnd⟩

/-- **What a function of the parser does with tokens of `all`**: it finds fault with one
of them, or leaves some of them over. -/
structure StaysIn (stop : Nat) (all : List Token)
    (result : Except SyntaxError (Formula × List Token)) : Prop where
  complains : ∀ e, result = .error e → Complains stop all e
  leaves : ∀ f rest, result = .ok (f, rest) → rest ⊆ all

namespace StaysIn

variable {stop : Nat} {all rest : List Token} {f : Formula} {e : SyntaxError}

theorem ok (h : rest ⊆ all) : StaysIn stop all (.ok (f, rest)) where
  complains := nofun
  leaves := by
    rintro f rest ⟨⟩
    exact h

theorem error (h : Complains stop all e) : StaysIn stop all (.error e) where
  complains := by
    rintro e ⟨⟩
    exact h
  leaves := nofun

/-- One function after the other. -/
theorem bind {first : Except SyntaxError (Formula × List Token)}
    {next : Formula × List Token → Except SyntaxError (Formula × List Token)}
    (h : StaysIn stop all first)
    (hnext : ∀ f mid, first = .ok (f, mid) → mid ⊆ all →
      StaysIn stop all (next (f, mid))) :
    StaysIn stop all (first >>= next) := by
  cases first with
  | error e => exact .error (h.complains e rfl)
  | ok read => exact hnext read.1 read.2 rfl (h.leaves read.1 read.2 rfl)

/-- What is read is built into another formula. -/
theorem map {result : Except SyntaxError (Formula × List Token)}
    {build : Formula → Formula} (h : StaysIn stop all result) :
    StaysIn stop all (result.map fun read => (build read.1, read.2)) := by
  cases result with
  | error e => exact .error (h.complains e rfl)
  | ok read => exact .ok (h.leaves read.1 read.2 rfl)

end StaysIn

/-! ## The functions of the parser -/

section Functions

variable {ctx : ParseContext} {all ts : List Token}

/-- A parenthesis that is not closed is what is wrong. -/
theorem staysIn_closed {start stop stop' : Nat} (h : ⟨.openParen, start, stop'⟩ ∈ all)
    (hts : ts ⊆ all) (f : Formula) : StaysIn stop all (closed start f ts) := by
  unfold closed
  split
  · exact .ok (List.subset_of_cons_subset hts)
  · exact .error (.token h .unclosed)

/-- **Sums stay among their tokens**, and so do all phrases that they are built from. -/
theorem staysIn_parseSum (ctx : ParseContext) (all ts : List Token) :
    ts ⊆ all → StaysIn ctx.stop all (outcome (parseSum ctx ts)) := by
  refine parseSum.induct ctx
    (fun ts => ts ⊆ all → StaysIn ctx.stop all (outcome (parseSum ctx ts)))
    (fun left ts => ts ⊆ all →
      StaysIn ctx.stop all (outcome (parseSumTail ctx left ts)))
    (fun ts => ts ⊆ all → StaysIn ctx.stop all (outcome (parseProduct ctx ts)))
    (fun left ts => ts ⊆ all →
      StaysIn ctx.stop all (outcome (parseProductTail ctx left ts)))
    (fun ts => ts ⊆ all → StaysIn ctx.stop all (outcome (parseSigned ctx ts)))
    (fun ts => ts ⊆ all → StaysIn ctx.stop all (outcome (parsePower ctx ts)))
    (fun base ts => ts ⊆ all →
      StaysIn ctx.stop all (outcome (parseExponent ctx base ts)))
    (fun ts => ts ⊆ all → StaysIn ctx.stop all (outcome (parseAtom ctx ts)))
    ?sum ?sumTail_nil ?sumTail_none ?sumTail_some ?product ?productTail_nil
    ?productTail_some ?productTail_factor ?productTail_none ?signed_minus ?signed_plus
    ?signed_power ?power ?exponent_power ?exponent_none ?atom_nil ?atom_number
    ?atom_parens ?atom_variable ?atom_pi ?atom_e ?atom_unknown ?atom_call
    ?atom_missing ?atom_other ts
  -- one phrase after another
  case sum =>
    intro ts hproduct htail hts
    rw [outcome_parseSum]
    exact (hproduct hts).bind fun left mid hleft hmid =>
      htail left mid (fits_of_outcome hleft) hmid
  case sumTail_some =>
    intro left t ts op hop hproduct htail hts
    rw [outcome_parseSumTail_of_some ctx hop]
    exact (hproduct (List.subset_of_cons_subset hts)).bind fun right mid hright hmid =>
      htail right mid (fits_of_outcome hright) hmid
  case product =>
    intro ts hsigned htail hts
    rw [outcome_parseProduct]
    exact (hsigned hts).bind fun left mid hleft hmid =>
      htail left mid (fits_of_outcome hleft) hmid
  case productTail_some =>
    intro left t ts op hop hsigned htail hts
    rw [outcome_parseProductTail_of_some ctx hop]
    exact (hsigned (List.subset_of_cons_subset hts)).bind fun right mid hright hmid =>
      htail right mid (fits_of_outcome hright) hmid
  case productTail_factor =>
    intro left t ts hnone hstarts hsigned htail hts
    have heq : parseSigned ctx (t :: ts) = parsePower ctx (t :: ts) :=
      parseSigned_eq_parsePower ctx (by rintro k ⟨⟩; exact (of_startsFactor hstarts).1)
    rw [outcome_parseProductTail_of_startsFactor ctx hstarts, ← heq]
    exact (hsigned hts).bind fun right mid hright hmid =>
      htail right mid (fits_of_outcome hright) hmid
  case power =>
    intro ts hatom hexponent hts
    rw [outcome_parsePower]
    exact (hatom hts).bind fun base mid hbase hmid =>
      hexponent base mid (fits_of_outcome hbase) hmid
  -- a sign and what it stands before
  case signed_minus =>
    intro start stop ts hsigned hts
    rw [outcome_parseSigned_minus]
    exact (hsigned (List.subset_of_cons_subset hts)).map
  case signed_plus =>
    intro start stop ts hsigned hts
    rw [outcome_parseSigned_plus]
    exact hsigned (List.subset_of_cons_subset hts)
  case signed_power =>
    intro ts hminus hplus hpower hts
    rw [parseSigned.eq_3 ctx ts hminus hplus]
    exact hpower hts
  case exponent_power =>
    intro base start stop ts hsigned hts
    rw [outcome_parseExponent_power]
    exact (hsigned (List.subset_of_cons_subset hts)).map
  -- nothing more to read
  case sumTail_nil =>
    intro left hts
    rw [outcome_parseSumTail_nil]
    exact .ok hts
  case sumTail_none =>
    intro left t ts hnone hts
    rw [outcome_parseSumTail_of_none ctx hnone]
    exact .ok hts
  case productTail_nil =>
    intro left hts
    rw [outcome_parseProductTail_nil]
    exact .ok hts
  case productTail_none =>
    intro left t ts hnone hstarts hts
    rw [outcome_parseProductTail_of_none ctx hnone (Bool.eq_false_iff.mpr hstarts)]
    exact .ok hts
  case exponent_none =>
    intro base ts hpower hts
    rw [parseExponent.eq_2 ctx base ts hpower]
    exact .ok hts
  -- atoms, and what is no atom
  case atom_nil =>
    intro hts
    rw [parseAtom]
    exact .error .unexpectedEnd
  case atom_number =>
    intro value start stop ts hts
    rw [parseAtom]
    exact .ok (List.subset_of_cons_subset hts)
  case atom_parens =>
    intro start stop ts hsum hts
    rw [outcome_parseAtom_openParen]
    exact (hsum (List.subset_of_cons_subset hts)).bind fun f mid hf hmid =>
      staysIn_closed (hts List.mem_cons_self) hmid f
  case atom_variable =>
    intro start stop ts hts
    rw [parseAtom, if_pos rfl]
    exact .ok (List.subset_of_cons_subset hts)
  case atom_pi =>
    intro start stop ts hvar hts
    rw [parseAtom, if_neg hvar, if_pos rfl]
    exact .ok (List.subset_of_cons_subset hts)
  case atom_e =>
    intro start stop ts hvar hpi hts
    rw [parseAtom, if_neg hvar, if_neg hpi, if_pos rfl]
    exact .ok (List.subset_of_cons_subset hts)
  case atom_unknown =>
    intro name start stop ts hvar hpi he hnamed hts
    rw [parseAtom, if_neg hvar, if_neg hpi, if_neg he]
    simp only [hnamed]
    exact .error (.token (hts List.mem_cons_self) (.unknownWord name))
  case atom_call =>
    intro name start stop hvar hpi he function hnamed start' stop' ts hsum hts
    rw [outcome_parseAtom_call ctx hvar hnamed]
    have hparens := List.subset_of_cons_subset hts
    exact (hsum (List.subset_of_cons_subset hparens)).bind fun f mid hf hmid =>
      staysIn_closed (hparens List.mem_cons_self) hmid _
  case atom_missing =>
    intro name start stop ts hvar hpi he function hnamed hopen hts
    rw [parseAtom, if_neg hvar, if_neg hpi, if_neg he]
    simp only [hnamed]
    exact .error (.token (hts List.mem_cons_self) (.missingParentheses name))
  case atom_other =>
    intro kind start stop ts hnumber hopen hword hts
    rw [parseAtom.eq_5 ctx kind start stop ts hnumber hopen hword]
    exact .error (.token (hts List.mem_cons_self) (.unexpectedToken kind))

/-- A token after the end of a formula is what is wrong. -/
theorem complains_of_finish {f : Formula} {e : SyntaxError} (hts : ts ⊆ all)
    (h : finish f ts = .error e) : Complains ctx.stop all e := by
  cases ts with
  | nil => cases h
  | cons t ts =>
    cases h
    refine .token (hts List.mem_cons_self) ?_
    cases t.kind with
    | equals => exact .secondEquals
    | closeParen => exact .unmatchedClose
    | _ => exact .unexpectedToken _

/-- **What is wrong with the tokens of a whole text** is wrong with one of them, or
they end too soon. -/
theorem complains_of_parseEquation {e : SyntaxError}
    (h : parseEquation ctx ts = .error e) : Complains ctx.stop ts e := by
  rw [parseEquation_eq] at h
  have hleft := staysIn_parseSum ctx ts ts (List.Subset.refl ts)
  cases hsum : outcome (parseSum ctx ts) with
  | error e' =>
    rw [hsum] at h
    cases h
    exact hleft.complains e hsum
  | ok read =>
    obtain ⟨left, rest⟩ := read
    have hrest := hleft.leaves left rest hsum
    rw [hsum] at h
    change rightSide ctx left rest = .error e at h
    by_cases hequals : (kinds rest).head? = some .equals
    · obtain ⟨start, stop, rest, rfl⟩ := exists_of_head?_kinds hequals
      have hright := staysIn_parseSum ctx ts rest (List.subset_of_cons_subset hrest)
      change outcome (parseSum ctx rest) >>= _ = Except.error e at h
      cases hsum' : outcome (parseSum ctx rest) with
      | error e' =>
        rw [hsum'] at h
        cases h
        exact hright.complains e hsum'
      | ok read =>
        rw [hsum'] at h
        exact complains_of_finish (hright.leaves read.1 read.2 hsum') h
    · rw [rightSide_of_ne ctx left hequals] at h
      exact complains_of_finish hrest h

end Functions

/-! ## Texts -/

/-- **What an error points at** in a text: the first character of a token, of a malformed
number, or a character that stands for nothing. -/
inductive PointsAt (text : List Char) : SyntaxError → Prop where
  | token {ts : List Token} {t : Token} {fault : SyntaxFault}
    (read : tokens text = .ok ts) (mem : t ∈ ts) (blames : fault.Blames t.kind) :
    PointsAt text ⟨t.start, fault⟩
  | malformedNumber {l : Lexeme} (mem : l ∈ lexemes text)
    (malformed : l.IsMalformedNumber) :
    PointsAt text
      ⟨l.start,
        .malformedNumber (String.ofList (l.chars.map Fraction.pointOfComma))⟩
  | unknownCharacter {l : Lexeme} (mem : l ∈ lexemes text)
    (unknown : l.IsUnknownCharacter) :
    PointsAt text ⟨l.start, .unexpectedCharacter l.first⟩

section Texts

variable {text : List Char} {e : SyntaxError}

/-- A lexeme that cannot be read is what the error points at. -/
theorem pointsAt_of_read_eq_error {l : Lexeme} (hl : l ∈ lexemes text)
    (h : l.read = .error e) : PointsAt text e := by
  obtain ⟨before, after, hstands⟩ := exists_standsIn_of_mem hl
  have hread := h
  rw [Lexeme.read] at hread
  split at hread
  · -- a number without a value
    rename_i hnumber
    unfold numberKind at hread
    dsimp only at hread
    split at hread
    · cases hread
    · cases hread
      exact .malformedNumber hl ⟨hnumber, fun kind hkind => by rw [h] at hkind; cases hkind⟩
  · rename_i hnumber
    split at hread
    · cases hread
    · rename_i hletter
      split at hread
      · cases hread
      · cases hread
        have hnumber' := Bool.eq_false_iff.mpr hnumber
        have hletter' := Bool.eq_false_iff.mpr hletter
        exact .unknownCharacter hl
          ⟨hstands.others_eq_nil hnumber' hletter', hnumber', hletter', ‹_›⟩

/-- **An error points at a lexeme.** -/
theorem PointsAt.exists_lexeme (h : PointsAt text e) :
    ∃ l ∈ lexemes text, e.position = l.start := by
  cases h with
  | @token ts t fault hread hmem =>
    obtain ⟨l, hl, htoken⟩ := exists_lexeme_of_mem hread hmem
    exact ⟨l, hl, Lexeme.start_of_token_eq_ok htoken⟩
  | malformedNumber hmem => exact ⟨_, hmem, rfl⟩
  | unknownCharacter hmem => exact ⟨_, hmem, rfl⟩

/-- The character at which an error points is not blank. -/
theorem PointsAt.getElem?_position (h : PointsAt text e) :
    ∃ c, text[e.position]? = some c ∧ Text.isBlank c = false := by
  obtain ⟨l, hl, hposition⟩ := h.exists_lexeme
  obtain ⟨before, after, hstands⟩ := exists_standsIn_of_mem hl
  rw [hposition]
  exact ⟨l.first, hstands.getElem?_start, hstands.notBlank⟩

/-- **The errors of a text**: there is nothing in it, it ends too soon, or something in
it is wrong. -/
theorem cases_of_parse_eq_error {variableName : String}
    (h : Formula.parse text variableName = .error e) :
    (e = ⟨0, .empty⟩ ∧ ∀ c ∈ text, Text.isBlank c = true)
      ∨ (e = ⟨text.length, .unexpectedEnd⟩ ∧ ∃ c ∈ text, Text.isBlank c = false)
      ∨ PointsAt text e := by
  unfold Formula.parse at h
  cases htokens : tokens text with
  | error e' =>
    rw [htokens] at h
    cases h
    obtain ⟨l, hl, hread⟩ := exists_of_tokens_eq_error htokens
    exact .inr (.inr (pointsAt_of_read_eq_error hl hread))
  | ok ts =>
    rw [htokens] at h
    have hall := forall₂_of_tokens htokens
    cases ts with
    | nil =>
      cases h
      exact .inl ⟨rfl, lexemesFrom_eq_nil_iff.mp (List.forall₂_nil_right_iff.mp hall)⟩
    | cons t ts =>
      have hcomplains : Complains text.length (t :: ts) e :=
        @complains_of_parseEquation ⟨variableName, text.length⟩ _ _ h
      cases hcomplains with
      | token hmem hblames => exact .inr (.inr (.token htokens hmem hblames))
      | unexpectedEnd =>
        obtain ⟨l, hl, -⟩ := exists_lexeme_of_mem htokens List.mem_cons_self
        obtain ⟨before, after, hstands⟩ := exists_standsIn_of_mem hl
        exact .inr (.inl ⟨rfl, l.first, hstands.first_mem, hstands.notBlank⟩)

/-- **Where the errors of a text point.** The position is one of the text, or its
length. A text of blanks is refused as empty, at its beginning. Any other text ends too
soon, which is noticed at its end, or the error points at a character that is not blank:
the first one of a token that the error is about, of a malformed number, or one that
stands for nothing. -/
theorem Formula.position_of_parse_eq_error {variableName : String}
    (h : Formula.parse text variableName = .error e) :
    e.position ≤ text.length
      ∧ ((∀ c ∈ text, Text.isBlank c = true) → e = ⟨0, .empty⟩)
      ∧ ((∃ c ∈ text, Text.isBlank c = false) →
        e = ⟨text.length, .unexpectedEnd⟩
          ∨ PointsAt text e ∧ ∃ c, text[e.position]? = some c
            ∧ Text.isBlank c = false) := by
  have hboth : (∀ c ∈ text, Text.isBlank c = true) →
      ¬ ∃ c ∈ text, Text.isBlank c = false := by
    rintro hall ⟨c, hc, hblank⟩
    exact Bool.false_ne_true (hblank.symm.trans (hall c hc))
  rcases cases_of_parse_eq_error h with ⟨rfl, hempty⟩ | ⟨rfl, hsome⟩ | hpoints
  · exact ⟨Nat.zero_le _, fun _ => rfl, fun hsome => absurd hsome (hboth hempty)⟩
  · exact ⟨Nat.le_refl _, fun hempty => absurd hsome (hboth hempty), fun _ => .inl rfl⟩
  · obtain ⟨c, hc, hblank⟩ := hpoints.getElem?_position
    obtain ⟨hlt, -⟩ := List.getElem?_eq_some_iff.mp hc
    have hsome : ∃ c ∈ text, Text.isBlank c = false :=
      ⟨c, List.mem_of_getElem? hc, hblank⟩
    exact ⟨Nat.le_of_lt hlt, fun hempty => absurd hsome (hboth hempty),
      fun _ => .inr ⟨hpoints, c, hc, hblank⟩⟩

/-- A word that nothing is known of, behind blanks, and a sum without its second
term. -/
theorem Formula.position_of_parse_x_plus :
    (Formula.parse ['x', ' ', '+', ' ', 'y'] "x" = .error ⟨4, .unknownWord "y"⟩
        ∧ PointsAt ['x', ' ', '+', ' ', 'y'] ⟨4, .unknownWord "y"⟩)
      ∧ Formula.parse ['x', ' ', '+', ' '] "x" = .error ⟨4, .unexpectedEnd⟩
        ∧ 4 ≤ ['x', ' ', '+', ' '].length := by
  have hword : Formula.parse ['x', ' ', '+', ' ', 'y'] "x"
      = .error ⟨4, .unknownWord "y"⟩ := by cbv
  have hend : Formula.parse ['x', ' ', '+', ' '] "x"
      = .error ⟨4, .unexpectedEnd⟩ := by cbv
  refine ⟨⟨hword, ?_⟩, hend, (Formula.position_of_parse_eq_error hend).1⟩
  rcases (Formula.position_of_parse_eq_error hword).2.2
    ⟨'x', List.mem_cons_self, rfl⟩ with h | h
  · exact absurd h (by decide)
  · exact h.1

end Texts

end Stepwise
