import Stepwise.Proofs.Formula.Lexing
import Stepwise.Proofs.Formula.Parsing

/-!
# Renaming the variable

The variable of a formula has a name only in its text. Writing another name for it
(`renameWord`) changes the words of this name and no other token, as a number and a word
reach as far as they can and neither begins or ends with what a name begins with
(`Lexes.renameWord`). In the grammar the name occurs in one rule, so a phrase in the old
name is a phrase in the new one, unless this is the name of a constant or of a function,
which the variable would hide (`Derives.rename`).

The words of a text are lowered before they are compared and the name of the variable is
not. A name with a capital in it is therefore no word of any text: the text in which it
was written is read as one in the lowered name, and in the name as it is it is refused
(`Formula.parse_renameWord`).
-/

namespace Stepwise

/-- What is written for a word: the name `new`, if its lower case is the name `old`. -/
def renameLexeme (old : String) (new lexeme : List Char) : List Char :=
  if String.ofList (Text.lower lexeme) = old then new else lexeme

/-- **The text with another name** for the words whose lower case is the name `old`. -/
def renameWord (old : String) (new : List Char) : List Char → List Char
  | [] => []
  | c :: cs =>
    if Text.isLetter c then
      renameLexeme old new (c :: cs.takeWhile Text.isWordChar)
        ++ renameWord old new (cs.dropWhile Text.isWordChar)
    else c :: renameWord old new cs
  termination_by cs => cs.length
  decreasing_by
    · exact Nat.lt_succ_of_le (length_dropWhile_le _ _)
    · exact Nat.lt_succ_self _

/-- A token with another name. -/
def TokenKind.rename (old new : String) : TokenKind → TokenKind
  | .word name => if name = old then .word new else .word name
  | kind => kind

/-- The names of constants and functions. -/
def IsReserved (name : String) : Prop :=
  name = "pi" ∨ name = "e" ∨ (Function.ofName? name).isSome = true

/-! ## Renamed texts -/

section Texts

variable {old : String} {new : List Char} {c : Char} {cs lexeme : List Char}

theorem renameWord_nil : renameWord old new [] = [] := by
  rw [renameWord]

theorem renameWord_cons_of_not (h : Text.isLetter c = false) :
    renameWord old new (c :: cs) = c :: renameWord old new cs := by
  rw [renameWord, if_neg (Bool.eq_false_iff.mp h)]

/-- What has no letter in it stays as it is. -/
theorem renameWord_append (h : ∀ c ∈ lexeme, Text.isLetter c = false) :
    renameWord old new (lexeme ++ cs) = lexeme ++ renameWord old new cs := by
  induction lexeme with
  | nil => rfl
  | cons c lexeme ih =>
    obtain ⟨hc, hlexeme⟩ := List.forall_mem_cons.mp h
    rw [List.cons_append, renameWord_cons_of_not hc, ih hlexeme, List.cons_append]

/-- **A word is renamed as a whole.** -/
theorem renameWord_word (h : IsIdentifier lexeme)
    (hends : BeginsOutside Text.isWordChar cs) :
    renameWord old new (lexeme ++ cs)
      = renameLexeme old new lexeme ++ renameWord old new cs := by
  obtain ⟨c, chars, rfl, hc⟩ := h.exists_cons
  obtain ⟨-, hchars⟩ := List.forall_mem_cons.mp h.forall_mem
  obtain ⟨htake, hdrop⟩ := takeWhile_append_of_ends hchars hends
  rw [List.cons_append, renameWord, if_pos hc, htake, hdrop]

variable (old) in
theorem isIdentifier_renameLexeme (hnew : IsIdentifier new)
    (h : IsIdentifier lexeme) : IsIdentifier (renameLexeme old new lexeme) := by
  unfold renameLexeme
  split
  · exact hnew
  · exact h

/-- **What a text begins with** is a letter before and after, or the same. -/
theorem beginsOutside_renameWord {p : Char → Bool} (hnew : IsIdentifier new)
    (hp : ∀ c d, Text.isLetter c = true → Text.isLetter d = true → p c = p d)
    (h : BeginsOutside p cs) : BeginsOutside p (renameWord old new cs) := by
  cases cs with
  | nil => rwa [renameWord_nil]
  | cons c cs =>
    have hc : p c = false := h c rfl
    by_cases hletter : Text.isLetter c = true
    · have hrenamed := isIdentifier_renameLexeme old hnew
        (isIdentifier_takeWhile hletter cs)
      obtain ⟨d, chars, heq, hd⟩ := hrenamed.exists_cons
      rw [renameWord, if_pos hletter, heq]
      rintro d ⟨⟩
      exact (hp d c hd hletter).trans hc
    · rw [renameWord_cons_of_not (Bool.eq_false_iff.mpr hletter)]
      rintro d ⟨⟩
      exact hc

theorem wordKind_renameLexeme :
    wordKind (renameLexeme old new lexeme)
      = (wordKind lexeme).rename old (String.ofList (Text.lower new)) := by
  unfold renameLexeme wordKind TokenKind.rename
  dsimp only
  split <;> rfl

end Texts

/-! ## Tokens -/

/-- No symbol is a name. -/
theorem rename_of_symbol? {old new : String} {c : Char} {kind : TokenKind}
    (h : symbol? c = some kind) : kind.rename old new = kind := by
  unfold symbol? at h
  split at h
  case h_15 => cases h
  all_goals
    cases h
    rfl

/-- **The tokens of a renamed text** are the renamed tokens, wherever it begins. -/
theorem Lexes.renameWord (old : String) {new : List Char} (hnew : IsIdentifier new)
    {position : Nat} {cs : List Char} {ts : List Token} (h : Lexes position cs ts)
    (position' : Nat) :
    ∃ ts', Lexes position' (renameWord old new cs) ts'
      ∧ kinds ts'
        = (kinds ts).map (TokenKind.rename old (String.ofList (Text.lower new))) := by
  induction h generalizing position' with
  | nil position =>
    rw [renameWord_nil]
    exact ⟨[], .nil position', rfl⟩
  | @blank position c cs ts hblank _ ih =>
    obtain ⟨ts', hts', hkinds⟩ := ih (position' + 1)
    rw [renameWord_cons_of_not (Text.isLetter_eq_false_of_isBlank hblank)]
    exact ⟨ts', .blank hblank hts', hkinds⟩
  | @number position lexeme cs kind ts hnumeral hends hvalue _ ih =>
    obtain ⟨value, rfl, hvalue'⟩ := exists_number_of_numberKind hvalue
    have hletters : ∀ c ∈ lexeme, Text.isLetter c = false :=
      fun c hc => isLetter_eq_false_of_isNumberChar (hnumeral.forall_mem c hc)
    have hends' : BeginsOutside isNumberChar (Stepwise.renameWord old new cs) :=
      beginsOutside_renameWord hnew (fun c d hc hd => by
        rw [isNumberChar_eq_false_of_isLetter hc,
          isNumberChar_eq_false_of_isLetter hd]) hends
    obtain ⟨ts', hts', hkinds⟩ := ih (position' + lexeme.length)
    rw [renameWord_append hletters]
    exact ⟨_, .number hnumeral hends' (hvalue' position') hts',
      congrArg (TokenKind.number value :: ·) hkinds⟩
  | @word position lexeme cs ts hidentifier hends _ ih =>
    have hends' : BeginsOutside Text.isWordChar (Stepwise.renameWord old new cs) :=
      beginsOutside_renameWord hnew (fun c d hc hd => by
        rw [Text.isWordChar_of_isLetter hc, Text.isWordChar_of_isLetter hd]) hends
    obtain ⟨ts', hts', hkinds⟩ :=
      ih (position' + (renameLexeme old new lexeme).length)
    rw [renameWord_word hidentifier hends]
    refine ⟨_, .word (isIdentifier_renameLexeme old hnew hidentifier) hends' hts', ?_⟩
    exact congrArg₂ List.cons wordKind_renameLexeme hkinds
  | @symbol position c cs kind ts hsymbol _ ih =>
    obtain ⟨ts', hts', hkinds⟩ := ih (position' + 1)
    rw [renameWord_cons_of_not (of_symbol?_eq_some hsymbol).2.2]
    exact ⟨_, .symbol hsymbol hts',
      congrArg₂ List.cons (rename_of_symbol? hsymbol).symm hkinds⟩

/-! ## Phrases -/

section Phrases

variable {old new : String} {phrase : Phrase} {ks : List TokenKind} {f : Formula}

theorem BeginsOperand.rename (h : BeginsOperand ks) :
    BeginsOperand (ks.map (TokenKind.rename old new)) := by
  cases h with
  | number value ks => exact .number value _
  | openParen ks => exact .openParen _
  | word name ks =>
    rw [List.map_cons, TokenKind.rename]
    split
    · exact .word new _
    · exact .word name _

/-- Another name is not changed. -/
theorem rename_word_of_ne {name : String} (h : name ≠ old) :
    (TokenKind.word name).rename old new = .word name :=
  if_neg h

/-- **A phrase in the old name is a phrase in the new one**, and has the same tree. -/
theorem Derives.rename (hnew : ¬ IsReserved new) (h : Derives old phrase ks f) :
    Derives new phrase (ks.map (TokenKind.rename old new)) f := by
  induction h with
  | equation_sum _ ih => exact .equation_sum ih
  | equation_equals _ _ ihl ihr =>
    rw [List.map_append]
    exact .equation_equals ihl ihr
  | sum_product _ ih => exact .sum_product ih
  | sum_plus _ _ ihl ihr =>
    rw [List.map_append]
    exact .sum_plus ihl ihr
  | sum_minus _ _ ihl ihr =>
    rw [List.map_append]
    exact .sum_minus ihl ihr
  | product_signed _ ih => exact .product_signed ih
  | product_times _ _ ihl ihr =>
    rw [List.map_append]
    exact .product_times ihl ihr
  | product_slash _ _ ihl ihr =>
    rw [List.map_append]
    exact .product_slash ihl ihr
  | product_adjacent _ _ begins ihl ihr =>
    rw [List.map_append]
    exact .product_adjacent ihl ihr begins.rename
  | signed_minus _ ih => exact .signed_minus ih
  | signed_plus _ ih => exact .signed_plus ih
  | signed_power _ ih => exact .signed_power ih
  | power_atom _ ih => exact .power_atom ih
  | power_power _ _ ihb ihe =>
    rw [List.map_append]
    exact .power_power ihb ihe
  | atom_number value => exact .atom_number value
  | atom_variable =>
    rw [List.map_singleton, TokenKind.rename, if_pos rfl]
    exact .atom_variable
  | atom_pi other =>
    rw [List.map_singleton, rename_word_of_ne other]
    exact .atom_pi fun heq => hnew (.inl heq.symm)
  | atom_e other =>
    rw [List.map_singleton, rename_word_of_ne other]
    exact .atom_e fun heq => hnew (.inr (.inl heq.symm))
  | atom_parentheses _ ih =>
    rw [List.map_append, List.map_cons]
    exact .atom_parentheses ih
  | @atom_call name function ks f other named _ ih =>
    have hother : name ≠ new := by
      rintro rfl
      exact hnew (.inr (.inr named.isSome_ofName?))
    rw [List.map_append, List.map_cons, List.map_cons, rename_word_of_ne other]
    exact .atom_call hother named ih

/-- **The words of a phrase** are the variable and names of constants and
functions. -/
theorem Derives.eq_or_isReserved (h : Derives old phrase ks f) {name : String}
    (hname : .word name ∈ ks) : name = old ∨ IsReserved name := by
  -- a sign before a phrase or between two is no word, nor is a parenthesis
  have hbehind : ∀ {ks : List TokenKind} {k : TokenKind}, .word name ∈ k :: ks →
      .word name ≠ k → .word name ∈ ks :=
    fun hmem hne => List.mem_of_ne_of_mem hne hmem
  have hbetween : ∀ {ls rs : List TokenKind} {k : TokenKind},
      .word name ∈ ls ++ k :: rs → .word name ≠ k →
        .word name ∈ ls ∨ .word name ∈ rs :=
    fun hmem hne => (List.mem_append.mp hmem).imp_right (hbehind · hne)
  induction h with
  | equation_sum _ ih => exact ih hname
  | equation_equals _ _ ihl ihr => exact (hbetween hname nofun).elim ihl ihr
  | sum_product _ ih => exact ih hname
  | sum_plus _ _ ihl ihr => exact (hbetween hname nofun).elim ihl ihr
  | sum_minus _ _ ihl ihr => exact (hbetween hname nofun).elim ihl ihr
  | product_signed _ ih => exact ih hname
  | product_times _ _ ihl ihr => exact (hbetween hname nofun).elim ihl ihr
  | product_slash _ _ ihl ihr => exact (hbetween hname nofun).elim ihl ihr
  | product_adjacent _ _ _ ihl ihr => exact (List.mem_append.mp hname).elim ihl ihr
  | signed_minus _ ih => exact ih (hbehind hname nofun)
  | signed_plus _ ih => exact ih (hbehind hname nofun)
  | signed_power _ ih => exact ih hname
  | power_atom _ ih => exact ih hname
  | power_power _ _ ihb ihe => exact (hbetween hname nofun).elim ihb ihe
  | atom_number value => exact nomatch List.mem_singleton.mp hname
  | atom_variable =>
    cases List.mem_singleton.mp hname
    exact .inl rfl
  | atom_pi other =>
    cases List.mem_singleton.mp hname
    exact .inr (.inl rfl)
  | atom_e other =>
    cases List.mem_singleton.mp hname
    exact .inr (.inr (.inl rfl))
  | atom_parentheses _ ih =>
    refine (hbetween hname nofun).elim (fun hmem => ?_) nofun
    exact ih (hbehind hmem nofun)
  | atom_call other named _ ih =>
    rcases List.mem_cons.mp hname with heq | hmem
    · cases heq
      exact .inr (.inr (.inr named.isSome_ofName?))
    · refine (hbetween hmem nofun).elim (fun hmem => ?_) nofun
      exact ih (hbehind hmem nofun)

end Phrases

/-! ## Formulas -/

/-- **What a text is read as** is derived from its tokens. -/
theorem Formula.parse_eq_ok_iff {text : List Char} {variableName : String}
    {f : Formula} :
    Formula.parse text variableName = .ok f
      ↔ ∃ ts, Lexes 0 text ts ∧ Derives variableName .equation (kinds ts) f := by
  simp only [← tokensFrom_eq_ok_iff]
  change _ ↔ ∃ ts, tokens text = .ok ts ∧ _
  unfold Formula.parse
  cases tokens text with
  | error e => exact ⟨nofun, nofun⟩
  | ok ts =>
    simp only [Except.ok.injEq, exists_eq_left']
    cases ts with
    | nil => exact ⟨nofun, fun hd => (not_derives_nil hd).elim⟩
    | cons t ts => exact parseEquation_eq_ok_iff

/-- **The name of the variable in a text that is accepted.** Writing a name that looks
like one and is not reserved for it gives a text that is read as the same formula in
the lowered name, so in the name as it is if that is in lower case. If it is not and the
variable occurs, the text is refused. -/
theorem Formula.parse_renameWord {old : String} {new source : List Char} {f : Formula}
    (hnew : IsIdentifier new)
    (hreserved : ¬ IsReserved (String.ofList (Text.lower new)))
    (h : Formula.parse source old = .ok f) :
    (Text.lower new = new →
        Formula.parse (renameWord old new source) (String.ofList new) = .ok f)
      ∧ Formula.parse (renameWord old new source)
          (String.ofList (Text.lower new)) = .ok f
      ∧ (Text.lower new ≠ new →
        (∃ ts, tokens source = .ok ts ∧ .word old ∈ kinds ts) →
          ∃ e, Formula.parse (renameWord old new source) (String.ofList new)
            = .error e) := by
  obtain ⟨ts, hts, hderives⟩ := Formula.parse_eq_ok_iff.mp h
  obtain ⟨ts', hts', hkinds⟩ := hts.renameWord old hnew 0
  have hlowered : Formula.parse (renameWord old new source)
      (String.ofList (Text.lower new)) = .ok f :=
    Formula.parse_eq_ok_iff.mpr ⟨ts', hts', hkinds ▸ hderives.rename hreserved⟩
  refine ⟨fun hlower => ?_, hlowered, fun hlower hoccurs => ?_⟩
  · rwa [hlower] at hlowered
  · cases hresult : Formula.parse (Stepwise.renameWord old new source)
        (String.ofList new) with
    | error e => exact ⟨e, rfl⟩
    | ok g =>
      -- the name that was written is a word of the text in its lower case only
      obtain ⟨us, hus, hword⟩ := hoccurs
      obtain ⟨us', hus', hderives'⟩ := Formula.parse_eq_ok_iff.mp hresult
      obtain rfl := Except.ok.inj (hus.symm.trans hts.tokensFrom_eq)
      obtain rfl := Except.ok.inj (hus'.tokensFrom_eq.symm.trans hts'.tokensFrom_eq)
      have hrenamed : .word (String.ofList (Text.lower new)) ∈ kinds us' := by
        rw [hkinds, List.mem_map]
        exact ⟨_, hword, if_pos rfl⟩
      rcases hderives'.eq_or_isReserved hrenamed with heq | hname
      · exact absurd (String.ofList_injective heq) hlower
      · exact absurd hname hreserved

/-- A formula in `x` and in `t`. -/
theorem Formula.parse_renameWord_t :
    IsIdentifier ['t'] ∧ ¬ IsReserved (String.ofList (Text.lower ['t']))
      ∧ Formula.parse "x - sin(X)".toList "x" = .ok (.binary .sub .var (.call .sin .var))
      ∧ Formula.parse (renameWord "x" ['t'] "x - sin(X)".toList) (String.ofList ['t'])
        = .ok (.binary .sub .var (.call .sin .var)) := by
  have hletter : Text.isLetter 't' = true := by rfl
  have hnew : IsIdentifier ['t'] :=
    ⟨⟨'t', [], rfl, hletter⟩,
      fun c hc => List.mem_singleton.mp hc ▸ Text.isWordChar_of_isLetter hletter⟩
  have hlower : Text.lower ['t'] = ['t'] := by rfl
  have hreserved : ¬ IsReserved (String.ofList (Text.lower ['t'])) := by
    rw [hlower]
    rintro (h | h | h) <;> exact absurd h (by decide)
  have hparse : Formula.parse "x - sin(X)".toList "x"
      = .ok (.binary .sub .var (.call .sin .var)) := by
    cbv
  exact ⟨hnew, hreserved, hparse,
    (Formula.parse_renameWord hnew hreserved hparse).1 hlower⟩

/-- **A capital is not recognized**: the formula `x` in the variable `T`. -/
theorem Formula.parse_capital :
    Formula.parse ['x'] "x" = .ok .var
      ∧ renameWord "x" ['T'] ['x'] = ['T']
      ∧ Formula.parse ['T'] "T" = .error ⟨0, .unknownWord "t"⟩ :=
  ⟨by cbv, by cbv, by cbv⟩

end Stepwise
