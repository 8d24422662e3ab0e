import Stepwise.Proofs.Formula.Lexemes

/-!
# Spellings of a formula

A formula can be typed in more than one way: with a comma or a point in a number, with
capitals or small letters, with brackets or parentheses, with one sign or another for an
operation (`Respells`). Two characters of such a pair are read alike (`ReadAlike`): they
belong to the same classes, so the lexemes of the two texts begin and end at the same
places, and what they stand for is the same.

The one thing that is not read character by character is the capital sigma, whose lower
form depends on what stands around it in its word. A letter is cased and case does not
ignore it, whether it is a capital or not, so this is the same as well
(`lower_eq_of_loweredAlike`).

The result of reading, be it a formula or an error with its position and its message, is
therefore that of the other text (`Formula.parse_respelled`).
-/

namespace Stepwise

/-! ## Related lists -/

section Related

variable {α β : Type} {R : α → β → Prop} {as : List α} {bs : List β}

/-- A run of one of two related lists is related to the run of the other, and what is
left to what is left. -/
theorem forall₂_takeWhile_dropWhile {p : α → Bool} {q : β → Bool}
    (hpq : ∀ a b, R a b → p a = q b) (h : List.Forall₂ R as bs) :
    List.Forall₂ R (as.takeWhile p) (bs.takeWhile q)
      ∧ List.Forall₂ R (as.dropWhile p) (bs.dropWhile q) := by
  induction h with
  | nil => exact ⟨.nil, .nil⟩
  | @cons a b as bs hab has ih =>
    rw [List.takeWhile_cons, List.takeWhile_cons, List.dropWhile_cons,
      List.dropWhile_cons, hpq a b hab]
    cases q b with
    | true => exact ⟨.cons hab ih.1, ih.2⟩
    | false => exact ⟨.nil, .cons hab has⟩

/-- Related lists that are read alike member by member are read alike. -/
theorem mapM_eq_of_forall₂ {γ ε : Type} {f : α → Except ε γ} {g : β → Except ε γ}
    (hfg : ∀ a b, R a b → f a = g b) (h : List.Forall₂ R as bs) :
    as.mapM f = bs.mapM g := by
  induction h with
  | nil => rfl
  | @cons a b as bs hab _ ih => rw [List.mapM_cons, List.mapM_cons, hfg a b hab, ih]

end Related

/-! ## Lower case -/

namespace Text

/-- **Two characters that have the same lower form**, wherever they stand. -/
structure LoweredAlike (c d : Char) : Prop where
  sigma : c = 'Σ' ↔ d = 'Σ'
  lowerChar : Text.lowerChar c = Text.lowerChar d
  isCased : Text.isCased c = Text.isCased d
  isCaseIgnorable : Text.isCaseIgnorable c = Text.isCaseIgnorable d

variable {cs ds before before' : List Char}

theorem meetsCased_eq_of_loweredAlike (h : List.Forall₂ LoweredAlike cs ds) :
    meetsCased cs = meetsCased ds := by
  have hdrop := (forall₂_takeWhile_dropWhile
    (fun _ _ hcd => LoweredAlike.isCaseIgnorable hcd) h).2
  unfold meetsCased
  generalize cs.dropWhile isCaseIgnorable = cs' at hdrop
  generalize ds.dropWhile isCaseIgnorable = ds' at hdrop
  cases hdrop with
  | nil => rfl
  | cons hcd _ => exact hcd.isCased

theorem lowerAfter_eq_of_loweredAlike (h : List.Forall₂ LoweredAlike cs ds)
    (hbefore : List.Forall₂ LoweredAlike before before') :
    lowerAfter before cs = lowerAfter before' ds := by
  induction h generalizing before before' with
  | nil => rfl
  | @cons c d cs ds hcd hcs ih =>
    rw [lowerAfter, lowerAfter, ih (.cons hcd hbefore), hcd.lowerChar,
      meetsCased_eq_of_loweredAlike hbefore, meetsCased_eq_of_loweredAlike hcs]
    simp only [hcd.sigma]

/-- **The lower case of a text** depends on no more than this of its characters. -/
theorem lower_eq_of_loweredAlike (h : List.Forall₂ LoweredAlike cs ds) :
    lower cs = lower ds :=
  lowerAfter_eq_of_loweredAlike h .nil

end Text

/-! ## Spellings of a character -/

/-- **One way to write a character for another.** -/
inductive Respells : Char → Char → Prop where
  | same (c : Char) : Respells c c
  /-- A comma is a decimal point. -/
  | comma : Respells ',' '.'
  /-- Of the Latin letters, a capital is the small letter and the other way round. -/
  | letter {c d : Char} (left : c.isAlpha = true) (right : d.isAlpha = true)
      (case : c.toLower = d.toLower) : Respells c d
  | openBracket : Respells '[' '('
  | closeBracket : Respells ']' ')'
  | minusSign : Respells '−' '-'
  | middleDot : Respells '·' '*'
  | timesSign : Respells '×' '*'
  | divisionSign : Respells '÷' '/'

/-- **Two characters that are read alike**, whatever text they stand in. -/
structure ReadAlike (c d : Char) : Prop where
  isBlank : Text.isBlank c = Text.isBlank d
  isNumberChar : isNumberChar c = isNumberChar d
  isLetter : Text.isLetter c = Text.isLetter d
  isWordChar : Text.isWordChar c = Text.isWordChar d
  /-- In a number they are the same digit or the same mark. -/
  number : Stepwise.isNumberChar c = true →
    Fraction.pointOfComma c = Fraction.pointOfComma d
  /-- In a word they are the same letter, but for its case. -/
  word : Text.isWordChar c = true → Text.LoweredAlike c d
  /-- By itself each has the same meaning, or it is one character without any. -/
  symbol : (∃ kind, symbol? c = some kind ∧ symbol? d = some kind)
    ∨ Text.isLetter c = true ∨ Stepwise.isNumberChar c = true ∨ c = d

theorem ReadAlike.refl (c : Char) : ReadAlike c c where
  isBlank := rfl
  isNumberChar := rfl
  isLetter := rfl
  isWordChar := rfl
  number _ := rfl
  word _ := ⟨Iff.rfl, rfl, rfl, rfl⟩
  symbol := .inr (.inr (.inr rfl))

/-- Two symbols with the same meaning are read alike. -/
theorem ReadAlike.of_symbol? {c d : Char} {kind : TokenKind}
    (hc : symbol? c = some kind) (hd : symbol? d = some kind)
    (hword : Text.isWordChar c = false) (hword' : Text.isWordChar d = false) :
    ReadAlike c d := by
  obtain ⟨hblank, hnumber, hletter⟩ := of_symbol?_eq_some hc
  obtain ⟨hblank', hnumber', hletter'⟩ := of_symbol?_eq_some hd
  exact
    { isBlank := hblank.trans hblank'.symm
      isNumberChar := hnumber.trans hnumber'.symm
      isLetter := hletter.trans hletter'.symm
      isWordChar := hword.trans hword'.symm
      number := fun h => nomatch hnumber.symm.trans h
      word := fun h => nomatch hword.symm.trans h
      symbol := .inl ⟨kind, hc, hd⟩ }

/-- The code points of the Latin letters. -/
def latinRanges : List Text.CodeRange :=
  [(65, 90), (97, 122)]

theorem inRanges_of_isAlpha {c : Char} (h : c.isAlpha = true) :
    Text.inRanges latinRanges c.toNat = true := by
  rw [Text.inRanges_eq_true_iff]
  rcases Bool.or_eq_true_iff.mp h with hupper | hlower
  · have hrange : 'A'.val ≤ c.val ∧ c.val ≤ 'Z'.val := of_decide_eq_true hupper
    exact ⟨_, List.mem_cons_self, UInt32.le_iff_toNat_le.mp hrange.1,
      UInt32.le_iff_toNat_le.mp hrange.2⟩
  · have hrange : 'a'.val ≤ c.val ∧ c.val ≤ 'z'.val :=
      (Bool.and_eq_true_iff.mp hlower).imp of_decide_eq_true of_decide_eq_true
    exact ⟨_, List.mem_cons_of_mem _ List.mem_cons_self,
      UInt32.le_iff_toNat_le.mp hrange.1, UInt32.le_iff_toNat_le.mp hrange.2⟩

theorem toNat_lt_of_isAlpha {c : Char} (h : c.isAlpha = true) : c.toNat < 128 := by
  obtain ⟨range, hmem, -, hhigh⟩ :=
    Text.inRanges_eq_true_iff.mp (inRanges_of_isAlpha h)
  have hle : ∀ range ∈ latinRanges, range.2 < 128 := by decide
  exact Nat.lt_of_le_of_lt hhigh (hle range hmem)

/-- A capital and its small letter have the same lower form, and case passes over
neither. -/
theorem loweredAlike_of_isAlpha {c d : Char} (hc : c.isAlpha = true)
    (hd : d.isAlpha = true) (h : c.toLower = d.toLower) : Text.LoweredAlike c d := by
  have hlt := toNat_lt_of_isAlpha hc
  have hlt' := toNat_lt_of_isAlpha hd
  have hsigma : ∀ {c : Char}, c.toNat < 128 → c ≠ 'Σ' := by
    rintro c hlt rfl
    exact absurd hlt (by decide)
  have hdisjoint : Text.areDisjoint latinRanges Text.caseIgnorableRanges = true := by
    decide +kernel
  have hignorable : ∀ {c : Char}, c.isAlpha = true → Text.isCaseIgnorable c = false :=
    fun h => Text.inRanges_eq_false_of_areDisjoint hdisjoint (inRanges_of_isAlpha h)
  exact
    { sigma := iff_of_false (hsigma hlt) (hsigma hlt')
      lowerChar := by
        rw [Text.lowerChar, if_pos hlt, Text.lowerChar, if_pos hlt', h]
      isCased := by
        rw [Text.isCased, if_pos hlt, Text.isCased, if_pos hlt', hc, hd]
      isCaseIgnorable := (hignorable hc).trans (hignorable hd).symm }

theorem isLetter_of_isAlpha {c : Char} (h : c.isAlpha = true) :
    Text.isLetter c = true := by
  rw [Text.isLetter, if_pos (toNat_lt_of_isAlpha h), h]

/-- **Capitals and small letters are read alike.** -/
theorem ReadAlike.of_isAlpha {c d : Char} (hc : c.isAlpha = true)
    (hd : d.isAlpha = true) (h : c.toLower = d.toLower) : ReadAlike c d := by
  have hletter := isLetter_of_isAlpha hc
  have hletter' := isLetter_of_isAlpha hd
  have hnumber := isNumberChar_eq_false_of_isLetter hletter
  exact
    { isBlank := (Text.isBlank_eq_false_of_isLetter hletter).trans
        (Text.isBlank_eq_false_of_isLetter hletter').symm
      isNumberChar := hnumber.trans (isNumberChar_eq_false_of_isLetter hletter').symm
      isLetter := hletter.trans hletter'.symm
      isWordChar := (Text.isWordChar_of_isLetter hletter).trans
        (Text.isWordChar_of_isLetter hletter').symm
      number := fun h => nomatch hnumber.symm.trans h
      word := fun _ => loweredAlike_of_isAlpha hc hd h
      symbol := .inr (.inl hletter) }

/-- **Ways to write a character are read alike.** -/
theorem Respells.readAlike {c d : Char} (h : Respells c d) : ReadAlike c d := by
  cases h with
  | same => exact .refl c
  | comma =>
    exact
      { isBlank := rfl
        isNumberChar := rfl
        isLetter := rfl
        isWordChar := rfl
        number := fun _ => rfl
        word := nofun
        symbol := .inr (.inr (.inl rfl)) }
  | letter left right case => exact .of_isAlpha left right case
  | openBracket => exact .of_symbol? rfl rfl rfl rfl
  | closeBracket => exact .of_symbol? rfl rfl rfl rfl
  | minusSign => exact .of_symbol? rfl rfl (by decide +kernel) rfl
  | middleDot => exact .of_symbol? rfl rfl (by decide +kernel) rfl
  | timesSign => exact .of_symbol? rfl rfl (by decide +kernel) rfl
  | divisionSign => exact .of_symbol? rfl rfl (by decide +kernel) rfl

/-! ## Spellings of a text -/

section Texts

variable {text text' : List Char}

/-- Two lexemes at the same place, written alike. -/
structure Lexeme.Alike (l l' : Lexeme) : Prop where
  start : l.start = l'.start
  first : ReadAlike l.first l'.first
  others : List.Forall₂ ReadAlike l.others l'.others
  goesOn : ∀ c ∈ l.others, goesOn l.first c = true

theorem ReadAlike.goesOn {c d c' d' : Char} (h : ReadAlike c d) (h' : ReadAlike c' d') :
    goesOn c c' = goesOn d d' := by
  unfold Stepwise.goesOn
  rw [h.isNumberChar, h.isLetter]
  split
  · exact h'.isNumberChar
  · split
    · exact h'.isWordChar
    · rfl

/-- **Texts that are written alike have the same division** into lexemes. -/
theorem forall₂_lexemesFrom (position : Nat) (h : List.Forall₂ ReadAlike text text') :
    List.Forall₂ Lexeme.Alike (lexemesFrom position text)
      (lexemesFrom position text') := by
  fun_induction lexemesFrom position text generalizing text' with
  | case1 position =>
    cases h
    rw [lexemesFrom]
    exact .nil
  | case2 position c cs hblank ih =>
    cases h with
    | @cons _ d _ ds hcd hcs =>
      rw [lexemesFrom, if_pos (hcd.isBlank.symm.trans hblank)]
      exact ih hcs
  | case3 position c cs hblank ih =>
    cases h with
    | @cons _ d _ ds hcd hcs =>
      obtain ⟨htake, hdrop⟩ :=
        forall₂_takeWhile_dropWhile (fun _ _ h' => hcd.goesOn h') hcs
      rw [lexemesFrom, if_neg fun h => hblank (hcd.isBlank.trans h), ← htake.length_eq]
      exact .cons ⟨rfl, hcd, htake, fun _ => List.mem_takeWhile_imp⟩ (ih hdrop)

namespace Lexeme.Alike

variable {l l' : Lexeme} (h : l.Alike l')

include h

/-- The characters of two lexemes, when all of the first are of one class. -/
theorem forall₂_chars {p : Char → Bool} (hfirst : p l.first = true)
    (hothers : ∀ c ∈ l.others, p c = true) :
    List.Forall₂ (fun c d => p c = true ∧ ReadAlike c d) l.chars l'.chars :=
  (List.forall₂_and_left _ _).mpr
    ⟨List.forall_mem_cons.mpr ⟨hfirst, hothers⟩, .cons h.first h.others⟩

theorem numberKind_eq (hnumber : isNumberChar l.first = true) :
    numberKind l.start l.chars = numberKind l'.start l'.chars := by
  have hothers := h.goesOn
  rw [goesOn_of_isNumberChar hnumber] at hothers
  have hmap : l.chars.map Fraction.pointOfComma
      = l'.chars.map Fraction.pointOfComma := by
    rw [← List.forall₂_eq_eq_eq, List.forall₂_map_left_iff, List.forall₂_map_right_iff]
    exact (h.forall₂_chars hnumber hothers).imp fun _ _ hcd => hcd.2.number hcd.1
  rw [numberKind, numberKind, hmap, h.start]

theorem wordKind_eq (hletter : Text.isLetter l.first = true) :
    wordKind l.chars = wordKind l'.chars := by
  have hothers := h.goesOn
  rw [goesOn_of_isLetter hletter] at hothers
  have hlower : Text.lower l.chars = Text.lower l'.chars :=
    Text.lower_eq_of_loweredAlike
      ((h.forall₂_chars (Text.isWordChar_of_isLetter hletter) hothers).imp
        fun _ _ hcd => hcd.2.word hcd.1)
  rw [wordKind, wordKind, hlower]

/-- **Lexemes that are written alike are read alike**, also where they cannot be
read. -/
theorem read_eq : l.read = l'.read := by
  unfold Lexeme.read
  rw [← h.first.isNumberChar, ← h.first.isLetter]
  split
  · exact h.numberKind_eq ‹_›
  · split
    · rw [h.wordKind_eq ‹_›]
    · rcases h.first.symbol with ⟨kind, hkind, hkind'⟩ | hletter | hnumber | heq
      · rw [hkind, hkind']
      · exact absurd hletter ‹_›
      · exact absurd hnumber ‹_›
      · rw [heq, h.start]

theorem token_eq : l.token = l'.token := by
  have hlength : l.chars.length = l'.chars.length :=
    congrArg (· + 1) h.others.length_eq
  rw [Lexeme.token, Lexeme.token, h.read_eq, h.start, hlength]

end Lexeme.Alike

end Texts

/-- **The spelling does not matter.** Two texts of which one is written for the other,
character by character, are read as the same formula or refused with the same error at
the same position, whatever the name of the variable. -/
theorem Formula.parse_respelled {text text' : List Char}
    (h : List.Forall₂ Respells text text') (variableName : String) :
    Formula.parse text variableName = Formula.parse text' variableName := by
  have halike : List.Forall₂ ReadAlike text text' :=
    h.imp fun _ _ => Respells.readAlike
  have htokens : tokens text = tokens text' := by
    unfold tokens
    rw [tokensFrom_eq_mapM, tokensFrom_eq_mapM]
    exact mapM_eq_of_forall₂ (fun _ _ => Lexeme.Alike.token_eq)
      (forall₂_lexemesFrom 0 halike)
  unfold Formula.parse
  rw [htokens, h.length_eq]

/-- Capitals, brackets and another sign for a product, in a formula; and commas for
points, in a text that is no formula. -/
theorem Formula.parse_respelled_sine :
    (List.Forall₂ Respells ['X', '·', 'S', 'i', 'n', '[', '−', 'x', ']']
          ['x', '*', 's', 'i', 'n', '(', '-', 'x', ')']
        ∧ Formula.parse ['X', '·', 'S', 'i', 'n', '[', '−', 'x', ']'] "x"
          = .ok (.binary .mul .var (.call .sin (.neg .var))))
      ∧ List.Forall₂ Respells ['1', ',', ',', '2'] ['1', '.', ',', '2']
        ∧ Formula.parse ['1', ',', ',', '2'] "x"
          = .error ⟨0, .malformedNumber "1..2"⟩ := by
  have hsine : List.Forall₂ Respells ['X', '·', 'S', 'i', 'n', '[', '−', 'x', ']']
      ['x', '*', 's', 'i', 'n', '(', '-', 'x', ')'] :=
    .cons (.letter rfl rfl rfl) <| .cons .middleDot <| .cons (.letter rfl rfl rfl) <|
      .cons (.same 'i') <| .cons (.same 'n') <| .cons .openBracket <|
      .cons .minusSign <| .cons (.same 'x') <| .cons .closeBracket .nil
  have hcommas : List.Forall₂ Respells ['1', ',', ',', '2'] ['1', '.', ',', '2'] :=
    .cons (.same '1') <| .cons .comma <| .cons (.same ',') <| .cons (.same '2') .nil
  exact ⟨⟨hsine, (Formula.parse_respelled hsine "x").trans (by cbv)⟩, hcommas,
    (Formula.parse_respelled hcommas "x").trans (by cbv)⟩

end Stepwise
