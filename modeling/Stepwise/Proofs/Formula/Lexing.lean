import Mathlib.Data.List.TakeWhile
import Stepwise.Proofs.Formula.Outcome

/-!
# The tokens of a text, as a grammar

What the tokens of a text are, said without reading it: `Lexes` has one rule for each
thing that may come first, a blank, a number, a word or a symbol. A number and a word
reach as far as they can, so their rules say that what follows does not begin with one
more of their characters. No character can be taken for two of these
(`Text.isBlank_eq_false_of_isLetter`, `isNumberChar_eq_false_of_isLetter`,
`of_symbol?_eq_some`), so the rules exclude each other and are what is read
(`tokensFrom_eq_ok_iff`).
-/

namespace Stepwise

/-! ## Characters -/

/-- Whether two properties have no code point in common. -/
def Text.areDisjoint (ranges ranges' : List Text.CodeRange) : Bool :=
  ranges.all fun range => ranges'.all fun range' =>
    decide (range.2 < range'.1) || decide (range'.2 < range.1)

theorem Text.inRanges_eq_false_of_areDisjoint {ranges ranges' : List Text.CodeRange}
    (h : Text.areDisjoint ranges ranges' = true) {code : Nat}
    (hcode : Text.inRanges ranges code = true) :
    Text.inRanges ranges' code = false := by
  rw [← Bool.not_eq_true, Text.inRanges_eq_true_iff]
  rintro ⟨range', hmem', hlow', hhigh'⟩
  obtain ⟨range, hmem, hlow, hhigh⟩ := Text.inRanges_eq_true_iff.mp hcode
  have happart := List.all_eq_true.mp (List.all_eq_true.mp h range hmem)
    range' hmem'
  rw [Bool.or_eq_true, decide_eq_true_iff, decide_eq_true_iff] at happart
  omega

/-- The letters stand behind the control characters, marks and digits. -/
theorem Text.le_toNat_of_isLetter {c : Char} (h : Text.isLetter c = true) :
    65 ≤ c.toNat := by
  unfold Text.isLetter at h
  split at h
  · rcases Bool.or_eq_true_iff.mp h with hupper | hlower
    · have hrange : 'A'.val ≤ c.val ∧ c.val ≤ 'Z'.val := of_decide_eq_true hupper
      exact UInt32.le_iff_toNat_le.mp hrange.1
    · change (decide ('a'.val ≤ c.val) && decide (c.val ≤ 'z'.val)) = true at hlower
      have hlow := of_decide_eq_true (Bool.and_eq_true_iff.mp hlower).1
      exact le_trans (by decide) (UInt32.le_iff_toNat_le.mp hlow)
  · omega

/-- The blanks among the first code points. -/
theorem Text.isBlank_eq_false_of_lt {c : Char} (hlow : 33 ≤ c.toNat)
    (hhigh : c.toNat < 128) : Text.isBlank c = false := by
  simp only [Text.isBlank, Text.inRanges, Text.blankRanges, List.any_cons,
    List.any_nil, Bool.or_false, Bool.or_eq_false_iff, Bool.and_eq_false_iff,
    decide_eq_false_iff_not]
  omega

/-- **No letter is blank.** -/
theorem Text.isBlank_eq_false_of_isLetter {c : Char}
    (h : Text.isLetter c = true) : Text.isBlank c = false := by
  have hlow := Text.le_toNat_of_isLetter h
  unfold Text.isLetter at h
  split at h
  · exact Text.isBlank_eq_false_of_lt (by omega) ‹_›
  · rw [← Bool.not_eq_true]
    intro hblank
    have hdisjoint : Text.areDisjoint Text.blankRanges Text.letterRanges = true :=
      by decide +kernel
    rw [Text.inRanges_eq_false_of_areDisjoint hdisjoint hblank] at h
    cases h

theorem Text.isLetter_eq_false_of_isBlank {c : Char}
    (h : Text.isBlank c = true) : Text.isLetter c = false := by
  rw [← Bool.not_eq_true]
  intro hletter
  rw [Text.isBlank_eq_false_of_isLetter hletter] at h
  cases h

theorem toNat_of_isNumberChar {c : Char} (h : isNumberChar c = true) :
    33 ≤ c.toNat ∧ c.toNat < 65 := by
  simp only [isNumberChar, Bool.or_eq_true, beq_iff_eq] at h
  rcases h with (hdigit | rfl) | rfl
  · obtain ⟨hlow, hhigh⟩ := Char.isDigit_iff_toNat.mp hdigit
    change 48 ≤ c.toNat at hlow
    change c.toNat ≤ 57 at hhigh
    omega
  · decide
  · decide

/-- **No letter belongs to a number.** -/
theorem isNumberChar_eq_false_of_isLetter {c : Char}
    (h : Text.isLetter c = true) : isNumberChar c = false := by
  rw [← Bool.not_eq_true]
  intro hnumber
  exact (Text.le_toNat_of_isLetter h).not_gt (toNat_of_isNumberChar hnumber).2

theorem isLetter_eq_false_of_isNumberChar {c : Char}
    (h : isNumberChar c = true) : Text.isLetter c = false := by
  rw [← Bool.not_eq_true]
  intro hletter
  exact (Text.le_toNat_of_isLetter hletter).not_gt (toNat_of_isNumberChar h).2

/-- No blank belongs to a number. -/
theorem isBlank_eq_false_of_isNumberChar {c : Char}
    (h : isNumberChar c = true) : Text.isBlank c = false := by
  obtain ⟨hlow, hhigh⟩ := toNat_of_isNumberChar h
  exact Text.isBlank_eq_false_of_lt hlow (by omega)

/-- **What a symbol is not.** -/
theorem of_symbol?_eq_some {c : Char} {kind : TokenKind}
    (h : symbol? c = some kind) :
    Text.isBlank c = false ∧ isNumberChar c = false
      ∧ Text.isLetter c = false := by
  unfold symbol? at h
  split at h
  case h_15 => cases h
  all_goals decide +kernel

/-- A number that is well formed is so at any place. -/
theorem exists_number_of_numberKind {position : Nat} {lexeme : List Char}
    {kind : TokenKind} (h : numberKind position lexeme = .ok kind) :
    ∃ value, kind = .number value
      ∧ ∀ position', numberKind position' lexeme = .ok (.number value) := by
  unfold numberKind at h ⊢
  dsimp only at h ⊢
  cases hvalue : Fraction.parseMagnitude (lexeme.map Fraction.pointOfComma) with
  | error e => rw [hvalue] at h; cases h
  | ok value =>
    rw [hvalue] at h
    cases h
    exact ⟨_, rfl, fun _ => rfl⟩

/-! ## The rules -/

/-- **What a number looks like**: digits and points, in any order. -/
structure IsNumeral (lexeme : List Char) : Prop where
  ne_nil : lexeme ≠ []
  forall_mem : ∀ c ∈ lexeme, isNumberChar c = true

/-- **What a name looks like**: a letter, then letters, numerals and underscores. -/
structure IsIdentifier (lexeme : List Char) : Prop where
  exists_cons : ∃ c cs, lexeme = c :: cs ∧ Text.isLetter c = true
  forall_mem : ∀ c ∈ lexeme, Text.isWordChar c = true

/-- The text does not begin with one of some characters. -/
def BeginsOutside (p : Char → Bool) (text : List Char) : Prop :=
  ∀ c ∈ text.head?, p c = false

/-- **The tokens of a text** whose first character is the one at a position. -/
inductive Lexes : Nat → List Char → List Token → Prop where
  | nil (position : Nat) : Lexes position [] []
  | blank {position : Nat} {c : Char} {cs : List Char} {ts : List Token}
      (blank : Text.isBlank c = true) (rest : Lexes (position + 1) cs ts) :
      Lexes position (c :: cs) ts
  | number {position : Nat} {lexeme cs : List Char} {kind : TokenKind}
      {ts : List Token} (numeral : IsNumeral lexeme)
      (ends : BeginsOutside isNumberChar cs)
      (value : numberKind position lexeme = .ok kind)
      (rest : Lexes (position + lexeme.length) cs ts) :
      Lexes position (lexeme ++ cs)
        (⟨kind, position, position + lexeme.length⟩ :: ts)
  | word {position : Nat} {lexeme cs : List Char} {ts : List Token}
      (identifier : IsIdentifier lexeme)
      (ends : BeginsOutside Text.isWordChar cs)
      (rest : Lexes (position + lexeme.length) cs ts) :
      Lexes position (lexeme ++ cs)
        (⟨wordKind lexeme, position, position + lexeme.length⟩ :: ts)
  | symbol {position : Nat} {c : Char} {cs : List Char} {kind : TokenKind}
      {ts : List Token} (symbol : symbol? c = some kind)
      (rest : Lexes (position + 1) cs ts) :
      Lexes position (c :: cs) (⟨kind, position, position + 1⟩ :: ts)

section Runs

variable {p : Char → Bool}

/-- **A run that ends** is what is taken off a text, and the text after it is what is
left. -/
theorem takeWhile_append_of_ends {lexeme cs : List Char}
    (hlexeme : ∀ c ∈ lexeme, p c = true) (hcs : BeginsOutside p cs) :
    (lexeme ++ cs).takeWhile p = lexeme ∧ (lexeme ++ cs).dropWhile p = cs := by
  rw [List.takeWhile_append_of_pos hlexeme, List.dropWhile_append_of_pos hlexeme]
  cases cs with
  | nil => exact ⟨List.append_nil lexeme, rfl⟩
  | cons c cs =>
    have hc : ¬ p c = true := Bool.eq_false_iff.mp (hcs c rfl)
    rw [List.takeWhile_cons_of_neg hc, List.dropWhile_cons_of_neg hc]
    exact ⟨List.append_nil lexeme, rfl⟩

/-- What is left of a text when a run is taken off. -/
theorem beginsOutside_dropWhile (p : Char → Bool) (cs : List Char) :
    BeginsOutside p (cs.dropWhile p) := by
  intro c hc
  have hhead := List.head?_dropWhile_not p cs
  rw [Option.mem_def.mp hc] at hhead
  exact hhead

end Runs

theorem isNumeral_takeWhile {c : Char} (h : isNumberChar c = true)
    (cs : List Char) : IsNumeral (c :: cs.takeWhile isNumberChar) :=
  ⟨List.cons_ne_nil _ _,
    List.forall_mem_cons.mpr ⟨h, fun _ => List.mem_takeWhile_imp⟩⟩

theorem isIdentifier_takeWhile {c : Char} (h : Text.isLetter c = true)
    (cs : List Char) : IsIdentifier (c :: cs.takeWhile Text.isWordChar) :=
  ⟨⟨c, _, rfl, h⟩, List.forall_mem_cons.mpr
    ⟨Text.isWordChar_of_isLetter h, fun _ => List.mem_takeWhile_imp⟩⟩

/-! ## The rules are what is read -/

section Reading

variable {position : Nat} {cs : List Char} {ts : List Token}

/-- **What is read is derived**, in the order in which it is read. -/
theorem lexes_of_tokensFrom (h : tokensFrom position cs = .ok ts) :
    Lexes position cs ts := by
  fun_induction tokensFrom position cs generalizing ts with
  | case1 position =>
    cases h
    exact .nil position
  | case2 position c cs hblank ih => exact .blank hblank (ih h)
  | case3 position c cs hblank hnumber lexeme stop =>
    rename_i ih
    obtain ⟨kind, hkind, h⟩ := exists_of_bind_eq_ok h
    obtain ⟨rest, hrest, h⟩ := exists_of_bind_eq_ok h
    cases h
    have hderived := Lexes.number (isNumeral_takeWhile hnumber cs)
      (beginsOutside_dropWhile isNumberChar cs) hkind (ih hrest)
    rwa [List.cons_append, List.takeWhile_append_dropWhile] at hderived
  | case4 position c cs hblank hnumber hletter lexeme stop =>
    rename_i ih
    obtain ⟨rest, hrest, h⟩ := exists_of_bind_eq_ok h
    cases h
    have hderived := Lexes.word (isIdentifier_takeWhile hletter cs)
      (beginsOutside_dropWhile Text.isWordChar cs) (ih hrest)
    rwa [List.cons_append, List.takeWhile_append_dropWhile] at hderived
  | case5 position c cs hblank hnumber hletter kind hsymbol ih =>
    obtain ⟨rest, hrest, h⟩ := exists_of_bind_eq_ok h
    cases h
    exact .symbol hsymbol (ih hrest)
  | case6 position c cs hblank hnumber hletter hsymbol => cases h

/-- **What is derived is read**, since the rules exclude each other. -/
theorem Lexes.tokensFrom_eq (h : Lexes position cs ts) :
    tokensFrom position cs = .ok ts := by
  induction h with
  | nil position => rw [tokensFrom]
  | blank hblank _ ih => rw [tokensFrom, if_pos hblank, ih]
  | @number position lexeme cs kind ts hnumeral hends hvalue _ ih =>
    obtain ⟨c, digits, rfl⟩ := List.exists_cons_of_ne_nil hnumeral.ne_nil
    obtain ⟨hc, hdigits⟩ := List.forall_mem_cons.mp hnumeral.forall_mem
    obtain ⟨htake, hdrop⟩ := takeWhile_append_of_ends hdigits hends
    rw [List.cons_append, tokensFrom,
      if_neg (Bool.eq_false_iff.mp (isBlank_eq_false_of_isNumberChar hc)),
      if_pos hc, htake, hdrop]
    dsimp only
    rw [hvalue, ih]
    rfl
  | @word position lexeme cs ts hidentifier hends _ ih =>
    obtain ⟨c, chars, rfl, hc⟩ := hidentifier.exists_cons
    obtain ⟨-, hchars⟩ := List.forall_mem_cons.mp hidentifier.forall_mem
    obtain ⟨htake, hdrop⟩ := takeWhile_append_of_ends hchars hends
    rw [List.cons_append, tokensFrom,
      if_neg (Bool.eq_false_iff.mp (Text.isBlank_eq_false_of_isLetter hc)),
      if_neg (Bool.eq_false_iff.mp (isNumberChar_eq_false_of_isLetter hc)),
      if_pos hc, htake, hdrop]
    dsimp only
    rw [ih]
    rfl
  | symbol hsymbol _ ih =>
    obtain ⟨hblank, hnumber, hletter⟩ := of_symbol?_eq_some hsymbol
    rw [tokensFrom, if_neg (Bool.eq_false_iff.mp hblank),
      if_neg (Bool.eq_false_iff.mp hnumber),
      if_neg (Bool.eq_false_iff.mp hletter), hsymbol]
    dsimp only
    rw [ih]
    rfl

/-- **The tokens of a text** are what the rules derive. -/
theorem tokensFrom_eq_ok_iff :
    tokensFrom position cs = .ok ts ↔ Lexes position cs ts :=
  ⟨lexes_of_tokensFrom, Lexes.tokensFrom_eq⟩

end Reading

end Stepwise
