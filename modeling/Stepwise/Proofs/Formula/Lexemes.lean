import Mathlib
import Stepwise.Proofs.Formula.Lexing

/-!
# The lexemes of a text

Before anything is said about what is written in a text, it falls into *lexemes*: numbers
and words as far as they reach, and every other character that is not blank by itself.
This division never fails. Reading a lexeme can: a number may be malformed, and a
character may stand for nothing. The tokens of a text are its lexemes, each read by
itself (`tokensFrom_eq_mapM`), so there are tokens where every lexeme can be read
(`forall₂_of_tokens`), and what is wrong otherwise is wrong with one lexeme
(`exists_of_tokens_eq_error`).
-/

namespace Stepwise

/-- **A lexeme**: characters of a text that are read together, the first of them at the
position `start`. -/
structure Lexeme where
  start : Nat
  first : Char
  others : List Char
  deriving DecidableEq

/-- The characters that go on with a lexeme which begins with `c`. -/
def goesOn (c : Char) : Char → Bool :=
  if isNumberChar c then isNumberChar
  else if Text.isLetter c then Text.isWordChar
  else fun _ => false

/-- The lexemes of a text whose first character is the one at `position`. -/
def lexemesFrom (position : Nat) : List Char → List Lexeme
  | [] => []
  | c :: cs =>
    if Text.isBlank c then lexemesFrom (position + 1) cs
    else
      ⟨position, c, cs.takeWhile (goesOn c)⟩
        :: lexemesFrom (position + (cs.takeWhile (goesOn c)).length + 1)
          (cs.dropWhile (goesOn c))
  termination_by cs => cs.length
  decreasing_by
    · exact Nat.lt_succ_self _
    · exact Nat.lt_succ_of_le (length_dropWhile_le _ _)

/-- **The lexemes of a text.** -/
def lexemes (text : List Char) : List Lexeme :=
  lexemesFrom 0 text

namespace Lexeme

/-- The characters of a lexeme. -/
def chars (l : Lexeme) : List Char :=
  l.first :: l.others

/-- The position behind a lexeme. -/
def stop (l : Lexeme) : Nat :=
  l.start + l.chars.length

/-- **What a lexeme is read as.** -/
def read (l : Lexeme) : Except SyntaxError TokenKind :=
  if isNumberChar l.first then numberKind l.start l.chars
  else if Text.isLetter l.first then .ok (wordKind l.chars)
  else match symbol? l.first with
    | some kind => .ok kind
    | none => .error ⟨l.start, .unexpectedCharacter l.first⟩

/-- The token of a lexeme. -/
def token (l : Lexeme) : Except SyntaxError Token :=
  l.read.map fun kind => ⟨kind, l.start, l.start + l.chars.length⟩

/-- A number that has no value. -/
def IsMalformedNumber (l : Lexeme) : Prop :=
  isNumberChar l.first = true ∧ ∀ kind, l.read ≠ .ok kind

/-- A character that stands for nothing. -/
def IsUnknownCharacter (l : Lexeme) : Prop :=
  l.others = [] ∧ isNumberChar l.first = false ∧ Text.isLetter l.first = false
    ∧ symbol? l.first = none

end Lexeme

/-! ## What goes on -/

section Runs

variable {c : Char}

theorem goesOn_of_isNumberChar (h : isNumberChar c = true) :
    goesOn c = isNumberChar :=
  if_pos h

theorem goesOn_of_isLetter (h : Text.isLetter c = true) :
    goesOn c = Text.isWordChar := by
  rw [goesOn, if_neg (Bool.eq_false_iff.mp (isNumberChar_eq_false_of_isLetter h)),
    if_pos h]

/-- Nothing goes on with what begins neither a number nor a word. -/
theorem run_eq_nil (hnumber : ¬ isNumberChar c = true) (hletter : ¬ Text.isLetter c = true)
    (cs : List Char) : cs.takeWhile (goesOn c) = [] ∧ cs.dropWhile (goesOn c) = cs := by
  rw [goesOn, if_neg hnumber, if_neg hletter]
  cases cs <;> exact ⟨rfl, rfl⟩

end Runs

/-! ## The division -/

/-- **Where a lexeme stands** in a text whose first character is the one at `position`:
between what stands `before` and `after` it, reaching as far as it can. -/
structure Lexeme.StandsIn (l : Lexeme) (position : Nat)
    (cs before after : List Char) : Prop where
  split : cs = before ++ l.chars ++ after
  start : l.start = position + before.length
  notBlank : Text.isBlank l.first = false
  goesOn : ∀ c ∈ l.others, goesOn l.first c = true
  ends : BeginsOutside (Stepwise.goesOn l.first) after

section Division

variable {position : Nat} {cs : List Char} {l : Lexeme}

/-- **Every lexeme stands in its text.** -/
theorem exists_standsIn_of_mem (h : l ∈ lexemesFrom position cs) :
    ∃ before after, l.StandsIn position cs before after := by
  fun_induction lexemesFrom position cs with
  | case1 position => cases h
  | case2 position c cs hblank ih =>
    obtain ⟨before, after, hl⟩ := ih h
    refine ⟨c :: before, after, congrArg (c :: ·) hl.split, ?_, hl.notBlank, hl.goesOn,
      hl.ends⟩
    rw [hl.start, List.length_cons]
    omega
  | case3 position c cs hblank ih =>
    have hrun := (List.takeWhile_append_dropWhile (p := goesOn c) (l := cs)).symm
    rcases List.mem_cons.mp h with rfl | hmem
    · exact ⟨[], _, congrArg (c :: ·) hrun, rfl, Bool.eq_false_iff.mpr hblank,
        fun _ => List.mem_takeWhile_imp, beginsOutside_dropWhile _ cs⟩
    · -- the run of the first lexeme stands before the others
      obtain ⟨before, after, hl⟩ := ih hmem
      refine ⟨c :: (cs.takeWhile (goesOn c) ++ before), after, ?_, ?_, hl.notBlank,
        hl.goesOn, hl.ends⟩
      · rw [List.cons_append, List.cons_append, List.append_assoc, List.append_assoc,
          ← List.append_assoc before, ← hl.split, ← hrun]
      · rw [hl.start, List.length_cons, List.length_append]
        omega

/-- The character at the position of a lexeme. -/
theorem Lexeme.StandsIn.getElem?_start {before after : List Char}
    (h : l.StandsIn 0 cs before after) : cs[l.start]? = some l.first := by
  rw [h.split, h.start, Nat.zero_add, List.append_assoc,
    List.getElem?_append_right (Nat.le_refl _), Nat.sub_self]
  rfl

theorem Lexeme.StandsIn.first_mem {before after : List Char}
    (h : l.StandsIn position cs before after) : l.first ∈ cs := by
  rw [h.split, List.append_assoc]
  exact List.mem_append_right before List.mem_cons_self

/-- A lexeme that is neither a number nor a word is a single character. -/
theorem Lexeme.StandsIn.others_eq_nil {before after : List Char}
    (h : l.StandsIn position cs before after) (hnumber : isNumberChar l.first = false)
    (hletter : Text.isLetter l.first = false) : l.others = [] := by
  have hothers := h.goesOn
  rw [Stepwise.goesOn, if_neg (Bool.eq_false_iff.mp hnumber),
    if_neg (Bool.eq_false_iff.mp hletter)] at hothers
  exact List.eq_nil_iff_forall_not_mem.mpr fun c hc => nomatch hothers c hc

/-- Only what is blank has no lexemes. -/
theorem lexemesFrom_eq_nil_iff :
    lexemesFrom position cs = [] ↔ ∀ c ∈ cs, Text.isBlank c = true := by
  fun_induction lexemesFrom position cs with
  | case1 position => exact iff_of_true rfl nofun
  | case2 position c cs hblank ih =>
    rw [ih, List.forall_mem_cons]
    exact (and_iff_right hblank).symm
  | case3 position c cs hblank ih =>
    exact iff_of_false (List.cons_ne_nil _ _)
      fun h => hblank (h c List.mem_cons_self)

/-- **The tokens of a text are its lexemes, each read by itself.** -/
theorem tokensFrom_eq_mapM (position : Nat) (cs : List Char) :
    tokensFrom position cs = (lexemesFrom position cs).mapM Lexeme.token := by
  fun_induction tokensFrom position cs with
  | case1 position =>
    rw [lexemesFrom]
    rfl
  | case2 position c cs hblank ih => rw [ih, lexemesFrom, if_pos hblank]
  -- in each other case the first lexeme is the one that is read here
  | case3 position c cs hblank hnumber lexeme stop =>
    rename_i ih
    rw [ih, lexemesFrom, if_neg hblank, List.mapM_cons, goesOn_of_isNumberChar hnumber,
      Lexeme.token, Lexeme.read, if_pos hnumber]
    change (numberKind position lexeme >>= _) = Except.map _ (numberKind position lexeme) >>= _
    cases numberKind position lexeme <;> rfl
  | case4 position c cs hblank hnumber hletter lexeme stop =>
    rename_i ih
    rw [ih, lexemesFrom, if_neg hblank, List.mapM_cons, goesOn_of_isLetter hletter,
      Lexeme.token, Lexeme.read, if_neg hnumber, if_pos hletter]
    rfl
  | case5 position c cs hblank hnumber hletter kind hsymbol ih =>
    obtain ⟨htake, hdrop⟩ := run_eq_nil hnumber hletter cs
    rw [ih, lexemesFrom, if_neg hblank, List.mapM_cons, htake, hdrop, Lexeme.token,
      Lexeme.read, if_neg hnumber, if_neg hletter]
    simp only [hsymbol]
    rfl
  | case6 position c cs hblank hnumber hletter hsymbol =>
    rw [lexemesFrom, if_neg hblank, List.mapM_cons, Lexeme.token, Lexeme.read,
      if_neg hnumber, if_neg hletter]
    simp only [hsymbol]
    rfl

end Division

/-! ## Reading a whole text -/

section Reading

variable {text : List Char} {ts : List Token} {l : Lexeme} {e : SyntaxError}

/-- A list is gone through by its members. -/
theorem forall₂_of_mapM_eq_ok {α β ε : Type} {f : α → Except ε β} {as : List α}
    {bs : List β} (h : as.mapM f = .ok bs) :
    List.Forall₂ (fun a b => f a = .ok b) as bs := by
  induction as generalizing bs with
  | nil =>
    cases h
    exact .nil
  | cons a as ih =>
    rw [List.mapM_cons] at h
    obtain ⟨b, hb, h⟩ := exists_of_bind_eq_ok h
    obtain ⟨bs', hbs', h⟩ := exists_of_bind_eq_ok h
    cases h
    exact .cons hb (ih hbs')

/-- What can be done with each member of a list can be done with the list. -/
theorem mapM_eq_ok_of_forall₂ {α β ε : Type} {f : α → Except ε β} {as : List α}
    {bs : List β} (h : List.Forall₂ (fun a b => f a = .ok b) as bs) :
    as.mapM f = .ok bs := by
  induction h with
  | nil => rfl
  | cons ha _ ih =>
    rw [List.mapM_cons, ha, ih]
    rfl

/-- What goes wrong in a list goes wrong at one of its members. -/
theorem exists_of_mapM_eq_error {α β ε : Type} {f : α → Except ε β} {as : List α}
    {e : ε} (h : as.mapM f = .error e) : ∃ a ∈ as, f a = .error e := by
  induction as with
  | nil => cases h
  | cons a as ih =>
    rw [List.mapM_cons] at h
    cases ha : f a with
    | error e' =>
      rw [ha] at h
      cases h
      exact ⟨a, List.mem_cons_self, ha⟩
    | ok b =>
      cases has : as.mapM f with
      | error e' =>
        rw [ha, has] at h
        cases h
        obtain ⟨a', hmem, ha'⟩ := ih has
        exact ⟨a', List.mem_cons_of_mem a hmem, ha'⟩
      | ok bs =>
        rw [ha, has] at h
        cases h

/-- **Where there are tokens**, each is that of a lexeme. -/
theorem forall₂_of_tokens (h : tokens text = .ok ts) :
    List.Forall₂ (fun l t => Lexeme.token l = .ok t) (lexemes text) ts :=
  forall₂_of_mapM_eq_ok ((tokensFrom_eq_mapM 0 text).symm.trans h)

theorem exists_lexeme_of_mem {t : Token} (h : tokens text = .ok ts) (ht : t ∈ ts) :
    ∃ l ∈ lexemes text, l.token = .ok t := by
  have hall := forall₂_of_tokens h
  clear h
  generalize lexemes text = ls at hall
  induction hall with
  | nil => cases ht
  | @cons l t' ls ts hl _ ih =>
    rcases List.mem_cons.mp ht with rfl | hmem
    · exact ⟨l, List.mem_cons_self, hl⟩
    · obtain ⟨l', hl', htoken⟩ := ih hmem
      exact ⟨l', List.mem_cons_of_mem l hl', htoken⟩

/-- The token of a lexeme is what it is read as, where it stands. -/
theorem Lexeme.token_eq_ok_iff {t : Token} :
    l.token = .ok t ↔ l.read = .ok t.kind ∧ t.start = l.start ∧ t.stop = l.stop := by
  rw [Lexeme.token]
  cases l.read with
  | error e =>
    refine iff_of_false ?_ ?_
    · rintro ⟨⟩
    · rintro ⟨⟨⟩, -⟩
  | ok kind =>
    constructor
    · rintro ⟨⟩
      exact ⟨rfl, rfl, rfl⟩
    · obtain ⟨kind', start, stop⟩ := t
      rintro ⟨⟨⟩, ⟨⟩, ⟨⟩⟩
      rfl

theorem Lexeme.start_of_token_eq_ok {t : Token} (h : l.token = .ok t) :
    t.start = l.start :=
  (Lexeme.token_eq_ok_iff.mp h).2.1

/-- **Where there are none**, one lexeme cannot be read. -/
theorem exists_of_tokens_eq_error (h : tokens text = .error e) :
    ∃ l ∈ lexemes text, l.read = .error e := by
  obtain ⟨l, hl, htoken⟩ :=
    exists_of_mapM_eq_error ((tokensFrom_eq_mapM 0 text).symm.trans h)
  refine ⟨l, hl, ?_⟩
  rw [Lexeme.token] at htoken
  cases hread : l.read with
  | error e' =>
    rw [hread] at htoken
    exact congrArg Except.error (Except.error.inj htoken)
  | ok kind =>
    rw [hread] at htoken
    cases htoken

end Reading

end Stepwise
