import Stepwise.Proofs.Formula.Lexemes

/-!
# The characters of the tokens

A token remembers where it stands in its text, and this is enough to read it again. The
tokens stand one behind the other, every character that is not blank belongs to one of
them, and what stands between the ends of a token is read as that token alone. A number
and a word end where the next character is not one of theirs, so no longer stretch of the
text is one token.

Blanks between tokens are not noticed. A text is `spread` by putting any number of blanks
in front of any of its characters; as long as no token is broken up, the tokens are the
same, each moved by what was put in up to it (`tokens_spread`).

All this is said first of the lexemes, which do not depend on what can be read, and
proved by the recursion that divides a text: where they stand (`pairwise_lexemesFrom`),
which characters are theirs (`exists_mem_lexemesFrom_iff`) and what blanks do to them
(`lexemesFrom_spreadFrom`). The main result is `isPartition_of_tokens`.
-/

namespace Stepwise

/-! ## Blanks and words -/

/-- **No blank belongs to a word.** -/
theorem Text.isBlank_eq_false_of_isWordChar {c : Char}
    (h : Text.isWordChar c = true) : Text.isBlank c = false := by
  rcases Bool.or_eq_true_iff.mp h with hletter | hscore
  · rcases Bool.or_eq_true_iff.mp hletter with hletter | hnumeral
    · exact Text.isBlank_eq_false_of_isLetter hletter
    · unfold Text.isNumeral at hnumeral
      split at hnumeral
      · refine isBlank_eq_false_of_isNumberChar ?_
        rw [isNumberChar, hnumeral]
        rfl
      · have hdisjoint :
            Text.areDisjoint Text.numeralRanges Text.blankRanges = true := by
          decide +kernel
        exact Text.inRanges_eq_false_of_areDisjoint hdisjoint hnumeral
  · rw [beq_iff_eq.mp hscore]
    rfl

theorem isBlank_eq_false_of_goesOn {c d : Char} (h : goesOn c d = true) :
    Text.isBlank d = false := by
  unfold goesOn at h
  split at h
  · exact isBlank_eq_false_of_isNumberChar h
  · split at h
    · exact Text.isBlank_eq_false_of_isWordChar h
    · cases h

/-- There is no blank in a lexeme. -/
theorem isBlank_eq_false_of_mem_run {c d : Char} {cs : List Char}
    (hc : Text.isBlank c = false) (hd : d ∈ c :: cs.takeWhile (goesOn c)) :
    Text.isBlank d = false := by
  rcases List.mem_cons.mp hd with rfl | hrun
  · exact hc
  · exact isBlank_eq_false_of_goesOn (List.mem_takeWhile_imp hrun)

/-! ## Where the lexemes stand -/

namespace Lexeme

/-- Where a lexeme begins and where it ends. -/
def ends (l : Lexeme) : Nat × Nat :=
  (l.start, l.stop)

theorem start_lt_stop (l : Lexeme) : l.start < l.stop :=
  Nat.lt_add_of_pos_right (Nat.succ_pos _)

end Lexeme

/-- Where a token begins and where it ends. -/
def Token.ends (t : Token) : Nat × Nat :=
  (t.start, t.stop)

section Positions

variable {position : Nat} {cs : List Char}

theorem le_start_of_mem_lexemesFrom {l : Lexeme} (h : l ∈ lexemesFrom position cs) :
    position ≤ l.start := by
  obtain ⟨before, after, hl⟩ := exists_standsIn_of_mem h
  rw [hl.start]
  exact Nat.le_add_right _ _

/-- **Lexemes stand one behind the other.** -/
theorem pairwise_lexemesFrom (position : Nat) (cs : List Char) :
    (lexemesFrom position cs).Pairwise fun l l' => l.stop ≤ l'.start := by
  fun_induction lexemesFrom position cs with
  | case1 position => exact .nil
  | case2 position c cs hblank ih => exact ih
  | case3 position c cs hblank ih =>
    exact .cons (fun _ hl' => le_start_of_mem_lexemesFrom hl') ih

/-- **The lexemes are what is not blank**: a character is part of one of them, or it is
blank. -/
theorem exists_mem_lexemesFrom_iff (position : Nat) (cs : List Char) (i : Nat) :
    (∃ l ∈ lexemesFrom position cs, l.start ≤ position + i ∧ position + i < l.stop)
      ↔ ∃ c ∈ cs[i]?, Text.isBlank c = false := by
  fun_induction lexemesFrom position cs generalizing i with
  | case1 position =>
    refine iff_of_false ?_ ?_
    · rintro ⟨l, hl, -⟩
      cases hl
    · rintro ⟨c, hc, -⟩
      cases hc
  | case2 position c cs hblank ih =>
    cases i with
    | zero =>
      refine iff_of_false ?_ ?_
      · rintro ⟨l, hl, hstart, -⟩
        exact Nat.not_succ_le_self position ((le_start_of_mem_lexemesFrom hl).trans hstart)
      · rintro ⟨d, ⟨⟩, hd⟩
        exact Bool.false_ne_true (hd.symm.trans hblank)
    | succ i =>
      rw [List.getElem?_cons_succ, ← ih i, Nat.add_right_comm position 1 i]
      rfl
  | case3 position c cs hblank ih =>
    have hrun : c :: cs = (c :: cs.takeWhile (goesOn c)) ++ cs.dropWhile (goesOn c) :=
      congrArg (c :: ·) (List.takeWhile_append_dropWhile).symm
    simp only [List.mem_cons, exists_eq_or_imp]
    rw [hrun]
    rcases Nat.lt_or_ge i ((cs.takeWhile (goesOn c)).length + 1) with hi | hi
    · -- the character is one of the first lexeme
      refine iff_of_true (.inl ⟨Nat.le_add_right _ _, Nat.add_lt_add_left hi _⟩) ?_
      rw [List.getElem?_append_left hi, List.getElem?_eq_getElem hi]
      exact ⟨_, rfl, isBlank_eq_false_of_mem_run (Bool.eq_false_iff.mpr hblank)
        (List.getElem_mem hi)⟩
    · -- the character stands behind it
      have hposition : position + (cs.takeWhile (goesOn c)).length + 1
          + (i - ((cs.takeWhile (goesOn c)).length + 1)) = position + i := by
        omega
      rw [List.getElem?_append_right hi, List.length_cons, ← ih, hposition]
      exact or_iff_right fun hfirst => absurd hfirst.2 (Nat.add_le_add_left hi _).not_gt

end Positions

/-! ## Texts with blanks put in -/

/-- A text with `gaps i` put in front of its character `i`, and what belongs behind the
last one. Its first character is the one at `position`. -/
def spreadFrom (gaps : Nat → List Char) (position : Nat) : List Char → List Char
  | [] => gaps position
  | c :: cs => gaps position ++ c :: spreadFrom gaps (position + 1) cs

/-- **A text spread** by what `gaps` puts between its characters. -/
def spread (gaps : Nat → List Char) (text : List Char) : List Char :=
  spreadFrom gaps 0 text

/-- How many characters are put in at the first `n` places. -/
def inserted (gaps : Nat → List Char) (n : Nat) : Nat :=
  ∑ i ∈ Finset.range n, (gaps i).length

/-- A lexeme where it stands in the spread text. -/
def Lexeme.moved (gaps : Nat → List Char) (l : Lexeme) : Lexeme :=
  { l with start := l.start + inserted gaps (l.start + 1) }

/-- A token where it stands in the spread text. -/
def Token.moved (gaps : Nat → List Char) (t : Token) : Token where
  kind := t.kind
  start := t.start + inserted gaps (t.start + 1)
  stop := t.stop + inserted gaps (t.start + 1)

section Spreading

variable {gaps : Nat → List Char} {position : Nat} {cs : List Char}

theorem inserted_zero (gaps : Nat → List Char) : inserted gaps 0 = 0 :=
  Finset.sum_range_zero _

theorem inserted_succ (gaps : Nat → List Char) (n : Nat) :
    inserted gaps (n + 1) = inserted gaps n + (gaps n).length :=
  Finset.sum_range_succ _ n

/-- Where nothing is put in. -/
theorem inserted_add {n m : Nat} (h : ∀ i, n ≤ i → i < n + m → gaps i = []) :
    inserted gaps (n + m) = inserted gaps n := by
  rw [inserted, Finset.sum_range_add, ← inserted, Finset.sum_eq_zero, Nat.add_zero]
  intro i hi
  rw [h (n + i) (Nat.le_add_right n i) (Nat.add_lt_add_left (Finset.mem_range.mp hi) n)]
  rfl

theorem spreadFrom_append {run : List Char}
    (h : ∀ i, position ≤ i → i < position + run.length → gaps i = []) (cs : List Char) :
    spreadFrom gaps position (run ++ cs)
      = run ++ spreadFrom gaps (position + run.length) cs := by
  induction run generalizing position with
  | nil => rfl
  | cons c run ih =>
    rw [List.length_cons] at h
    have hfirst : gaps position = [] := h position (Nat.le_refl _) (by omega)
    have hrest : spreadFrom gaps (position + 1) (run ++ cs)
        = run ++ spreadFrom gaps (position + 1 + run.length) cs :=
      ih fun i hi hi' => h i (by omega) (by omega)
    rw [List.cons_append, spreadFrom, hfirst, List.nil_append, hrest, List.length_cons,
      Nat.add_right_comm position 1, ← Nat.add_assoc]
    rfl

/-- Blanks in front of a text only move its lexemes. -/
theorem lexemesFrom_blanks_append {gap : List Char} (h : ∀ c ∈ gap, Text.isBlank c = true)
    (position : Nat) (cs : List Char) :
    lexemesFrom position (gap ++ cs) = lexemesFrom (position + gap.length) cs := by
  induction gap generalizing position with
  | nil => rfl
  | cons c gap ih =>
    obtain ⟨hc, hgap⟩ := List.forall_mem_cons.mp h
    rw [List.cons_append, lexemesFrom, if_pos hc, ih hgap, List.length_cons,
      Nat.add_right_comm, ← Nat.add_assoc]

variable (hblank : ∀ i, ∀ c ∈ gaps i, Text.isBlank c = true)

include hblank

/-- What ends a lexeme still ends it. -/
theorem beginsOutside_spreadFrom {c : Char} (position : Nat)
    (h : BeginsOutside (goesOn c) cs) :
    BeginsOutside (goesOn c) (spreadFrom gaps position cs) := by
  intro d hd
  cases hgap : gaps position with
  | nil =>
    refine h d ?_
    cases cs <;> rw [spreadFrom, hgap] at hd <;> exact hd
  | cons b bs =>
    have hhead : (spreadFrom gaps position cs).head? = some b := by
      cases cs <;> rw [spreadFrom, hgap] <;> rfl
    obtain rfl : b = d := Option.some.inj (hhead.symm.trans hd)
    rw [← Bool.not_eq_true]
    intro hgoes
    have hb := hblank position b (hgap ▸ List.mem_cons_self)
    exact Bool.false_ne_true ((isBlank_eq_false_of_goesOn hgoes).symm.trans hb)

/-- The blanks in front of the first character. -/
theorem lexemesFrom_spreadFrom_cons (position : Nat) (c : Char) (cs : List Char) :
    lexemesFrom (position + inserted gaps position) (spreadFrom gaps position (c :: cs))
      = lexemesFrom (position + inserted gaps (position + 1))
        (c :: spreadFrom gaps (position + 1) cs) := by
  rw [spreadFrom, lexemesFrom_blanks_append (hblank position), inserted_succ, Nat.add_assoc]

/-- **The lexemes of a spread text** are those of the text, where no lexeme is broken
up. -/
theorem lexemesFrom_spreadFrom
    (houtside : ∀ l ∈ lexemesFrom position cs, ∀ i, l.start < i → i < l.stop →
      gaps i = []) :
    lexemesFrom (position + inserted gaps position) (spreadFrom gaps position cs)
      = (lexemesFrom position cs).map (Lexeme.moved gaps) := by
  fun_induction lexemesFrom position cs with
  | case1 position => exact lexemesFrom_eq_nil_iff.mpr (hblank position)
  | case2 position c cs hc ih =>
    rw [lexemesFrom_spreadFrom_cons hblank, lexemesFrom, if_pos hc,
      Nat.add_right_comm, ih houtside]
  | case3 position c cs hc ih =>
    obtain ⟨hfirst, hrest⟩ := List.forall_mem_cons.mp houtside
    have hrun : ∀ i, position + 1 ≤ i →
        i < position + 1 + (cs.takeWhile (goesOn c)).length → gaps i = [] := by
      intro i hi hi'
      refine hfirst i hi ?_
      change i < position + ((cs.takeWhile (goesOn c)).length + 1)
      omega
    obtain ⟨htake, hdrop⟩ := takeWhile_append_of_ends
      (fun _ => List.mem_takeWhile_imp)
      (beginsOutside_spreadFrom hblank (position + 1 + (cs.takeWhile (goesOn c)).length)
        (beginsOutside_dropWhile (goesOn c) cs))
    have hspread := spreadFrom_append hrun (cs.dropWhile (goesOn c))
    rw [List.takeWhile_append_dropWhile] at hspread
    have hposition : position + inserted gaps (position + 1)
          + (cs.takeWhile (goesOn c)).length + 1
        = position + 1 + (cs.takeWhile (goesOn c)).length
          + inserted gaps (position + 1 + (cs.takeWhile (goesOn c)).length) := by
      rw [inserted_add hrun]
      omega
    rw [lexemesFrom_spreadFrom_cons hblank, hspread, lexemesFrom, if_neg hc, htake, hdrop,
      List.map_cons, ← ih hrest, hposition, Nat.add_right_comm position _ 1]
    rfl

end Spreading

/-! ## Reading lexemes by themselves -/

section Reading

variable {text : List Char} {ts : List Token} {l : Lexeme} {t : Token}

/-- **What a lexeme is read as** is told by its first character. -/
theorem Lexeme.read_eq_ok_iff {kind : TokenKind} :
    l.read = .ok kind
      ↔ (isNumberChar l.first = true ∧ numberKind l.start l.chars = .ok kind)
        ∨ (Text.isLetter l.first = true ∧ wordKind l.chars = kind)
        ∨ symbol? l.first = some kind := by
  unfold Lexeme.read
  constructor
  · intro h
    split at h
    · exact .inl ⟨‹_›, h⟩
    · split at h
      · exact .inr (.inl ⟨‹_›, Except.ok.inj h⟩)
      · split at h
        · exact .inr (.inr ((Except.ok.inj h) ▸ ‹_›))
        · cases h
  · rintro (⟨hnumber, hkind⟩ | ⟨hletter, hkind⟩ | hsymbol)
    · rw [if_pos hnumber, hkind]
    · rw [if_neg (Bool.eq_false_iff.mp (isNumberChar_eq_false_of_isLetter hletter)),
        if_pos hletter, hkind]
    · obtain ⟨-, hnumber, hletter⟩ := of_symbol?_eq_some hsymbol
      rw [if_neg (Bool.eq_false_iff.mp hnumber), if_neg (Bool.eq_false_iff.mp hletter),
        hsymbol]

/-- A symbol is neither a number nor a word. -/
theorem kind_ne_of_symbol? {c : Char} {kind : TokenKind} (h : symbol? c = some kind) :
    (∀ value, kind ≠ .number value) ∧ ∀ name, kind ≠ .word name := by
  unfold symbol? at h
  split at h <;> cases h <;> exact ⟨nofun, nofun⟩

/-- A number is read where one begins. -/
theorem Lexeme.isNumberChar_of_read {value : Float} (h : l.read = .ok (.number value)) :
    isNumberChar l.first = true := by
  rcases Lexeme.read_eq_ok_iff.mp h with ⟨hnumber, -⟩ | ⟨-, hkind⟩ | hsymbol
  · exact hnumber
  · cases hkind
  · exact absurd rfl ((kind_ne_of_symbol? hsymbol).1 value)

/-- A word is read where one begins. -/
theorem Lexeme.isLetter_of_read {name : String} (h : l.read = .ok (.word name)) :
    Text.isLetter l.first = true := by
  rcases Lexeme.read_eq_ok_iff.mp h with ⟨-, hkind⟩ | ⟨hletter, -⟩ | hsymbol
  · obtain ⟨value, hvalue, -⟩ := exists_number_of_numberKind hkind
    cases hvalue
  · exact hletter
  · exact absurd rfl ((kind_ne_of_symbol? hsymbol).2 name)

/-- What a lexeme is read as does not depend on where it stands. -/
theorem Lexeme.read_start {kind : TokenKind} (h : l.read = .ok kind) (start : Nat) :
    Lexeme.read { l with start := start } = .ok kind := by
  rw [Lexeme.read_eq_ok_iff] at h ⊢
  refine h.imp_left (And.imp_right fun hkind => ?_)
  obtain ⟨value, rfl, hvalue⟩ := exists_number_of_numberKind hkind
  exact hvalue start

theorem Lexeme.token_moved (gaps : Nat → List Char) (h : l.token = .ok t) :
    (l.moved gaps).token = .ok (t.moved gaps) := by
  obtain ⟨hread, hstart, hstop⟩ := Lexeme.token_eq_ok_iff.mp h
  refine Lexeme.token_eq_ok_iff.mpr ⟨Lexeme.read_start hread _, ?_, ?_⟩
  · rw [Token.moved, Lexeme.moved, hstart]
  · rw [Token.moved, hstart, hstop]
    exact Nat.add_right_comm _ _ _

/-- Tokens stand where their lexemes stand. -/
theorem map_ends_of_tokens (h : tokens text = .ok ts) :
    ts.map Token.ends = (lexemes text).map Lexeme.ends := by
  rw [← List.forall₂_eq_eq_eq, List.forall₂_map_left_iff, List.forall₂_map_right_iff]
  refine (forall₂_of_tokens h).flip.imp fun t l htoken => ?_
  obtain ⟨-, hstart, hstop⟩ := Lexeme.token_eq_ok_iff.mp htoken
  rw [Token.ends, Lexeme.ends, hstart, hstop]

/-- **The tokens of a spread text** are those of the text, each moved by what is put in
up to it. -/
theorem tokens_spread {gaps : Nat → List Char} (h : tokens text = .ok ts)
    (hblank : ∀ i, ∀ c ∈ gaps i, Text.isBlank c = true)
    (houtside : ∀ t ∈ ts, ∀ i, t.start < i → i < t.stop → gaps i = []) :
    tokens (spread gaps text) = .ok (ts.map (Token.moved gaps)) := by
  have hends : ∀ p ∈ ts.map Token.ends, ∀ i, p.1 < i → i < p.2 → gaps i = [] :=
    List.forall_mem_map.mpr houtside
  rw [map_ends_of_tokens h] at hends
  have hlexemes := lexemesFrom_spreadFrom hblank (List.forall_mem_map.mp hends)
  rw [inserted_zero, Nat.zero_add] at hlexemes
  rw [tokens, tokensFrom_eq_mapM, spread, hlexemes]
  refine mapM_eq_ok_of_forall₂ ?_
  rw [List.forall₂_map_left_iff, List.forall₂_map_right_iff]
  exact (forall₂_of_tokens h).imp fun l t => Lexeme.token_moved gaps

/-- Tokens stand one behind the other. -/
theorem pairwise_of_tokens (h : tokens text = .ok ts) :
    ts.Pairwise fun t t' => t.stop ≤ t'.start := by
  have hends : (ts.map Token.ends).Pairwise fun p p' => p.2 ≤ p'.1 := by
    rw [map_ends_of_tokens h]
    exact List.pairwise_map.mpr (pairwise_lexemesFrom 0 text)
  exact List.pairwise_map.mp hends

/-- The characters of tokens are those that are not blank. -/
theorem exists_mem_of_tokens_iff (h : tokens text = .ok ts) (i : Nat) :
    (∃ t ∈ ts, t.start ≤ i ∧ i < t.stop)
      ↔ ∃ c ∈ text[i]?, Text.isBlank c = false := by
  have hends : (∃ p ∈ ts.map Token.ends, p.1 ≤ i ∧ i < p.2)
      ↔ ∃ p ∈ (lexemes text).map Lexeme.ends, p.1 ≤ i ∧ i < p.2 := by
    rw [map_ends_of_tokens h]
  have hlexemes := exists_mem_lexemesFrom_iff 0 text i
  rw [Nat.zero_add] at hlexemes
  simp only [List.mem_map, exists_exists_and_eq_and] at hends
  exact hends.trans hlexemes

end Reading

/-! ## What a token is read from -/

/-- What a token was read from. -/
def Token.written (t : Token) (text : List Char) : List Char :=
  text.extract t.start t.stop

namespace Lexeme.StandsIn

variable {text before after : List Char} {l : Lexeme} {t : Token}
  (h : l.StandsIn 0 text before after)

include h

/-- The text from the beginning of a lexeme to a place at its end or behind it. -/
theorem extract_eq (n : Nat) :
    text.extract l.start (l.stop + n) = l.chars ++ after.take n := by
  rw [List.extract, Lexeme.stop, Nat.add_assoc, Nat.add_sub_cancel_left, h.start,
    Nat.zero_add, h.split, List.append_assoc, List.drop_left,
    List.take_length_add_append]

theorem written_eq (ht : l.token = .ok t) : t.written text = l.chars := by
  obtain ⟨-, hstart, hstop⟩ := Lexeme.token_eq_ok_iff.mp ht
  have hwritten := h.extract_eq 0
  rwa [Nat.add_zero, List.take_zero, List.append_nil, ← hstart, ← hstop] at hwritten

theorem drop_stop (ht : l.token = .ok t) : text.drop t.stop = after := by
  obtain ⟨-, -, hstop⟩ := Lexeme.token_eq_ok_iff.mp ht
  rw [hstop, h.split, Lexeme.stop, h.start, Nat.zero_add, ← List.length_append,
    List.drop_left]

/-- **A lexeme is read first** wherever nothing behind it goes on with it. -/
theorem tokens_append {kind : TokenKind} {rest : List Char} (hread : l.read = .ok kind)
    (hends : BeginsOutside (Stepwise.goesOn l.first) rest) :
    tokens (l.chars ++ rest) = do
      return ⟨kind, 0, l.chars.length⟩ :: (← tokensFrom l.chars.length rest) := by
  obtain ⟨htake, hdrop⟩ := takeWhile_append_of_ends h.goesOn hends
  have htoken : Lexeme.token { l with start := 0 } = .ok ⟨kind, 0, l.chars.length⟩ :=
    Lexeme.token_eq_ok_iff.mpr ⟨Lexeme.read_start hread 0, rfl, (Nat.zero_add _).symm⟩
  rw [tokens, tokensFrom_eq_mapM, tokensFrom_eq_mapM, Lexeme.chars, List.cons_append,
    lexemesFrom, if_neg (Bool.eq_false_iff.mp h.notBlank), htake, hdrop, List.mapM_cons,
    htoken, Nat.zero_add]
  rfl

/-- A number reaches as far as it can. -/
theorem isNumeral (hnumber : isNumberChar l.first = true) :
    IsNumeral l.chars ∧ BeginsOutside isNumberChar after := by
  rw [← goesOn_of_isNumberChar hnumber]
  refine ⟨⟨List.cons_ne_nil _ _, List.forall_mem_cons.mpr ⟨hnumber, ?_⟩⟩, h.ends⟩
  rw [← goesOn_of_isNumberChar hnumber]
  exact h.goesOn

/-- A word reaches as far as it can. -/
theorem isIdentifier (hletter : Text.isLetter l.first = true) :
    IsIdentifier l.chars ∧ BeginsOutside Text.isWordChar after := by
  rw [← goesOn_of_isLetter hletter]
  refine ⟨⟨⟨l.first, l.others, rfl, hletter⟩,
    List.forall_mem_cons.mpr ⟨Text.isWordChar_of_isLetter hletter, ?_⟩⟩, h.ends⟩
  rw [← goesOn_of_isLetter hletter]
  exact h.goesOn

end Lexeme.StandsIn

theorem BeginsOutside.take {p : Char → Bool} {cs : List Char} (h : BeginsOutside p cs)
    (n : Nat) : BeginsOutside p (cs.take n) := by
  cases n with
  | zero => nofun
  | succ n => cases cs <;> exact h

/-! ## Partitions -/

/-- **What tokens make of their text.** -/
structure IsPartition (text : List Char) (ts : List Token) : Prop where
  nonempty : ∀ t ∈ ts, t.start < t.stop
  increasing : ts.Pairwise fun t t' => t.start < t'.start
  disjoint : ts.Pairwise fun t t' =>
    Disjoint (Set.Ico t.start t.stop) (Set.Ico t'.start t'.stop)
  /-- Together the tokens have all characters but the blanks. -/
  covers : ∀ i, (∃ t ∈ ts, i ∈ Set.Ico t.start t.stop)
    ↔ ∃ c ∈ text[i]?, Text.isBlank c = false
  /-- A token is what its own characters are read as. -/
  alone : ∀ t ∈ ts, tokens (t.written text) = .ok [⟨t.kind, 0, t.stop - t.start⟩]
  /-- No longer stretch of the text is one token. -/
  longest : ∀ t ∈ ts, ∀ stop, t.stop < stop → ∀ kind,
    tokens (text.extract t.start stop) ≠ .ok [⟨kind, 0, stop - t.start⟩]
  /-- A number does not end before its digits and points do. -/
  number : ∀ t ∈ ts, ∀ value, t.kind = .number value →
    IsNumeral (t.written text) ∧ BeginsOutside isNumberChar (text.drop t.stop)
  /-- A word does not end before its letters and numerals do. -/
  word : ∀ t ∈ ts, ∀ name, t.kind = .word name →
    IsIdentifier (t.written text) ∧ BeginsOutside Text.isWordChar (text.drop t.stop)
  /-- Blanks put between tokens are not noticed. -/
  spread : ∀ gaps : Nat → List Char, (∀ i, ∀ c ∈ gaps i, Text.isBlank c = true) →
    (∀ t ∈ ts, ∀ i, t.start < i → i < t.stop → gaps i = []) →
    ∃ ts', tokens (spread gaps text) = .ok ts' ∧ kinds ts' = kinds ts

section Tokens

variable {text : List Char} {ts : List Token} {t : Token}

/-- **The lexeme of a token** and where it stands. -/
theorem exists_standsIn_of_tokens (h : tokens text = .ok ts) (ht : t ∈ ts) :
    ∃ l : Lexeme, ∃ before after, l.StandsIn 0 text before after ∧ l.token = .ok t := by
  obtain ⟨l, hl, htoken⟩ := exists_lexeme_of_mem h ht
  obtain ⟨before, after, hstands⟩ := exists_standsIn_of_mem hl
  exact ⟨l, before, after, hstands, htoken⟩

theorem start_lt_stop_of_tokens (h : tokens text = .ok ts) (ht : t ∈ ts) :
    t.start < t.stop := by
  obtain ⟨l, -, htoken⟩ := exists_lexeme_of_mem h ht
  obtain ⟨-, hstart, hstop⟩ := Lexeme.token_eq_ok_iff.mp htoken
  rw [hstart, hstop]
  exact l.start_lt_stop

/-- A token is what its own characters are read as. -/
theorem tokens_written (h : tokens text = .ok ts) (ht : t ∈ ts) :
    tokens (t.written text) = .ok [⟨t.kind, 0, t.stop - t.start⟩] := by
  obtain ⟨l, before, after, hl, htoken⟩ := exists_standsIn_of_tokens h ht
  obtain ⟨hread, hstart, hstop⟩ := Lexeme.token_eq_ok_iff.mp htoken
  have halone : tokens (l.chars ++ []) = _ := hl.tokens_append hread nofun
  rw [tokensFrom, List.append_nil] at halone
  rw [hl.written_eq htoken, halone, hstart, hstop, Lexeme.stop, Nat.add_sub_cancel_left]
  rfl

/-- No longer stretch of a text is one token. -/
theorem tokens_extract_ne (h : tokens text = .ok ts) (ht : t ∈ ts) {stop : Nat}
    (hlonger : t.stop < stop) (kind : TokenKind) :
    tokens (text.extract t.start stop) ≠ .ok [⟨kind, 0, stop - t.start⟩] := by
  obtain ⟨l, before, after, hl, htoken⟩ := exists_standsIn_of_tokens h ht
  obtain ⟨hread, hstart, hstop⟩ := Lexeme.token_eq_ok_iff.mp htoken
  obtain ⟨n, rfl⟩ := Nat.exists_eq_add_of_lt hlonger
  rw [hstart, hstop, Nat.add_assoc, hl.extract_eq (n + 1),
    hl.tokens_append hread (hl.ends.take (n + 1))]
  intro hone
  obtain ⟨others, -, hone⟩ := exists_of_bind_eq_ok hone
  have hstops := congrArg Token.stop (List.cons.inj (Except.ok.inj hone)).1
  change l.chars.length = l.start + l.chars.length + (n + 1) - l.start at hstops
  omega

/-- **The tokens partition their text.** -/
theorem isPartition_of_tokens (h : tokens text = .ok ts) : IsPartition text ts where
  nonempty t ht := start_lt_stop_of_tokens h ht
  increasing := (pairwise_of_tokens h).imp_of_mem fun ht _ hle =>
    Nat.lt_of_lt_of_le (start_lt_stop_of_tokens h ht) hle
  disjoint := (pairwise_of_tokens h).imp fun hle =>
    Set.Ico_disjoint_Ico.mpr ((min_le_left _ _).trans (hle.trans (le_max_right _ _)))
  covers := exists_mem_of_tokens_iff h
  alone t ht := tokens_written h ht
  longest t ht stop := tokens_extract_ne h ht
  number t ht value hkind := by
    obtain ⟨l, before, after, hl, htoken⟩ := exists_standsIn_of_tokens h ht
    obtain ⟨hread, -, -⟩ := Lexeme.token_eq_ok_iff.mp htoken
    rw [hl.written_eq htoken, hl.drop_stop htoken]
    exact hl.isNumeral (Lexeme.isNumberChar_of_read (hkind ▸ hread))
  word t ht name hkind := by
    obtain ⟨l, before, after, hl, htoken⟩ := exists_standsIn_of_tokens h ht
    obtain ⟨hread, -, -⟩ := Lexeme.token_eq_ok_iff.mp htoken
    rw [hl.written_eq htoken, hl.drop_stop htoken]
    exact hl.isIdentifier (Lexeme.isLetter_of_read (hkind ▸ hread))
  spread gaps hblank houtside := by
    refine ⟨_, tokens_spread h hblank houtside, ?_⟩
    rw [kinds, kinds, List.map_map]
    rfl

/-- A number next to a word, with a blank put between them and one behind the sign. -/
theorem isPartition_twelve_x :
    ∃ ts, tokens ['1', '2', 'x', ' ', '+', 'x'] = .ok ts
      ∧ IsPartition ['1', '2', 'x', ' ', '+', 'x'] ts
      ∧ kinds ts = [.number (nearestDouble 12), .word "x", .plus, .word "x"]
      ∧ ∃ ts', tokens ['1', '2', ' ', 'x', ' ', '+', ' ', 'x'] = .ok ts'
        ∧ kinds ts' = kinds ts := by
  have hvalue : Fraction.parseMagnitude (['1', '2'].map Fraction.pointOfComma) = .ok 12 := by
    decide +kernel
  have hnumber : numberKind 0 ['1', '2'] = .ok (.number (nearestDouble 12)) := by
    rw [numberKind, hvalue]
  have hnumeral : IsNumeral ['1', '2'] := isNumeral_takeWhile (by decide) ['2']
  have hx : IsIdentifier ['x'] := isIdentifier_takeWhile (by decide) []
  have htokens : tokens ['1', '2', 'x', ' ', '+', 'x']
      = .ok [⟨.number (nearestDouble 12), 0, 2⟩, ⟨.word "x", 2, 3⟩, ⟨.plus, 4, 5⟩,
        ⟨.word "x", 5, 6⟩] := by
    refine tokensFrom_eq_ok_iff.mpr ?_
    refine @Lexes.number 0 ['1', '2'] ['x', ' ', '+', 'x'] _ _ hnumeral ?_ hnumber ?_
    · rintro c ⟨⟩
      decide
    · refine .word hx ?_ (.blank (by decide) (.symbol rfl (.word hx nofun (.nil _))))
      rintro c ⟨⟩
      decide
  have hpartition := isPartition_of_tokens htokens
  refine ⟨_, htokens, hpartition, rfl, ?_⟩
  refine hpartition.spread (fun i => if i = 2 ∨ i = 5 then [' '] else []) ?blank ?outside
  case blank =>
    intro i c hc
    split at hc
    · rw [List.mem_singleton.mp hc]
      decide
    · cases hc
  case outside =>
    intro t ht i hstart hstop
    refine if_neg ?_
    simp only [List.mem_cons, List.not_mem_nil, or_false] at ht
    rcases ht with rfl | rfl | rfl | rfl <;> dsimp only at hstart hstop <;> omega

end Tokens

end Stepwise
