import Mathlib.Algebra.Order.Field.Rat
import Mathlib.Data.List.Basic
import Mathlib.Data.List.TakeWhile
import Mathlib.Tactic.Ring
import Stepwise.Proofs.Number.Fraction

/-!
# What passes for an exact number

The grammar of exact numbers is told without their reader: a decimal is digits
with at most one decimal mark among them, and a sign in front if one is wanted
(`Fraction.IsDecimal`); a numeral is a decimal, or two around a slash of which
the second is not zero, blanks around each of them aside (`Fraction.IsNumeral`).
Its value is told place by place.

The reader accepts the numerals and nothing else, with the value that the
grammar gives (`Fraction.read_numerals`). Each function of the reader has its own
part of the grammar, so the proof is one lemma for each of them. The reader hands
the text as it was given to all of them, and an error names it, whichever part of
the text is at fault (`Fraction.parseChars_eq_mapError`).
-/

namespace Stepwise

/-! ## Blanks around a text -/

namespace Text

/-- Blanks only. -/
def IsBlanks (cs : List Char) : Prop :=
  ∀ c ∈ cs, isBlank c = true

/-- The text `body` with blanks around it. -/
def Padded (body cs : List Char) : Prop :=
  ∃ left right, IsBlanks left ∧ IsBlanks right ∧ cs = left ++ body ++ right

/-- No blank at either end. -/
structure IsTight (body : List Char) : Prop where
  first : ∀ c ∈ body.head?, isBlank c = false
  last : ∀ c ∈ body.getLast?, isBlank c = false

theorem IsTight.of_notBlank {body : List Char}
    (h : ∀ c ∈ body, isBlank c = false) : IsTight body :=
  ⟨fun c hc => h c (List.mem_of_mem_head? hc),
    fun c hc => h c (List.mem_of_mem_getLast? hc)⟩

theorem dropWhile_isBlank_eq_self {cs : List Char}
    (h : ∀ c ∈ cs.head?, isBlank c = false) : cs.dropWhile isBlank = cs := by
  cases cs with
  | nil => rfl
  | cons c cs => exact List.dropWhile_cons_of_neg (by rw [h c rfl]; nofun)

/-- **Trimming takes blanks away** from both ends. -/
theorem padded_trim (cs : List Char) : Padded (trim cs) cs := by
  refine ⟨cs.takeWhile isBlank,
    ((cs.dropWhile isBlank).reverse.takeWhile isBlank).reverse,
    fun c hc => List.mem_takeWhile_imp hc,
    fun c hc => List.mem_takeWhile_imp (List.mem_reverse.mp hc), ?_⟩
  unfold trim
  rw [List.append_assoc, ← List.reverse_append,
    List.takeWhile_append_dropWhile, List.reverse_reverse,
    List.takeWhile_append_dropWhile]

/-- **Trimming takes no more than the blanks.** -/
theorem Padded.trim_eq {body cs : List Char} (h : Padded body cs)
    (hne : body ≠ []) (htight : IsTight body) : trim cs = body := by
  obtain ⟨left, right, hleft, hright, rfl⟩ := h
  have hfront : (left ++ body ++ right).dropWhile isBlank = body ++ right := by
    rw [List.append_assoc, List.dropWhile_append_of_pos hleft]
    refine dropWhile_isBlank_eq_self ?_
    rw [List.head?_append_of_ne_nil _ hne]
    exact htight.first
  have hback : (body ++ right).reverse.dropWhile isBlank = body.reverse := by
    rw [List.reverse_append, List.dropWhile_append_of_pos fun c hc =>
      hright c (List.mem_reverse.mp hc)]
    refine dropWhile_isBlank_eq_self ?_
    rw [List.head?_reverse]
    exact htight.last
  unfold trim
  rw [hfront, hback, List.reverse_reverse]

end Text

namespace Fraction

open Text (IsBlanks Padded IsTight)

/-! ## The grammar -/

/-- Decimal digits only. -/
def IsDigits (cs : List Char) : Prop :=
  ∀ c ∈ cs, c.isDigit = true

/-- The number that a digit stands for. -/
def digitValue (c : Char) : Nat :=
  c.toNat - '0'.toNat

/-- The value of digits before the decimal mark: a digit with `n` digits after
it counts `10 ^ n` times. -/
def wholeValue : List Char → Rat
  | [] => 0
  | c :: cs => digitValue c * 10 ^ cs.length + wholeValue cs

/-- The value of digits after the decimal mark: the first one counts tenths, and
what follows it a tenth of what it would count alone. -/
def fractionValue : List Char → Rat
  | [] => 0
  | c :: cs => (digitValue c + fractionValue cs) / 10

/-- **Digits with at most one decimal mark**, a point or a comma, and at least one
digit in all. -/
inductive IsMagnitude : List Char → Rat → Prop where
  | whole {digits : List Char} (isDigits : IsDigits digits)
      (some : digits ≠ []) : IsMagnitude digits (wholeValue digits)
  | marked {whole fraction : List Char} {mark : Char}
      (isMark : mark = '.' ∨ mark = ',') (isWhole : IsDigits whole)
      (isFraction : IsDigits fraction) (some : whole ++ fraction ≠ []) :
      IsMagnitude (whole ++ mark :: fraction)
        (wholeValue whole + fractionValue fraction)

/-- **A decimal**: a magnitude, with or without a sign. -/
inductive IsDecimal : List Char → Rat → Prop where
  | bare {cs : List Char} {value : Rat} (h : IsMagnitude cs value) :
      IsDecimal cs value
  | plus {cs : List Char} {value : Rat} (h : IsMagnitude cs value) :
      IsDecimal ('+' :: cs) value
  | minus {cs : List Char} {value : Rat} (h : IsMagnitude cs value) :
      IsDecimal ('-' :: cs) (-value)

/-- **The text of an exact number**: a decimal, or two around a slash of which the
second is not zero. Blanks may stand around each of them. -/
inductive IsNumeral : List Char → Rat → Prop where
  | decimal {body cs : List Char} {value : Rat} (h : IsDecimal body value)
      (padded : Padded body cs) : IsNumeral cs value
  | quotient {body above body' below : List Char} {x y : Rat}
      (hx : IsDecimal body x) (paddedAbove : Padded body above)
      (hy : IsDecimal body' y) (paddedBelow : Padded body' below)
      (ne : y ≠ 0) : IsNumeral (above ++ '/' :: below) (x / y)

/-! ## The value of digits -/

theorem natCast_ofDigitChars (cs : List Char) :
    (Nat.ofDigitChars 10 cs 0 : Rat) = wholeValue cs := by
  induction cs with
  | nil => rfl
  | cons c cs ih =>
    rw [Nat.ofDigitChars_cons, Nat.ofDigitChars_eq_ofDigitChars_zero, wholeValue,
      ← ih, Nat.mul_zero, Nat.zero_add]
    push_cast
    rw [mul_comm]
    rfl

theorem wholeValue_append (whole fraction : List Char) :
    wholeValue (whole ++ fraction)
      = wholeValue whole * 10 ^ fraction.length + wholeValue fraction := by
  induction whole with
  | nil => simp [wholeValue]
  | cons c whole ih =>
    rw [List.cons_append, wholeValue, wholeValue, ih, List.length_append,
      pow_add]
    ring

theorem wholeValue_eq_fractionValue_mul (cs : List Char) :
    wholeValue cs = fractionValue cs * 10 ^ cs.length := by
  induction cs with
  | nil => simp [wholeValue, fractionValue]
  | cons c cs ih =>
    rw [wholeValue, fractionValue, ih, List.length_cons, pow_succ]
    ring

/-- **The reader works with the exact value** of its digits. -/
theorem mkRat_ofDigitChars (whole fraction : List Char) :
    mkRat (Nat.ofDigitChars 10 (whole ++ fraction) 0)
        (Nat.pow 10 fraction.length)
      = wholeValue whole + fractionValue fraction := by
  have hpow : ((10 : Rat) ^ fraction.length) ≠ 0 :=
    pow_ne_zero _ (by norm_num)
  have hcast : ((Nat.pow 10 fraction.length : Nat) : Rat)
      = 10 ^ fraction.length := Nat.cast_pow 10 fraction.length
  rw [Rat.mkRat_eq_div, Int.cast_natCast, natCast_ofDigitChars,
    wholeValue_append, wholeValue_eq_fractionValue_mul fraction, hcast,
    ← add_mul, mul_div_cancel_right₀ _ hpow]

/-! ## Magnitudes -/

/-- A text is split at the first mark only. -/
theorem of_splitAtFirst?_eq_some {mark : Char} {cs left right : List Char}
    (h : splitAtFirst? mark cs = some (left, right)) :
    mark ∉ left ∧ cs = left ++ mark :: right := by
  induction cs generalizing left right with
  | nil => cases h
  | cons c cs ih =>
    rw [splitAtFirst?] at h
    split at h
    · next heq =>
      cases h
      exact ⟨List.not_mem_nil, heq ▸ rfl⟩
    · next hne =>
      obtain ⟨⟨left', right'⟩, hsplit, hpair⟩ := Option.map_eq_some_iff.mp h
      obtain ⟨hnot, rfl⟩ := ih hsplit
      cases hpair
      exact ⟨List.not_mem_cons_of_ne_of_not_mem (Ne.symm hne) hnot, rfl⟩

theorem notMem_of_isDigits {cs : List Char} (h : IsDigits cs) {c : Char}
    (hc : c.isDigit = false) : c ∉ cs := fun hmem =>
  absurd (h c hmem) (by rw [hc]; exact Bool.false_ne_true)

/-- **What stands on both sides of the point** must be digits, and there must be
some. -/
theorem parseMagnitude_eq_ok_iff_of_split {cs whole fraction : List Char}
    (h : (splitAtFirst? '.' cs).getD (cs, []) = (whole, fraction))
    {value : Rat} :
    parseMagnitude cs = .ok value
      ↔ whole ++ fraction ≠ [] ∧ IsDigits whole ∧ IsDigits fraction
        ∧ wholeValue whole + fractionValue fraction = value := by
  unfold parseMagnitude
  rw [h]
  dsimp only
  rw [mkRat_ofDigitChars]
  have hempty : (whole.isEmpty && fraction.isEmpty) = true
      ↔ whole ++ fraction = [] := by
    rw [Bool.and_eq_true, List.isEmpty_iff, List.isEmpty_iff,
      List.append_eq_nil_iff]
  split
  · next h => exact ⟨nofun, fun hok => absurd (hempty.mp h) hok.1⟩
  · next h =>
    have hsome : whole ++ fraction ≠ [] := mt hempty.mpr h
    split
    · next hbad =>
      rw [Bool.not_eq_true', Bool.and_eq_false_iff] at hbad
      refine ⟨nofun, fun ⟨_, hwhole, hfraction, _⟩ => ?_⟩
      rw [List.all_eq_true.mpr hwhole, List.all_eq_true.mpr hfraction] at hbad
      rcases hbad with hbad | hbad <;> cases hbad
    · next hgood =>
      rw [Bool.not_eq_true', Bool.not_eq_false, Bool.and_eq_true,
        List.all_eq_true, List.all_eq_true] at hgood
      rw [Except.ok.injEq]
      exact ⟨fun heq => ⟨hsome, hgood.1, hgood.2, heq⟩, fun hok => hok.2.2.2⟩

/-- A text without commas is not touched when commas are read as points. -/
theorem map_pointOfComma_eq_self {cs : List Char} (h : ',' ∉ cs) :
    cs.map pointOfComma = cs := by
  refine (List.map_congr_left fun c hc => if_neg ?_).trans (List.map_id _)
  rintro rfl
  exact h hc

theorem eq_of_map_pointOfComma {cs digits : List Char} (h : IsDigits digits)
    (heq : cs.map pointOfComma = digits) : cs = digits := by
  have hcomma : ',' ∉ cs := fun hmem =>
    notMem_of_isDigits h (c := '.') rfl (heq ▸ List.mem_map.mpr ⟨',', hmem, rfl⟩)
  rw [← heq, map_pointOfComma_eq_self hcomma]

theorem pointOfComma_eq_point_iff {c : Char} :
    pointOfComma c = '.' ↔ c = '.' ∨ c = ',' := by
  unfold pointOfComma
  split
  · next h => exact ⟨fun _ => .inr h, fun _ => rfl⟩
  · next h => exact ⟨.inl, fun hc => hc.resolve_right h⟩

/-- **Magnitudes are read**, and nothing else is. -/
theorem parseMagnitude_eq_ok_iff {cs : List Char} {value : Rat} :
    parseMagnitude (cs.map pointOfComma) = .ok value
      ↔ IsMagnitude cs value := by
  constructor
  · intro h
    cases hsplit : splitAtFirst? '.' (cs.map pointOfComma) with
    | none =>
      have hwhole : (splitAtFirst? '.' (cs.map pointOfComma)).getD
          (cs.map pointOfComma, []) = (cs.map pointOfComma, []) := by
        rw [hsplit, Option.getD_none]
      obtain ⟨hsome, hdigits, -, rfl⟩ :=
        (parseMagnitude_eq_ok_iff_of_split hwhole).mp h
      have heq : cs = cs.map pointOfComma := eq_of_map_pointOfComma hdigits rfl
      rw [List.append_nil, ← heq] at hsome
      rw [← heq] at hdigits ⊢
      rw [fractionValue, add_zero]
      exact .whole hdigits hsome
    | some parts =>
      obtain ⟨whole, fraction⟩ := parts
      obtain ⟨hsome, hwhole, hfraction, rfl⟩ :=
        (parseMagnitude_eq_ok_iff_of_split
          (congrArg (Option.getD · (cs.map pointOfComma, [])) hsplit)).mp h
      obtain ⟨-, heq⟩ := of_splitAtFirst?_eq_some hsplit
      obtain ⟨left, rest, rfl, hleft, hrest⟩ := List.map_eq_append_iff.mp heq
      obtain ⟨mark, right, rfl, hmark, hright⟩ := List.map_eq_cons_iff.mp hrest
      obtain rfl := eq_of_map_pointOfComma hwhole hleft
      obtain rfl := eq_of_map_pointOfComma hfraction hright
      exact .marked (pointOfComma_eq_point_iff.mp hmark) hwhole hfraction hsome
  · intro h
    cases h with
    | whole isDigits some =>
      rw [map_pointOfComma_eq_self
        (notMem_of_isDigits isDigits rfl)]
      have hsplit := splitAtFirst?_of_notMem
        (notMem_of_isDigits isDigits (c := '.') rfl)
      refine (parseMagnitude_eq_ok_iff_of_split
        (congrArg (Option.getD · (cs, [])) hsplit)).mpr ?_
      exact ⟨by rwa [List.append_nil], isDigits, nofun, add_zero _⟩
    | @marked whole fraction mark isMark isWhole isFraction some =>
      rw [List.map_append, List.map_cons, pointOfComma_eq_point_iff.mpr isMark,
        map_pointOfComma_eq_self (notMem_of_isDigits isWhole rfl),
        map_pointOfComma_eq_self (notMem_of_isDigits isFraction rfl)]
      have hsplit := splitAtFirst?_append
        (notMem_of_isDigits isWhole (c := '.') rfl) fraction
      refine (parseMagnitude_eq_ok_iff_of_split
        (congrArg (Option.getD · (whole ++ '.' :: fraction, [])) hsplit)).mpr ?_
      exact ⟨some, isWhole, isFraction, rfl⟩

/-! ## Decimals -/

/-- No other character occurs in a magnitude. -/
theorem IsMagnitude.notMem {cs : List Char} {value : Rat}
    (h : IsMagnitude cs value) {c : Char}
    (hc : c.isDigit = false ∧ c ≠ '.' ∧ c ≠ ',') : c ∉ cs := by
  cases h with
  | whole isDigits some => exact notMem_of_isDigits isDigits hc.1
  | marked isMark isWhole isFraction some =>
    rw [List.mem_append, List.mem_cons]
    rintro (hmem | rfl | hmem)
    · exact notMem_of_isDigits isWhole hc.1 hmem
    · exact isMark.elim hc.2.1 hc.2.2
    · exact notMem_of_isDigits isFraction hc.1 hmem

/-- A text that does not begin with a sign is a magnitude as it stands. -/
theorem splitSign_of_unsigned {cs : List Char} (hminus : '-' ∉ cs.head?)
    (hplus : '+' ∉ cs.head?) :
    splitSign (cs.map pointOfComma) = (false, cs.map pointOfComma) := by
  have hkept : ∀ {sign : Char}, sign ≠ '.' → sign ≠ ',' → sign ∉ cs.head? →
      sign ∉ (cs.map pointOfComma).head? := by
    intro sign hpoint hcomma hsign hmem
    rw [List.head?_map] at hmem
    obtain ⟨c, hc, hread⟩ := Option.map_eq_some_iff.mp hmem
    unfold pointOfComma at hread
    split at hread
    · exact hpoint hread.symm
    · exact hsign (hread ▸ hc)
  have hminus' := hkept (by decide) (by decide) hminus
  have hplus' := hkept (by decide) (by decide) hplus
  unfold splitSign
  split
  · next heq => exact absurd (heq ▸ rfl) hminus'
  · next heq => exact absurd (heq ▸ rfl) hplus'
  · rfl

/-- Behind the sign a magnitude is read, whatever text it is a part of. -/
theorem parseDecimal_eq_ok_iff_of_splitSign {original : String}
    {cs body : List Char} {negative : Bool} {value : Rat}
    (h : splitSign (cs.map pointOfComma) = (negative, body)) :
    parseDecimal original cs = .ok value
      ↔ ∃ magnitude, parseMagnitude body = .ok magnitude
        ∧ (if negative then -magnitude else magnitude) = value := by
  unfold parseDecimal
  rw [h]
  dsimp only
  cases parseMagnitude body with
  | error fault => exact ⟨nofun, fun ⟨_, hread, _⟩ => nomatch hread⟩
  | ok magnitude =>
    constructor
    · exact fun hok => ⟨magnitude, rfl, Except.ok.inj hok⟩
    · rintro ⟨_, hread, rfl⟩
      rw [Except.ok.inj hread]

/-- **Decimals are read**, and nothing else is. -/
theorem parseDecimal_eq_ok_iff {original : String} {cs : List Char}
    {value : Rat} :
    parseDecimal original cs = .ok value ↔ IsDecimal cs value := by
  constructor
  · intro h
    by_cases hminus : '-' ∈ cs.head?
    · obtain ⟨cs, rfl⟩ := List.head?_eq_some_iff.mp hminus
      obtain ⟨magnitude, hread, rfl⟩ :=
        (parseDecimal_eq_ok_iff_of_splitSign rfl).mp h
      exact .minus (parseMagnitude_eq_ok_iff.mp hread)
    by_cases hplus : '+' ∈ cs.head?
    · obtain ⟨cs, rfl⟩ := List.head?_eq_some_iff.mp hplus
      obtain ⟨magnitude, hread, rfl⟩ :=
        (parseDecimal_eq_ok_iff_of_splitSign rfl).mp h
      exact .plus (parseMagnitude_eq_ok_iff.mp hread)
    obtain ⟨magnitude, hread, rfl⟩ := (parseDecimal_eq_ok_iff_of_splitSign
      (splitSign_of_unsigned hminus hplus)).mp h
    exact .bare (parseMagnitude_eq_ok_iff.mp hread)
  · intro h
    cases h with
    | bare h =>
      have hsign : ∀ {sign : Char}, sign.isDigit = false ∧ sign ≠ '.'
          ∧ sign ≠ ',' → sign ∉ cs.head? :=
        fun hsign hmem => h.notMem hsign (List.mem_of_mem_head? hmem)
      have hsplit := splitSign_of_unsigned (hsign (by decide)) (hsign (by decide))
      exact (parseDecimal_eq_ok_iff_of_splitSign hsplit).mpr
        ⟨_, parseMagnitude_eq_ok_iff.mpr h, rfl⟩
    | plus h =>
      exact (parseDecimal_eq_ok_iff_of_splitSign rfl).mpr
        ⟨_, parseMagnitude_eq_ok_iff.mpr h, rfl⟩
    | minus h =>
      exact (parseDecimal_eq_ok_iff_of_splitSign rfl).mpr
        ⟨_, parseMagnitude_eq_ok_iff.mpr h, rfl⟩

/-- No other character occurs in a decimal. -/
theorem IsDecimal.notMem {cs : List Char} {value : Rat} (h : IsDecimal cs value)
    {c : Char} (hc : c.isDigit = false ∧ c ≠ '.' ∧ c ≠ ',')
    (hsign : c ≠ '+' ∧ c ≠ '-') : c ∉ cs := by
  cases h with
  | bare h => exact h.notMem hc
  | plus h =>
    exact List.not_mem_cons_of_ne_of_not_mem hsign.1 (h.notMem hc)
  | minus h =>
    exact List.not_mem_cons_of_ne_of_not_mem hsign.2 (h.notMem hc)

theorem IsDecimal.isBlank_eq_false {cs : List Char} {value : Rat}
    (h : IsDecimal cs value) {c : Char} (hc : c ∈ cs) :
    Text.isBlank c = false := by
  by_contra hblank
  rw [Bool.not_eq_false] at hblank
  have hother : ∀ {d : Char}, Text.isBlank d = false → c ≠ d := by
    rintro d hd rfl
    rw [hd] at hblank
    cases hblank
  have hdigit : c.isDigit = false :=
    Bool.eq_false_iff.mpr fun hdigit => hother (Text.isBlank_of_isDigit hdigit) rfl
  exact h.notMem ⟨hdigit, hother rfl, hother rfl⟩ ⟨hother rfl, hother rfl⟩ hc

theorem IsDecimal.ne_nil {cs : List Char} {value : Rat}
    (h : IsDecimal cs value) : cs ≠ [] := by
  cases h with
  | bare h =>
    cases h with
    | whole isDigits some => exact some
    | marked => exact List.append_ne_nil_of_right_ne_nil _ (List.cons_ne_nil _ _)
  | plus => exact List.cons_ne_nil _ _
  | minus => exact List.cons_ne_nil _ _

theorem IsDecimal.trim_eq {body cs : List Char} {value : Rat}
    (h : IsDecimal body value) (padded : Padded body cs) : Text.trim cs = body :=
  padded.trim_eq h.ne_nil (.of_notBlank fun _ hc => h.isBlank_eq_false hc)

/-! ## Numerals -/

/-- A text without slash is read as a decimal. -/
theorem parseChars_of_bare {original : String} {cs : List Char}
    (hne : Text.trim cs ≠ []) (h : splitAtFirst? '/' (Text.trim cs) = none) :
    parseChars original cs = parseDecimal original (Text.trim cs) := by
  unfold parseChars
  simp only [List.isEmpty_iff, hne, if_false, h]

/-- **What stands on both sides of the slash** must be decimals, the second one
not zero and without another slash. -/
theorem parseChars_eq_ok_iff_of_slash {original : String}
    {cs above below : List Char}
    (h : splitAtFirst? '/' (Text.trim cs) = some (above, below))
    {value : Rat} :
    parseChars original cs = .ok value
      ↔ '/' ∉ below ∧ ∃ x y, parseDecimal original (Text.trim above) = .ok x
        ∧ parseDecimal original (Text.trim below) = .ok y ∧ y ≠ 0
        ∧ x / y = value := by
  have hne : Text.trim cs ≠ [] := by
    rw [(of_splitAtFirst?_eq_some h).2]
    exact List.append_ne_nil_of_right_ne_nil _ (List.cons_ne_nil _ _)
  unfold parseChars
  simp only [List.isEmpty_iff, hne, if_false, h, List.contains_eq_mem,
    decide_eq_true_eq]
  by_cases hslash : '/' ∈ below
  · rw [if_pos hslash]
    exact ⟨nofun, fun hok => absurd hslash hok.1⟩
  rw [if_neg hslash]
  cases hx : parseDecimal original (Text.trim above) with
  | error fault => exact ⟨nofun, fun ⟨_, x, y, hx', _⟩ => nomatch hx'⟩
  | ok x =>
    cases hy : parseDecimal original (Text.trim below) with
    | error fault => exact ⟨nofun, fun ⟨_, x, y, _, hy', _⟩ => nomatch hy'⟩
    | ok y =>
      show (if y = 0 then _ else _) = _ ↔ _
      by_cases hzero : y = 0
      · rw [if_pos hzero]
        refine ⟨nofun, fun ⟨_, x', y', _, hy', hne, _⟩ => ?_⟩
        exact absurd (Except.ok.inj hy' ▸ hzero) hne
      · rw [if_neg hzero]
        constructor
        · intro hok
          exact ⟨hslash, x, y, rfl, rfl, hzero, Except.ok.inj hok⟩
        · rintro ⟨_, x', y', hx', hy', _, rfl⟩
          rw [Except.ok.inj hx', Except.ok.inj hy']
          rfl

/-- A text that is two decimals around a slash, blanks aside. -/
theorem isNumeral_of_split {cs above below : List Char} {x y : Rat}
    (h : splitAtFirst? '/' (Text.trim cs) = some (above, below))
    (hx : IsDecimal (Text.trim above) x) (hy : IsDecimal (Text.trim below) y)
    (hne : y ≠ 0) : IsNumeral cs (x / y) := by
  obtain ⟨left, right, hleft, hright, hcs⟩ := Text.padded_trim cs
  obtain ⟨left', right', hleft', hright', habove⟩ := Text.padded_trim above
  obtain ⟨left'', right'', hleft'', hright'', hbelow⟩ := Text.padded_trim below
  -- the blanks at the ends of the text are those of its two parts
  have heq : cs = (left ++ above) ++ '/' :: (below ++ right) := by
    rw [hcs, (of_splitAtFirst?_eq_some h).2]
    simp only [List.append_assoc, List.cons_append]
  rw [heq]
  refine .quotient hx
    ⟨left ++ left', right', List.forall_mem_append.mpr ⟨hleft, hleft'⟩,
      hright', ?_⟩ hy
    ⟨left'', right'' ++ right, hleft'',
      List.forall_mem_append.mpr ⟨hright'', hright⟩, ?_⟩ hne
  · conv_lhs => rw [habove]
    simp only [List.append_assoc]
  · conv_lhs => rw [hbelow]
    simp only [List.append_assoc]

/-- Trimming two decimals around a slash leaves the blanks next to the slash. -/
theorem trim_quotient {body body' left right left' right' : List Char}
    {x y : Rat} (hx : IsDecimal body x) (hy : IsDecimal body' y)
    (hleft : IsBlanks left) (hright' : IsBlanks right') :
    Text.trim (left ++ body ++ right ++ '/' :: (left' ++ body' ++ right'))
      = (body ++ right) ++ '/' :: (left' ++ body') := by
  refine Padded.trim_eq ⟨left, right', hleft, hright', ?_⟩
    (List.append_ne_nil_of_right_ne_nil _ (List.cons_ne_nil _ _)) ⟨?_, ?_⟩
  · simp only [List.append_assoc, List.cons_append]
  · rw [List.append_assoc, List.head?_append_of_ne_nil _ hx.ne_nil]
    exact fun c hc => hx.isBlank_eq_false (List.mem_of_mem_head? hc)
  · rw [← List.cons_append, ← List.append_assoc,
      List.getLast?_append_of_ne_nil _ hy.ne_nil]
    exact fun c hc => hy.isBlank_eq_false (List.mem_of_mem_getLast? hc)

/-- **Numerals are read**, and nothing else is. -/
theorem parseChars_eq_ok_iff {original : String} {cs : List Char}
    {value : Rat} :
    parseChars original cs = .ok value ↔ IsNumeral cs value := by
  constructor
  · intro h
    cases hsplit : splitAtFirst? '/' (Text.trim cs) with
    | none =>
      have hne : Text.trim cs ≠ [] := by
        intro hnil
        rw [parseChars, hnil] at h
        cases h
      rw [parseChars_of_bare hne hsplit] at h
      exact .decimal (parseDecimal_eq_ok_iff.mp h) (Text.padded_trim cs)
    | some parts =>
      obtain ⟨-, x, y, hx, hy, hne, rfl⟩ :=
        (parseChars_eq_ok_iff_of_slash hsplit).mp h
      exact isNumeral_of_split hsplit (parseDecimal_eq_ok_iff.mp hx)
        (parseDecimal_eq_ok_iff.mp hy) hne
  · intro h
    cases h with
    | @decimal body cs value h padded =>
      have htrim := h.trim_eq padded
      have hslash : '/' ∉ Text.trim cs := by
        rw [htrim]
        exact h.notMem (by decide) (by decide)
      rw [parseChars_of_bare (by rw [htrim]; exact h.ne_nil)
        (splitAtFirst?_of_notMem hslash), htrim]
      exact parseDecimal_eq_ok_iff.mpr h
    | @quotient body above body' below x y hx paddedAbove hy paddedBelow ne =>
      obtain ⟨left, right, hleft, hright, rfl⟩ := paddedAbove
      obtain ⟨left', right', hleft', hright', rfl⟩ := paddedBelow
      have hslash : ∀ {blanks : List Char}, IsBlanks blanks → '/' ∉ blanks :=
        fun hblanks hmem => absurd (hblanks '/' hmem) Bool.false_ne_true
      have hnot : '/' ∉ body := hx.notMem (by decide) (by decide)
      have hnot' : '/' ∉ body' := hy.notMem (by decide) (by decide)
      have hpadded : Padded body (body ++ right) :=
        ⟨[], right, nofun, hright, rfl⟩
      have hpadded' : Padded body' (left' ++ body') :=
        ⟨left', [], hleft', nofun, (List.append_nil _).symm⟩
      have hsplit := splitAtFirst?_append
        (List.not_mem_append hnot (hslash hright)) (left' ++ body')
      rw [← trim_quotient hx hy hleft hright'] at hsplit
      refine (parseChars_eq_ok_iff_of_slash hsplit).mpr
        ⟨List.not_mem_append (hslash hleft') hnot', x, y, ?_, ?_, ne, rfl⟩
      · rw [hx.trim_eq hpadded]
        exact parseDecimal_eq_ok_iff.mpr hx
      · rw [hy.trim_eq hpadded']
        exact parseDecimal_eq_ok_iff.mpr hy

/-! ## Points and commas -/

theorem pointOfComma_pointOfComma (c : Char) :
    pointOfComma (pointOfComma c) = pointOfComma c := by
  by_cases h : c = ','
  · rw [h]
    rfl
  · have hself : pointOfComma c = c := if_neg h
    rw [hself, hself]

theorem isBlank_pointOfComma (c : Char) :
    Text.isBlank (pointOfComma c) = Text.isBlank c := by
  unfold pointOfComma
  split
  · next h =>
    rw [h]
    rfl
  · rfl

theorem trim_map_pointOfComma (cs : List Char) :
    Text.trim (cs.map pointOfComma) = (Text.trim cs).map pointOfComma := by
  have hdrop : ∀ l : List Char, (l.map pointOfComma).dropWhile Text.isBlank
      = (l.dropWhile Text.isBlank).map pointOfComma := by
    intro l
    rw [List.dropWhile_map]
    congr 2
    exact funext isBlank_pointOfComma
  unfold Text.trim
  rw [hdrop, ← List.map_reverse, hdrop, List.map_reverse]

theorem parseDecimal_map_pointOfComma (original : String) (cs : List Char) :
    parseDecimal original (cs.map pointOfComma) = parseDecimal original cs := by
  unfold parseDecimal
  rw [List.map_map, (funext pointOfComma_pointOfComma :
    pointOfComma ∘ pointOfComma = pointOfComma)]

theorem pointOfComma_eq_slash_iff {c : Char} :
    pointOfComma c = '/' ↔ c = '/' := by
  unfold pointOfComma
  split
  · next h =>
    rw [h]
    decide
  · exact Iff.rfl

theorem splitAtFirst?_map_pointOfComma (cs : List Char) :
    splitAtFirst? '/' (cs.map pointOfComma)
      = (splitAtFirst? '/' cs).map fun (left, right) =>
        (left.map pointOfComma, right.map pointOfComma) := by
  induction cs with
  | nil => rfl
  | cons c cs ih =>
    rw [List.map_cons, splitAtFirst?, splitAtFirst?, ih]
    simp only [pointOfComma_eq_slash_iff]
    split
    · rfl
    · rw [Option.map_map, Option.map_map]
      rfl

/-- **The decimal marks are read alike.** -/
theorem parseChars_map_pointOfComma (original : String) (cs : List Char) :
    parseChars original (cs.map pointOfComma) = parseChars original cs := by
  have hcontains : ∀ l : List Char,
      (l.map pointOfComma).contains '/' = l.contains '/' := by
    intro l
    rw [Bool.eq_iff_iff, List.contains_iff_mem, List.contains_iff_mem,
      List.mem_map]
    exact ⟨fun ⟨c, hc, heq⟩ => pointOfComma_eq_slash_iff.mp heq ▸ hc,
      fun hmem => ⟨'/', hmem, rfl⟩⟩
  unfold parseChars
  simp only [trim_map_pointOfComma, splitAtFirst?_map_pointOfComma,
    List.isEmpty_map]
  cases splitAtFirst? '/' (Text.trim cs) with
  | none => simp only [Option.map_none, parseDecimal_map_pointOfComma]
  | some parts =>
    simp only [Option.map_some, hcontains, trim_map_pointOfComma,
      parseDecimal_map_pointOfComma]

/-! ## Errors -/

/-- The fault of a decimal is blamed on the text it is a part of. -/
theorem parseDecimal_eq_mapError (original original' : String)
    (cs : List Char) :
    parseDecimal original cs
      = (parseDecimal original' cs).mapError fun e => ⟨original, e.fault⟩ := by
  unfold parseDecimal
  dsimp only
  split <;> rfl

/-- **Every fault is blamed on the whole text**, and what the text is makes no
other difference. -/
theorem parseChars_eq_mapError (original original' : String)
    (cs : List Char) :
    parseChars original cs
      = (parseChars original' cs).mapError fun e => ⟨original, e.fault⟩ := by
  unfold parseChars
  dsimp only
  split
  · rfl
  split
  · exact parseDecimal_eq_mapError original original' _
  · next above below _ =>
    split
    · rfl
    rw [parseDecimal_eq_mapError original original' (Text.trim above),
      parseDecimal_eq_mapError original original' (Text.trim below)]
    cases parseDecimal original' (Text.trim above) with
    | error e => rfl
    | ok x =>
      cases parseDecimal original' (Text.trim below) with
      | error e => rfl
      | ok y =>
        show (if y = 0 then _ else _)
          = Except.mapError _ (if y = 0 then _ else _)
        split <;> rfl

/-- **Exactly the numerals are read**, each with its value, whichever of the
decimal marks it is written with. For any other text the error names the text as
it was given, blanks included. -/
theorem read_numerals (text : String) :
    (∀ value, read text = .ok value ↔ IsNumeral text.toList value)
      ∧ ((∀ value, ¬ IsNumeral text.toList value)
        ↔ ∃ fault, read text = .error ⟨text, fault⟩)
      ∧ (∀ e, read text = .error e → e.input = text)
      ∧ parse (String.ofList (text.toList.map pointOfComma)) = parse text := by
  have hok : ∀ value, read text = .ok value ↔ IsNumeral text.toList value :=
    fun value => parseChars_eq_ok_iff
  have hinput : ∀ e, read text = .error e → e.input = text := by
    intro e he
    rw [read, parseChars_eq_mapError text ""] at he
    cases hread : parseChars "" text.toList with
    | error e' =>
      rw [hread] at he
      cases he
      rfl
    | ok value =>
      rw [hread] at he
      cases he
  refine ⟨hok, ⟨fun hnone => ?_, fun ⟨fault, herror⟩ value hvalue => ?_⟩,
    hinput, ?_⟩
  · cases hread : read text with
    | error e => exact ⟨e.fault, by rw [← hinput e hread]⟩
    | ok value => exact absurd ((hok value).mp hread) (hnone value)
  · rw [(hok value).mpr hvalue] at herror
    cases herror
  · -- an error names the text with its commas, so only the faults agree
    rw [parse, parse, read, read, String.toList_ofList,
      parseChars_map_pointOfComma, parseChars_eq_mapError _ text]
    cases parseChars text text.toList <;> rfl

example : read " 2 / -,x " = .error ⟨" 2 / -,x ", .unexpectedCharacter⟩ := by
  decide +kernel

end Fraction

end Stepwise
