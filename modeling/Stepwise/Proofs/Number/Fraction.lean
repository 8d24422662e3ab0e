import Mathlib.Algebra.Field.Rat
import Stepwise.Number.Fraction

/-!
# Reading back the text of an exact number

An exact number is written in lowest terms, and reading what was written gives
the number back (`Fraction.parseChars_chars`): its text has no blanks to trim,
one slash at most, one sign at most, and otherwise digits only.
-/

namespace Stepwise

/-! ## Blanks and marks -/

namespace Text

theorem isBlank_of_isDigit {c : Char} (h : c.isDigit = true) :
    isBlank c = false := by
  obtain ⟨hlow, hhigh⟩ := Char.isDigit_iff_toNat.mp h
  have hlow' : 48 ≤ c.toNat := hlow
  have hhigh' : c.toNat ≤ 57 := hhigh
  refine Bool.eq_false_iff.mpr fun hblank => ?_
  obtain ⟨range, hrange, hle, hge⟩ := inRanges_eq_true_iff.mp hblank
  -- no range of blanks meets the digits
  have hapart : ∀ r ∈ blankRanges, r.2 < 48 ∨ 57 < r.1 := by decide
  rcases hapart range hrange with hlt | hlt
  · exact Nat.not_lt.mpr (Nat.le_trans hlow' hge) hlt
  · exact Nat.not_lt.mpr (Nat.le_trans hle hhigh') hlt

/-- A text without blanks is left as it is. -/
theorem trim_eq_self {cs : List Char} (h : ∀ c ∈ cs, isBlank c = false) :
    trim cs = cs := by
  have hdrop : ∀ {l : List Char}, (∀ c ∈ l, isBlank c = false) →
      l.dropWhile isBlank = l := by
    intro l hl
    cases l with
    | nil => rfl
    | cons c l =>
      rw [List.dropWhile_cons, hl c List.mem_cons_self]
      rfl
  unfold trim
  rw [hdrop h, hdrop fun c hc => h c (List.mem_reverse.mp hc),
    List.reverse_reverse]

end Text

namespace Fraction

theorem splitAtFirst?_of_notMem {mark : Char} {cs : List Char}
    (h : mark ∉ cs) : splitAtFirst? mark cs = none := by
  induction cs with
  | nil => rfl
  | cons c cs ih =>
    rw [List.mem_cons, not_or] at h
    rw [splitAtFirst?, if_neg (Ne.symm h.1), ih h.2]
    rfl

/-- A text is split where the mark occurs first. -/
theorem splitAtFirst?_append {mark : Char} {left : List Char}
    (h : mark ∉ left) (right : List Char) :
    splitAtFirst? mark (left ++ mark :: right) = some (left, right) := by
  induction left with
  | nil => rw [List.nil_append, splitAtFirst?, if_pos rfl]
  | cons c left ih =>
    rw [List.mem_cons, not_or] at h
    rw [List.cons_append, splitAtFirst?, if_neg (Ne.symm h.1), ih h.2]
    rfl

/-! ## Integers -/

theorem isDigit_of_mem_toDigits {n : Nat} {c : Char}
    (h : c ∈ Nat.toDigits 10 n) : c.isDigit = true :=
  Nat.isDigit_of_mem_toDigits (by decide) (Nat.le_refl 10) h

/-- No other character occurs among the digits of a number. -/
theorem notMem_toDigits {c : Char} (hc : c.isDigit = false) (n : Nat) :
    c ∉ Nat.toDigits 10 n := fun h =>
  absurd (isDigit_of_mem_toDigits h) (Bool.eq_false_iff.mp hc)

/-- The characters of an integer are digits and a sign. -/
theorem mem_integerChars {n : Int} {c : Char} (h : c ∈ integerChars n) :
    c.isDigit = true ∨ c = '-' := by
  unfold integerChars signed at h
  split at h
  · rcases List.mem_cons.mp h with rfl | h
    · exact .inr rfl
    · exact .inl (isDigit_of_mem_toDigits h)
  · exact .inl (isDigit_of_mem_toDigits h)

/-- The digits of a natural number are read as the number. -/
theorem parseMagnitude_toDigits (n : Nat) :
    parseMagnitude (Nat.toDigits 10 n) = .ok n := by
  have hne : (Nat.toDigits 10 n).isEmpty = false :=
    List.isEmpty_eq_false_iff.mpr Nat.toDigits_ne_nil
  have hall : (Nat.toDigits 10 n).all Char.isDigit = true :=
    List.all_eq_true.mpr fun c hc => isDigit_of_mem_toDigits hc
  unfold parseMagnitude
  rw [splitAtFirst?_of_notMem (notMem_toDigits rfl n)]
  simp only [Option.getD_none, hne, hall, Bool.false_and, List.all_nil,
    Bool.and_self, Bool.not_true, Bool.false_eq_true, if_false,
    List.append_nil, Nat.ofDigitChars_ten_toDigits, List.length_nil]
  exact congrArg Except.ok (Rat.mkRat_one n)

/-- Digits carry no sign. -/
theorem splitSign_toDigits (n : Nat) :
    splitSign (Nat.toDigits 10 n) = (false, Nat.toDigits 10 n) := by
  have hminus := notMem_toDigits (c := '-') rfl n
  have hplus := notMem_toDigits (c := '+') rfl n
  unfold splitSign
  split
  · rename_i heq
    exact absurd (heq ▸ List.mem_cons_self) hminus
  · rename_i heq
    exact absurd (heq ▸ List.mem_cons_self) hplus
  · rfl

/-- An integer is read back. -/
theorem parseDecimal_integerChars (original : String) (n : Int) :
    parseDecimal original (integerChars n) = .ok n := by
  have hcomma : (integerChars n).map pointOfComma = integerChars n := by
    refine (List.map_congr_left fun c hc => ?_).trans (List.map_id _)
    refine if_neg ?_
    rintro rfl
    rcases mem_integerChars hc with h | h <;> cases h
  unfold parseDecimal
  rw [hcomma, integerChars]
  by_cases hn : n < 0
  · have hvalue : -((n.natAbs : Nat) : Rat) = n := by
      rw [← Int.cast_natCast, Int.ofNat_natAbs_of_nonpos (Int.le_of_lt hn),
        Int.cast_neg, neg_neg]
    rw [decide_eq_true hn, signed, if_pos rfl]
    simp only [splitSign, parseMagnitude_toDigits]
    exact congrArg Except.ok hvalue
  · have hvalue : ((n.natAbs : Nat) : Rat) = n := by
      rw [← Int.cast_natCast, Int.natAbs_of_nonneg (Int.not_lt.mp hn)]
    rw [decide_eq_false hn, signed, if_neg Bool.false_ne_true]
    simp only [splitSign_toDigits, parseMagnitude_toDigits]
    exact congrArg Except.ok hvalue

/-- A natural number is read back. -/
theorem parseDecimal_toDigits (original : String) (n : Nat) :
    parseDecimal original (Nat.toDigits 10 n) = .ok n :=
  parseDecimal_integerChars original n

/-! ## Exact numbers -/

/-- The characters of an exact number are digits, signs and slashes. -/
theorem mem_chars {value : Rat} {c : Char} (h : c ∈ chars value) :
    c.isDigit = true ∨ c = '-' ∨ c = '/' := by
  unfold chars at h
  split at h
  · exact (mem_integerChars h).imp_right .inl
  · rcases List.mem_append.mp h with h | h
    · exact (mem_integerChars h).imp_right .inl
    · rcases List.mem_cons.mp h with h | h
      · exact .inr (.inr h)
      · exact .inl (isDigit_of_mem_toDigits h)

/-- No other character occurs in the text of an exact number. -/
theorem notMem_chars {c : Char}
    (hc : c.isDigit = false ∧ c ≠ '-' ∧ c ≠ '/') (value : Rat) :
    c ∉ chars value := by
  intro h
  rcases mem_chars h with h | h | h
  · rw [hc.1] at h
    cases h
  · exact hc.2.1 h
  · exact hc.2.2 h

/-- None of them is a blank. -/
theorem isBlank_of_mem_chars {value : Rat} {c : Char} (h : c ∈ chars value) :
    Text.isBlank c = false := by
  rcases mem_chars h with h | rfl | rfl
  · exact Text.isBlank_of_isDigit h
  · rfl
  · rfl

theorem integerChars_ne_nil (n : Int) : integerChars n ≠ [] := by
  unfold integerChars signed
  split
  · exact List.cons_ne_nil _ _
  · exact Nat.toDigits_ne_nil

theorem chars_ne_nil (value : Rat) : chars value ≠ [] := by
  unfold chars
  split
  · exact integerChars_ne_nil value.num
  · exact List.append_ne_nil_of_left_ne_nil (integerChars_ne_nil value.num) _

/-- **An exact number is read back from its text.** -/
theorem parseChars_chars (original : String) (value : Rat) :
    parseChars original (chars value) = .ok value := by
  have hblank : ∀ c ∈ chars value, Text.isBlank c = false :=
    fun c hc => isBlank_of_mem_chars hc
  have hempty : (chars value).isEmpty = false :=
    List.isEmpty_eq_false_iff.mpr (chars_ne_nil value)
  have hslash : '/' ∉ integerChars value.num := by
    intro h
    rcases mem_integerChars h with h | h <;> cases h
  unfold parseChars
  simp only [Text.trim_eq_self hblank, hempty, Bool.false_eq_true, if_false]
  by_cases hden : value.den = 1
  · have hchars : chars value = integerChars value.num := if_pos hden
    rw [hchars, splitAtFirst?_of_notMem hslash]
    simp only [parseDecimal_integerChars,
      Rat.coe_int_num_of_den_eq_one hden]
  · have hchars : chars value
        = integerChars value.num ++ '/' :: Nat.toDigits 10 value.den :=
      if_neg hden
    rw [hchars] at hblank
    have habove : Text.trim (integerChars value.num)
        = integerChars value.num := Text.trim_eq_self fun c hc =>
      hblank c (List.mem_append_left _ hc)
    have hbelow : Text.trim (Nat.toDigits 10 value.den)
        = Nat.toDigits 10 value.den := Text.trim_eq_self fun c hc =>
      hblank c (List.mem_append_right _ (List.mem_cons_of_mem _ hc))
    have hcontains : (Nat.toDigits 10 value.den).contains '/' = false := by
      rw [List.contains_eq_mem, decide_eq_false_iff_not]
      exact notMem_toDigits rfl value.den
    have hne : ((value.den : Nat) : Rat) ≠ 0 :=
      Nat.cast_ne_zero.mpr value.den_nz
    rw [hchars, splitAtFirst?_append hslash]
    simp only [hcontains, habove, hbelow, parseDecimal_integerChars,
      parseDecimal_toDigits, Bool.false_eq_true, if_false]
    -- the denominator is not zero, so that nothing is thrown
    exact (if_neg hne).trans (congrArg Except.ok (Rat.num_div_den value))

/-- The same for texts. -/
theorem read_format (value : Rat) : read (format value) = .ok value := by
  unfold read format
  rw [String.toList_ofList, parseChars_chars]

theorem parse_format (value : Rat) : parse (format value) = .ok value :=
  congrArg (Except.mapError ParseError.fault) (read_format value)

/-- Different numbers have different texts. -/
theorem format_injective : Function.Injective format := by
  intro value value' h
  have hparse := parse_format value
  rw [h, parse_format] at hparse
  exact (Except.ok.inj hparse).symm

end Fraction

end Stepwise
