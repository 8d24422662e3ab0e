import Stepwise.Proofs.Number.Fraction
import Stepwise.RatMatrix.RowOp

/-!
# The operation that a label names

A trace tells a row operation by its label, `R1 <-> R2`, `R1 -> R1 / 3` or
`R2 -> R2 - (-1/2)R1`. `RowOp.ofLabel?` reads a label word by word and accepts
what it read if that has the label it was read from. So the operation of a label
is an operation with this label (`RowOp.ofLabel?_eq_some_iff`), and since every
operation is found by its label, no two of them share one
(`RowOp.label_injective`).
-/

namespace Stepwise.RowOp

open Fraction

/-! ## The words of a label -/

/-- The word for row `i`. -/
def rowChars (i : Nat) : List Char :=
  'R' :: Nat.toDigits 10 (i + 1)

/-- The word for an operand. -/
def operandChars (value : Rat) : List Char :=
  if value < 0 then '(' :: chars value ++ [')'] else chars value

/-- **The words of a label**, one space apart. -/
def words : RowOp → List (List Char)
  | .swap a b => [rowChars a, ['<', '-', '>'], rowChars b]
  | .divide i divisor =>
    [rowChars i, ['-', '>'], rowChars i, ['/'], operandChars divisor]
  | .subtract target source factor =>
    [rowChars target, ['-', '>'], rowChars target, ['-'],
      operandChars factor ++ rowChars source]

theorem toList_formatOperand (value : Rat) :
    (formatOperand value).toList = operandChars value := by
  unfold formatOperand operandChars format
  split
  · show ("(" ++ String.ofList (chars value) ++ ")").toList = _
    simp
  · exact String.toList_ofList

/-- **A label is its words**, joined by spaces. -/
theorem toList_label (op : RowOp) :
    op.label.toList = [' '].intercalate op.words := by
  cases op with
  | swap a b =>
    show ("R" ++ toString (a + 1) ++ " <-> R" ++ toString (b + 1)).toList = _
    simp [words, rowChars]
  | divide i divisor =>
    show ("R" ++ toString (i + 1) ++ " -> R" ++ toString (i + 1) ++ " / "
      ++ formatOperand divisor).toList = _
    simp [words, rowChars, toList_formatOperand]
  | subtract target source factor =>
    show ("R" ++ toString (target + 1) ++ " -> R" ++ toString (target + 1)
      ++ " - " ++ formatOperand factor ++ "R" ++ toString (source + 1)).toList
        = _
    simp [words, rowChars, toList_formatOperand]

/-! ## Reading words -/

/-- The row that a word names. -/
def readRow (word : List Char) : Nat :=
  Nat.ofDigitChars 10 (word.filter Char.isDigit) 0 - 1

/-- The operand that a word stands for. -/
def readOperand? (word : List Char) : Option Rat :=
  (read (String.ofList (word.filter fun c => c != '(' && c != ')'))).toOption

/-- An operation read from the words of a label. What the words between are is
not looked at any closer than it takes to tell the operations apart. -/
def ofWords? : List (List Char) → Option RowOp
  | [a, _, b] => some (.swap (readRow a) (readRow b))
  | [i, _, _, ['/'], divisor] =>
    (readOperand? divisor).map (.divide (readRow i))
  | [target, _, _, _, multiple] =>
    (splitAtFirst? 'R' multiple).bind fun (factor, source) =>
      (readOperand? factor).map (.subtract (readRow target) (readRow source))
  | _ => none

/-- **The operation that a label names**, if it names one. -/
def ofLabel? (label : String) : Option RowOp :=
  (ofWords? (label.toList.splitOn ' ')).filter fun op =>
    decide (op.label = label)

theorem readRow_toDigits (i : Nat) :
    readRow (Nat.toDigits 10 (i + 1)) = i := by
  unfold readRow
  rw [List.filter_eq_self.mpr fun c hc => isDigit_of_mem_toDigits hc,
    Nat.ofDigitChars_ten_toDigits, Nat.add_sub_cancel]

theorem readRow_rowChars (i : Nat) : readRow (rowChars i) = i :=
  readRow_toDigits i

/-- Beside the characters of a number an operand has parentheses only. -/
theorem notMem_operandChars {c : Char}
    (hc : c.isDigit = false ∧ c ≠ '-' ∧ c ≠ '/')
    (hparens : c ≠ '(' ∧ c ≠ ')') (value : Rat) :
    c ∉ operandChars value := by
  intro h
  unfold operandChars at h
  split at h
  · rcases List.mem_append.mp h with h | h
    · rcases List.mem_cons.mp h with h | h
      · exact hparens.1 h
      · exact notMem_chars hc value h
    · exact hparens.2 (List.mem_singleton.mp h)
  · exact notMem_chars hc value h

theorem readOperand?_operandChars (value : Rat) :
    readOperand? (operandChars value) = some value := by
  have hfilter : (chars value).filter (fun c => c != '(' && c != ')')
      = chars value := by
    refine List.filter_eq_self.mpr fun c hc => ?_
    have hopen : c ≠ '(' := fun h => notMem_chars (by decide) value (h ▸ hc)
    have hclose : c ≠ ')' := fun h => notMem_chars (by decide) value (h ▸ hc)
    rw [bne_iff_ne.mpr hopen, bne_iff_ne.mpr hclose]
    rfl
  have hword : (operandChars value).filter (fun c => c != '(' && c != ')')
      = chars value := by
    unfold operandChars
    split
    · rw [List.filter_append, List.filter_cons_of_neg (by decide), hfilter]
      exact List.append_nil _
    · exact hfilter
  unfold readOperand?
  rw [hword]
  exact congrArg Except.toOption (read_format value)

/-- **The words of an operation are read as the operation.** -/
theorem ofWords?_words (op : RowOp) : ofWords? op.words = some op := by
  cases op with
  | swap a b => simp only [words, ofWords?, readRow_rowChars]
  | divide i divisor =>
    simp only [words, ofWords?, readRow_rowChars, readOperand?_operandChars,
      Option.map_some]
  | subtract target source factor =>
    have hfactor : 'R' ∉ operandChars factor :=
      notMem_operandChars (by decide) (by decide) factor
    have hsplit : splitAtFirst? 'R' (operandChars factor ++ rowChars source)
        = some (operandChars factor, Nat.toDigits 10 (source + 1)) :=
      splitAtFirst?_append hfactor _
    show (splitAtFirst? 'R' (operandChars factor ++ rowChars source)).bind
      (fun (f, s) => (readOperand? f).map
        (subtract (readRow (rowChars target)) (readRow s))) = _
    simp only [hsplit, Option.bind_some, readOperand?_operandChars,
      Option.map_some, readRow_rowChars, readRow_toDigits]

/-! ## Labels and operations -/

/-- No word has a space in it. -/
theorem notMem_words (op : RowOp) : ∀ word ∈ op.words, ' ' ∉ word := by
  have hrow : ∀ i, ' ' ∉ rowChars i := by
    intro i h
    rcases List.mem_cons.mp h with h | h
    · cases h
    · exact notMem_toDigits rfl _ h
  have hoperand : ∀ value, ' ' ∉ operandChars value :=
    notMem_operandChars (by decide) (by decide)
  cases op with
  | swap a b => simp [words, hrow]
  | divide i divisor => simp [words, hrow, hoperand]
  | subtract target source factor => simp [words, hrow, hoperand]

theorem ofLabel?_label (op : RowOp) : ofLabel? op.label = some op := by
  have hne : op.words ≠ [] := by
    cases op <;> exact List.cons_ne_nil _ _
  unfold ofLabel?
  rw [toList_label, List.splitOn_intercalate ' ' (notMem_words op) hne,
    ofWords?_words, Option.filter_some, if_pos (decide_eq_true rfl)]

example : ofLabel? "R2 -> R2 - (-1/2)R1"
    = some (.subtract 1 0 (-1 / 2)) := by decide +kernel

/-- **The operation of a label** is an operation with that label. -/
theorem ofLabel?_eq_some_iff {label : String} {op : RowOp} :
    ofLabel? label = some op ↔ op.label = label := by
  constructor
  · intro h
    exact of_decide_eq_true (Option.filter_eq_some_iff.mp h).2
  · rintro rfl
    exact ofLabel?_label op

/-- **A label names one operation only.** -/
theorem label_injective : Function.Injective label := by
  intro op op' h
  have hop : ofLabel? op'.label = some op := ofLabel?_eq_some_iff.mpr h
  rw [ofLabel?_label] at hop
  exact (Option.some.inj hop).symm

/-- A text that does not begin with `R` names no operation. -/
theorem ofLabel?_eq_none {label : String}
    (h : label.toList.head? ≠ some 'R') : ofLabel? label = none := by
  cases hop : ofLabel? label with
  | none => rfl
  | some op =>
    rw [← ofLabel?_eq_some_iff.mp hop, toList_label] at h
    cases op <;> exact absurd rfl h

end Stepwise.RowOp
