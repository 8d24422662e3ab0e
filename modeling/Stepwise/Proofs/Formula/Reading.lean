import Stepwise.Proofs.Formula.Grammar
import Stepwise.Proofs.Formula.Outcome

/-!
# What is read is a phrase

What a function of the parser reads off the front of a list of tokens is a
phrase of its sort, and the tree that it returns is the tree of that phrase. The
functions that read on after the first part of a sum or of a product complete a
phrase begun before, so `Reads` speaks of the tokens before as well. Each
function is sound on a list when sums are read soundly on shorter ones; by
induction on the number of tokens sums always are (`reads_sum`).
-/

namespace Stepwise

/-- **What a function reads off the front of tokens** is, together with the
tokens `before`, a phrase of the given sort. -/
def Reads (variableName : String) (phrase : Phrase) (before : List TokenKind)
    (ts : List Token) (result : Except SyntaxError (Formula × List Token)) :
    Prop :=
  ∀ f rest, result = .ok (f, rest) → ∃ ks, kinds ts = ks ++ kinds rest
    ∧ Derives variableName phrase (before ++ ks) f

namespace Reads

variable {variableName : String} {phrase phrase' : Phrase}
  {before : List TokenKind} {ts : List Token}

theorem error (e : SyntaxError) :
    Reads variableName phrase before ts (.error e) :=
  fun _ _ h => nomatch h

/-- Nothing is read, and the tokens before are a phrase already. -/
theorem nothing {f : Formula} (h : Derives variableName phrase before f) :
    Reads variableName phrase before ts (.ok (f, ts)) := by
  rintro g rest ⟨⟩
  refine ⟨[], rfl, ?_⟩
  rwa [List.append_nil]

/-- A phrase is read, and then what goes on with it. -/
theorem bind {first : Except SyntaxError (Formula × List Token)}
    {next : Formula × List Token → Except SyntaxError (Formula × List Token)}
    (h : Reads variableName phrase [] ts first)
    (hnext : ∀ f mid ks, first = .ok (f, mid) →
      Derives variableName phrase ks f →
      Reads variableName phrase' (before ++ ks) mid (next (f, mid))) :
    Reads variableName phrase' before ts (first >>= next) := by
  intro g rest hg
  obtain ⟨⟨f, mid⟩, hf, hg⟩ := exists_of_bind_eq_ok hg
  obtain ⟨ks, hks, hd⟩ := h f mid hf
  obtain ⟨ks', hks', hd'⟩ := hnext f mid ks hf hd g rest hg
  refine ⟨ks ++ ks', ?_, ?_⟩
  · rw [hks, hks', List.append_assoc]
  · rwa [← List.append_assoc]

/-- A token is passed over. -/
theorem cons {t : Token} {result : Except SyntaxError (Formula × List Token)}
    (h : Reads variableName phrase (before ++ [t.kind]) ts result) :
    Reads variableName phrase before (t :: ts) result := by
  intro f rest hf
  obtain ⟨ks, hks, hd⟩ := h f rest hf
  refine ⟨t.kind :: ks, congrArg (t.kind :: ·) hks, ?_⟩
  rwa [List.append_assoc] at hd

/-- What is read is a phrase of another sort, too. -/
theorem weaken {result : Except SyntaxError (Formula × List Token)}
    (h : Reads variableName phrase [] ts result)
    (hphrase : ∀ ks f, Derives variableName phrase ks f →
      Derives variableName phrase' (before ++ ks) f) :
    Reads variableName phrase' before ts result := by
  intro f rest hf
  obtain ⟨ks, hks, hd⟩ := h f rest hf
  exact ⟨ks, hks, hphrase ks f hd⟩

/-- A phrase is read, and its tree is built into another one. -/
theorem map {result : Except SyntaxError (Formula × List Token)}
    {build : Formula → Formula} (h : Reads variableName phrase [] ts result)
    (hbuild : ∀ ks f, Derives variableName phrase ks f →
      Derives variableName phrase' (before ++ ks) (build f)) :
    Reads variableName phrase' before ts
      (result.map fun read => (build read.1, read.2)) := by
  intro g rest hg
  cases hr : result with
  | error e =>
    rw [hr] at hg
    cases hg
  | ok read =>
    rw [hr] at hg
    cases hg
    obtain ⟨ks, hks, hd⟩ := h read.1 read.2 hr
    exact ⟨ks, hks, hbuild ks read.1 hd⟩

end Reads

variable {ctx : ParseContext} {n : Nat}

/-- A closing parenthesis ends an atom. -/
theorem reads_closed {f : Formula} {before : List TokenKind}
    (h : Derives ctx.variableName .atom (before ++ [.closeParen]) f)
    (position : Nat) (ts : List Token) :
    Reads ctx.variableName .atom before ts (closed position f ts) := by
  unfold closed
  split
  · exact Reads.cons (Reads.nothing h)
  · exact Reads.error _

section Parts

variable (hsum : ∀ ts : List Token, ts.length < n →
  Reads ctx.variableName .sum [] ts (outcome (parseSum ctx ts)))

include hsum

theorem reads_word {name : String} {start stop : Nat} {ts : List Token}
    (hn : ts.length < n) :
    Reads ctx.variableName .atom [] (⟨.word name, start, stop⟩ :: ts)
      (outcome (parseAtom ctx (⟨.word name, start, stop⟩ :: ts))) := by
  by_cases hvar : name = ctx.variableName
  · rw [parseAtom, if_pos hvar]
    exact Reads.cons (Reads.nothing (hvar ▸ .atom_variable))
  by_cases hpi : name = "pi"
  · rw [parseAtom, if_neg hvar, if_pos hpi]
    exact Reads.cons (Reads.nothing (hpi ▸ .atom_pi (hpi ▸ hvar)))
  by_cases he : name = "e"
  · rw [parseAtom, if_neg hvar, if_neg hpi, if_pos he]
    exact Reads.cons (Reads.nothing (he ▸ .atom_e (he ▸ hvar)))
  cases hnamed : Function.ofName? name with
  | none =>
    rw [parseAtom, if_neg hvar, if_neg hpi, if_neg he]
    simp only [hnamed]
    exact Reads.error _
  | some function =>
    by_cases hopen : ∃ start' stop' rest,
        ts = ⟨.openParen, start', stop'⟩ :: rest
    · obtain ⟨start', stop', rest, rfl⟩ := hopen
      rw [outcome_parseAtom_call ctx hvar hnamed]
      refine Reads.cons (Reads.cons (Reads.bind
        (hsum rest (Nat.lt_of_succ_lt hn)) fun f mid ks _ hd => ?_))
      exact reads_closed
        (.atom_call hvar (ofName?_eq_some_iff.mp hnamed) hd) start' mid
    · rw [parseAtom, if_neg hvar, if_neg hpi, if_neg he]
      simp only [hnamed]
      split
      · exact absurd ⟨_, _, _, rfl⟩ hopen
      · exact Reads.error _

theorem reads_atom {ts : List Token} (hn : ts.length ≤ n) :
    Reads ctx.variableName .atom [] ts (outcome (parseAtom ctx ts)) := by
  cases ts with
  | nil =>
    rw [parseAtom]
    exact Reads.error _
  | cons t ts =>
    obtain ⟨kind, start, stop⟩ := t
    cases kind with
    | number value =>
      rw [parseAtom]
      exact Reads.cons (Reads.nothing (.atom_number value))
    | word name => exact reads_word hsum hn
    | openParen =>
      rw [outcome_parseAtom_openParen]
      refine Reads.cons (Reads.bind (hsum ts hn) fun f mid ks _ hd => ?_)
      exact reads_closed (.atom_parentheses hd) start mid
    | _ =>
      rw [parseAtom.eq_5]
      · exact Reads.error _
      all_goals
        intros
        contradiction

/-- A power is read when shorter signed powers are. -/
theorem reads_power {ts : List Token} (hn : ts.length ≤ n)
    (hsigned : ∀ ts' : List Token, ts'.length < ts.length →
      Reads ctx.variableName .signed [] ts' (outcome (parseSigned ctx ts'))) :
    Reads ctx.variableName .power [] ts (outcome (parsePower ctx ts)) := by
  rw [outcome_parsePower]
  refine Reads.bind (reads_atom hsum hn) fun base mid ks hbase hd => ?_
  have hmid : mid.length < ts.length := fits_of_outcome hbase
  by_cases hpower : (kinds mid).head? = some .power
  · obtain ⟨start, stop, rest, rfl⟩ := exists_of_head?_kinds hpower
    rw [outcome_parseExponent_power]
    refine Reads.cons (Reads.map (hsigned rest (Nat.lt_of_succ_lt hmid))
      fun es e he => ?_)
    rw [List.append_assoc]
    exact .power_power hd he
  · rw [outcome_parseExponent_of_ne ctx hpower]
    exact Reads.nothing (.power_atom hd)

/-- A sign stands in front of a signed power again, anything else begins a
power. -/
theorem reads_signed {ts : List Token} (hn : ts.length ≤ n) :
    Reads ctx.variableName .signed [] ts (outcome (parseSigned ctx ts)) := by
  have hsigned : ∀ ts' : List Token, ts'.length < ts.length →
      Reads ctx.variableName .signed [] ts' (outcome (parseSigned ctx ts')) :=
    fun ts' hlt => reads_signed (Nat.le_of_lt (Nat.lt_of_lt_of_le hlt hn))
  by_cases hminus : (kinds ts).head? = some .minus
  · obtain ⟨start, stop, rest, rfl⟩ := exists_of_head?_kinds hminus
    rw [outcome_parseSigned_minus]
    exact Reads.cons (Reads.map (hsigned rest (Nat.lt_succ_self _))
      fun ks f hd => .signed_minus hd)
  by_cases hplus : (kinds ts).head? = some .plus
  · obtain ⟨start, stop, rest, rfl⟩ := exists_of_head?_kinds hplus
    rw [outcome_parseSigned_plus]
    exact Reads.cons (Reads.weaken (hsigned rest (Nat.lt_succ_self _))
      fun ks f hd => .signed_plus hd)
  · rw [parseSigned_eq_parsePower]
    · exact Reads.weaken (reads_power hsum hn hsigned)
        fun ks f hd => .signed_power hd
    · intro k hk
      cases k with
      | plus => exact absurd hk hplus
      | minus => exact absurd hk hminus
      | _ => rfl
termination_by ts.length

/-- A product is read on factor by factor. -/
theorem reads_productTail {ts : List Token} (hn : ts.length ≤ n)
    {left : Formula} {before : List TokenKind}
    (hleft : Derives ctx.variableName .product before left) :
    Reads ctx.variableName .product before ts
      (outcome (parseProductTail ctx left ts)) := by
  have htail : ∀ (mid : List Token) (left' : Formula) (ks : List TokenKind),
      mid.length < ts.length → Derives ctx.variableName .product ks left' →
      Reads ctx.variableName .product ks mid
        (outcome (parseProductTail ctx left' mid)) :=
    fun mid left' ks hlt hd =>
      reads_productTail (Nat.le_of_lt (Nat.lt_of_lt_of_le hlt hn)) hd
  cases ts with
  | nil =>
    rw [outcome_parseProductTail_nil]
    exact Reads.nothing hleft
  | cons t ts =>
    cases hm : multiplicative? t.kind with
    | some op =>
      rw [outcome_parseProductTail_of_some ctx hm]
      refine Reads.cons (Reads.bind
        (reads_signed hsum (Nat.le_of_succ_le hn)) fun right mid ks hmid hd => ?_)
      have hlt : mid.length < ts.length := fits_of_outcome hmid
      refine htail mid _ _ (Nat.lt_succ_of_lt hlt) ?_
      rw [List.append_assoc]
      exact Derives.product_multiplicative hm hleft hd
    | none =>
      cases hs : startsFactor t.kind with
      | true =>
        rw [outcome_parseProductTail_of_startsFactor ctx hs]
        refine Reads.bind (reads_power hsum hn fun ts' hlt =>
          reads_signed hsum (Nat.le_of_lt (Nat.lt_of_lt_of_le hlt hn)))
          fun right mid ks hmid hd => ?_
        have hlt : mid.length < (t :: ts).length := fits_of_outcome hmid
        exact htail mid _ _ hlt
          (.product_adjacent hleft hd hd.beginsOperand_of_power)
      | false =>
        rw [outcome_parseProductTail_of_none ctx hm hs]
        exact Reads.nothing hleft
termination_by ts.length

theorem reads_product {ts : List Token} (hn : ts.length ≤ n) :
    Reads ctx.variableName .product [] ts (outcome (parseProduct ctx ts)) := by
  rw [outcome_parseProduct]
  refine Reads.bind (reads_signed hsum hn) fun left mid ks hmid hd => ?_
  have hlt : mid.length < ts.length := fits_of_outcome hmid
  exact reads_productTail hsum (Nat.le_of_lt (Nat.lt_of_lt_of_le hlt hn))
    (.product_signed hd)

/-- A sum is read on term by term. -/
theorem reads_sumTail {ts : List Token} (hn : ts.length ≤ n)
    {left : Formula} {before : List TokenKind}
    (hleft : Derives ctx.variableName .sum before left) :
    Reads ctx.variableName .sum before ts
      (outcome (parseSumTail ctx left ts)) := by
  have htail : ∀ (mid : List Token) (left' : Formula) (ks : List TokenKind),
      mid.length < ts.length → Derives ctx.variableName .sum ks left' →
      Reads ctx.variableName .sum ks mid
        (outcome (parseSumTail ctx left' mid)) :=
    fun mid left' ks hlt hd =>
      reads_sumTail (Nat.le_of_lt (Nat.lt_of_lt_of_le hlt hn)) hd
  cases ts with
  | nil =>
    rw [outcome_parseSumTail_nil]
    exact Reads.nothing hleft
  | cons t ts =>
    cases ha : additive? t.kind with
    | some op =>
      rw [outcome_parseSumTail_of_some ctx ha]
      refine Reads.cons (Reads.bind
        (reads_product hsum (Nat.le_of_succ_le hn)) fun right mid ks hmid hd => ?_)
      have hlt : mid.length < ts.length := fits_of_outcome hmid
      refine htail mid _ _ (Nat.lt_succ_of_lt hlt) ?_
      rw [List.append_assoc]
      exact Derives.sum_additive ha hleft hd
    | none =>
      rw [outcome_parseSumTail_of_none ctx ha]
      exact Reads.nothing hleft
termination_by ts.length

end Parts

/-- **What is read as a sum is one**, by induction on the number of tokens. -/
theorem reads_sum (ctx : ParseContext) (ts : List Token) :
    Reads ctx.variableName .sum [] ts (outcome (parseSum ctx ts)) := by
  have hsum : ∀ ts' : List Token, ts'.length < ts.length →
      Reads ctx.variableName .sum [] ts' (outcome (parseSum ctx ts')) :=
    fun ts' hlt => reads_sum ctx ts'
  rw [outcome_parseSum]
  refine Reads.bind (reads_product hsum (Nat.le_refl _))
    fun left mid ks hmid hd => ?_
  have hlt : mid.length < ts.length := fits_of_outcome hmid
  exact reads_sumTail hsum (Nat.le_of_lt hlt) (.sum_product hd)
termination_by ts.length

end Stepwise
