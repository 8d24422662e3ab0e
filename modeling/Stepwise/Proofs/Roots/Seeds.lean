import Stepwise.Proofs.Roots.Ranking

/-!
# What a scan proposes

A scan lists all brackets, finds a first one, ranks the pairs of samples and proposes
seeds for the secant method. All four look at the neighbouring samples with finite
values, here addressed by their position (`FinitePairAt`), and they differ in what
they look for. A first bracket may also be a pair that touches a root, so it stands no
further to the right than the first change of sign. The ranking leaves out just the
pairs that touch a root, and where there is no first bracket there is no such pair: the
ranking is then of all pairs, and nothing is lost between the two
(`candidates_of_firstPromising`).
-/

namespace Stepwise

open Double

/-! ## Positions -/

/-- **Neighbouring samples at a position**, both of whose values are finite. -/
structure FinitePairAt (sampled : List Sample) (i : ℕ) (pair : Sample × Sample) :
    Prop where
  left : sampled[i]? = some pair.1
  right : sampled[i + 1]? = some pair.2
  finite : pair.1.fx.isFinite = true ∧ pair.2.fx.isFinite = true

section Positions

variable {sampled : List Sample} {pair : Sample × Sample}

theorem finitePairAt_iff {i : ℕ} :
    FinitePairAt sampled i pair
      ↔ (sampled.zip (sampled.drop 1))[i]? = some pair
        ∧ (pair.1.fx.isFinite && pair.2.fx.isFinite) = true := by
  rw [List.getElem?_zip_eq_some, List.getElem?_drop, Nat.add_comm 1,
    Bool.and_eq_true, and_assoc]
  exact ⟨fun h => ⟨h.left, h.right, h.finite⟩,
    fun ⟨hleft, hright, hfinite⟩ => ⟨hleft, hright, hfinite⟩⟩

theorem FinitePairAt.unique {i : ℕ} {other : Sample × Sample}
    (h : FinitePairAt sampled i pair) (h' : FinitePairAt sampled i other) :
    pair = other :=
  Prod.ext (Option.some.inj (h.left.symm.trans h'.left))
    (Option.some.inj (h.right.symm.trans h'.right))

theorem mem_finitePairs_iff :
    pair ∈ finitePairs sampled ↔ ∃ i, FinitePairAt sampled i pair := by
  unfold finitePairs
  rw [List.mem_filter, List.mem_iff_getElem?, ← exists_and_right]
  exact exists_congr fun i => finitePairAt_iff.symm

/-- **What is found first** stands before everything else that could be. -/
theorem exists_of_find?_finitePairs {q : Sample × Sample → Bool}
    (h : (finitePairs sampled).find? q = some pair) :
    ∃ i, FinitePairAt sampled i pair ∧ q pair = true
      ∧ ∀ j < i, ∀ other, FinitePairAt sampled j other → q other = false := by
  have hq := List.find?_some h
  unfold finitePairs at h
  rw [List.find?_filter, List.find?_eq_some_iff_getElem] at h
  obtain ⟨hpair, i, hi, rfl, hbefore⟩ := h
  have hfinite := (of_decide_eq_true hpair).1
  refine ⟨i, finitePairAt_iff.mpr ⟨List.getElem?_eq_getElem hi, hfinite⟩, hq,
    fun j hj other hother => ?_⟩
  obtain ⟨hother, hvalues⟩ := finitePairAt_iff.mp hother
  obtain ⟨hlt, rfl⟩ := List.getElem?_eq_some_iff.mp hother
  have hskipped := hbefore j hj
  rw [Bool.not_eq_true', decide_eq_false_iff_not] at hskipped
  exact Bool.not_eq_true _ ▸ fun hfound => hskipped ⟨hvalues, hfound⟩

end Positions

/-! ## What is looked for -/

/-- **The first change of sign**, at its position. -/
structure IsFirstCrossing (sampled : List Sample) (i : ℕ)
    (pair : Sample × Sample) : Prop where
  position : FinitePairAt sampled i pair
  crosses : isCrossing pair = true
  first : ∀ j < i, ∀ other, FinitePairAt sampled j other →
    isCrossing other = false

/-- **The pair of least score**, the leftmost of them, at its position. -/
structure IsLeastPair (sampled : List Sample) (i : ℕ) (pair : Sample × Sample) :
    Prop where
  position : FinitePairAt sampled i pair
  least : ∀ j other, FinitePairAt sampled j other →
    pair.1.fx.abs + pair.2.fx.abs ≤ other.1.fx.abs + other.2.fx.abs
  leftmost : ∀ j < i, ∀ other, FinitePairAt sampled j other →
    pair.1.fx.abs + pair.2.fx.abs < other.1.fx.abs + other.2.fx.abs

/-- **How brackets, the first bracket, the ranking and the seeds of a scan agree.** -/
structure ProposalsAgree (sampled : List Sample) (brackets : List (Float × Float))
    (bracket? : Option (Float × Float)) (ranked : List RankedPair)
    (seeds? : Option (Float × Float)) : Prop where
  /-- A scan that has brackets has a first one. -/
  nonempty : bracket? = none → brackets = []
  /-- It is the first of them or stands to the left of it and touches a root. -/
  first : ∀ bracket, brackets.head? = some bracket →
    ∃ i pair, IsFirstCrossing sampled i pair ∧ bracket = points pair
      ∧ (bracket? = some bracket
        ∨ ∃ j < i, ∃ other, FinitePairAt sampled j other
          ∧ (other.1.fx.abs < rootEpsilon ∨ other.2.fx.abs < rootEpsilon)
          ∧ bracket? = some (points other))
  /-- Whatever is proposed is a pair of neighbours with finite values. -/
  neighbours : ∀ proposed, proposed ∈ brackets ∨ bracket? = some proposed
      ∨ proposed ∈ ranked.map (fun pair => (pair.a, pair.b)) →
    ∃ i pair, FinitePairAt sampled i pair ∧ proposed = points pair
  /-- The seeds are the first bracket, if there is one. -/
  seeds_eq : ∀ bracket, bracket? = some bracket → seeds? = some bracket
  /-- Otherwise there are seeds if there are neighbours with finite values. -/
  seeds_none : bracket? = none →
    (seeds? = none ↔ ¬ ∃ i pair, FinitePairAt sampled i pair)
  /-- Then they are the leftmost pair of least score. -/
  seeds_least : bracket? = none → ∀ seeds, seeds? = some seeds →
    ∃ i pair, IsLeastPair sampled i pair ∧ seeds = points pair

section Proposals

variable {f : Float → Float} {scan : ScanSettings} {sampled : List Sample}

theorem scanBrackets_eq_ok (h : samples f scan = .ok sampled) :
    scanBrackets f scan
      = .ok (((finitePairs sampled).filter isCrossing).map points) := by
  unfold scanBrackets
  rw [h]
  rfl

/-- The first pair that changes sign or touches a root. -/
def firstPromising (sampled : List Sample) : Option (Sample × Sample) :=
  (finitePairs sampled).find? fun pair => isCrossing pair || touchesRoot pair

theorem findBracket_eq_ok (h : samples f scan = .ok sampled) :
    findBracket f scan = .ok ((firstPromising sampled).map points) := by
  unfold findBracket
  rw [h]
  rfl

theorem secantSeeds_eq_ok {bracket? : Option (Float × Float)}
    {ranked : List RankedPair} (hbracket : findBracket f scan = .ok bracket?)
    (hranked : rankPairs f scan = .ok ranked) :
    secantSeeds f scan
      = .ok (bracket?.or (ranked.head?.map fun pair => (pair.a, pair.b))) := by
  unfold secantSeeds
  rw [hbracket, hranked]
  cases bracket? <;> rfl

theorem touchesRoot_iff {pair : Sample × Sample} :
    touchesRoot pair = true
      ↔ pair.1.fx.abs < rootEpsilon ∨ pair.2.fx.abs < rootEpsilon := by
  rw [touchesRoot, Bool.or_eq_true, decide_eq_true_iff, decide_eq_true_iff]

/-- **The first bracket and the brackets of a scan.** Whatever changes sign is
promising, so the first promising pair is no further to the right than the first
change of sign. -/
theorem exists_isFirstCrossing {bracket : Float × Float}
    (h : (((finitePairs sampled).filter isCrossing).map points).head?
      = some bracket) :
    ∃ i pair, IsFirstCrossing sampled i pair ∧ bracket = points pair
      ∧ ((firstPromising sampled).map points = some bracket
        ∨ ∃ j < i, ∃ other, FinitePairAt sampled j other
          ∧ (other.1.fx.abs < rootEpsilon ∨ other.2.fx.abs < rootEpsilon)
          ∧ (firstPromising sampled).map points = some (points other)) := by
  rw [List.head?_map, List.head?_filter] at h
  obtain ⟨pair, hcrossing, rfl⟩ := Option.map_eq_some_iff.mp h
  obtain ⟨i, hpair, hcrosses, hfirst⟩ := exists_of_find?_finitePairs hcrossing
  refine ⟨i, pair, ⟨hpair, hcrosses, hfirst⟩, rfl, ?_⟩
  have hpromising : (isCrossing pair || touchesRoot pair) = true := by
    rw [hcrosses, Bool.true_or]
  cases hfound : firstPromising sampled with
  | none =>
    have hnone := List.find?_eq_none.mp hfound pair
      (mem_finitePairs_iff.mpr ⟨i, hpair⟩)
    exact absurd hpromising hnone
  | some other =>
    obtain ⟨j, hother, hlooked, hbefore⟩ := exists_of_find?_finitePairs hfound
    have hji : j ≤ i := by
      by_contra hij
      have hskipped := hbefore i (not_le.mp hij) pair hpair
      rw [hpromising] at hskipped
      cases hskipped
    rcases hji.eq_or_lt with rfl | hlt
    · left
      rw [hother.unique hpair]
      rfl
    · right
      rw [hfirst j hlt other hother, Bool.false_or, touchesRoot_iff] at hlooked
      exact ⟨j, hlt, other, hother, hlooked, rfl⟩

/-- **Without a first bracket** no pair touches a root, and all are ranked. -/
theorem candidates_of_firstPromising (h : firstPromising sampled = none) :
    candidates sampled = (finitePairs sampled).map rankPair := by
  rw [candidates_eq]
  refine congrArg (List.map rankPair) (List.filter_eq_self.mpr fun pair hpair => ?_)
  have hskipped := List.find?_eq_none.mp h pair hpair
  rw [Bool.or_eq_true, touchesRoot_iff, not_or, not_or] at hskipped
  obtain ⟨i, hposition⟩ := mem_finitePairs_iff.mp hpair
  obtain ⟨hfinite, hfinite'⟩ := hposition.finite
  rw [avoidsRoot, Bool.and_eq_true, decide_eq_true_iff, decide_eq_true_iff]
  exact ⟨Double.le_of_not_lt (isFinite_abs hfinite).1 (by rfl) hskipped.2.1,
    Double.le_of_not_lt (isFinite_abs hfinite').1 (by rfl) hskipped.2.2⟩

/-- **The first of a ranking of all pairs** is the leftmost pair of least score. -/
theorem exists_isLeastPair
    (hall : candidates sampled = (finitePairs sampled).map rankPair)
    {best : RankedPair}
    (h : (sortedBy scoreKey (candidates sampled)).head? = some best) :
    ∃ i pair, IsLeastPair sampled i pair ∧ (best.a, best.b) = points pair := by
  have hmem : ∀ {i pair}, FinitePairAt sampled i pair →
      rankPair pair ∈ candidates sampled := fun hpair =>
    hall ▸ List.mem_map_of_mem (mem_finitePairs_iff.mpr ⟨_, hpair⟩)
  obtain ⟨hfind, hleast⟩ := find?_eq_of_head?_sortedBy h
  rw [hall, List.find?_map] at hfind
  obtain ⟨pair, hfound, rfl⟩ := Option.map_eq_some_iff.mp hfind
  obtain ⟨i, hpair, -, hbefore⟩ := exists_of_find?_finitePairs hfound
  refine ⟨i, pair, ⟨hpair, fun j other hother => ?_, fun j hj other hother => ?_⟩,
    rfl⟩
  · have hle : (rankPair pair).score ≤ (rankPair other).score :=
      score_le_of_scoreKey_le (hmem hpair) (hmem hother)
        (hleast _ (hmem hother))
    exact hle
  · have hne : scoreKey (rankPair other) ≠ scoreKey (rankPair pair) :=
      beq_eq_false_iff_ne.mp (hbefore j hj other hother)
    have hlt : (rankPair pair).score < (rankPair other).score :=
      score_lt_of_scoreKey_lt (hmem hpair) (hmem hother)
        (lt_of_le_of_ne (hleast _ (hmem hother)) hne.symm)
    exact hlt

/-- Whatever is proposed by the brackets, the first of them or the ranking. -/
theorem exists_finitePairAt {proposed : Float × Float}
    (h : proposed ∈ ((finitePairs sampled).filter isCrossing).map points
      ∨ (firstPromising sampled).map points = some proposed
      ∨ proposed ∈ (sortedBy scoreKey (candidates sampled)).map
        (fun pair => (pair.a, pair.b))) :
    ∃ i pair, FinitePairAt sampled i pair ∧ proposed = points pair := by
  have hpairs : ∃ pair ∈ finitePairs sampled, proposed = points pair := by
    rcases h with h | h | h
    · obtain ⟨pair, hmem, rfl⟩ := List.mem_map.mp h
      exact ⟨pair, List.mem_of_mem_filter hmem, rfl⟩
    · obtain ⟨pair, hfound, rfl⟩ := Option.map_eq_some_iff.mp h
      exact ⟨pair, List.mem_of_find?_eq_some hfound, rfl⟩
    · obtain ⟨best, hbest, rfl⟩ := List.mem_map.mp h
      rw [(sortedBy_perm _ _).mem_iff, candidates_eq] at hbest
      obtain ⟨pair, hmem, rfl⟩ := List.mem_map.mp hbest
      exact ⟨pair, List.mem_of_mem_filter hmem, rfl⟩
  obtain ⟨pair, hmem, rfl⟩ := hpairs
  obtain ⟨i, hposition⟩ := mem_finitePairs_iff.mp hmem
  exact ⟨i, pair, hposition, rfl⟩

theorem proposalsAgree (sampled : List Sample) :
    ProposalsAgree sampled (((finitePairs sampled).filter isCrossing).map points)
      ((firstPromising sampled).map points)
      (sortedBy scoreKey (candidates sampled))
      (((firstPromising sampled).map points).or
        ((sortedBy scoreKey (candidates sampled)).head?.map fun pair =>
          (pair.a, pair.b))) where
  nonempty h := by
    refine List.map_eq_nil_iff.mpr (List.filter_eq_nil_iff.mpr fun pair hpair => ?_)
    have hskipped := List.find?_eq_none.mp (Option.map_eq_none_iff.mp h) pair hpair
    exact fun hcrosses => hskipped (Bool.or_eq_true_iff.mpr (.inl hcrosses))
  first _ := exists_isFirstCrossing
  neighbours _ := exists_finitePairAt
  seeds_eq bracket h := by rw [h, Option.some_or]
  seeds_none h := by
    have hall := candidates_of_firstPromising (Option.map_eq_none_iff.mp h)
    rw [h, Option.none_or, Option.map_eq_none_iff, List.head?_eq_none_iff,
      ← List.length_eq_zero_iff, (sortedBy_perm _ _).length_eq, hall,
      List.length_map, List.length_eq_zero_iff, List.eq_nil_iff_forall_not_mem]
    simp only [mem_finitePairs_iff, not_exists]
    exact forall_comm
  seeds_least h seeds hseeds := by
    have hall := candidates_of_firstPromising (Option.map_eq_none_iff.mp h)
    rw [h, Option.none_or] at hseeds
    obtain ⟨best, hbest, rfl⟩ := Option.map_eq_some_iff.mp hseeds
    exact exists_isLeastPair hall hbest

/-- **What a scan proposes agrees**, for any function and on any settings that are
accepted. -/
theorem proposalsAgree_scan (f : Float → Float) (scan : ScanSettings)
    (h : scan.validate = .ok ()) :
    ∃ sampled brackets bracket? ranked seeds?,
      samples f scan = .ok sampled ∧ scanBrackets f scan = .ok brackets
        ∧ findBracket f scan = .ok bracket? ∧ rankPairs f scan = .ok ranked
        ∧ secantSeeds f scan = .ok seeds?
        ∧ ProposalsAgree sampled brackets bracket? ranked seeds? := by
  have hsamples := samples_eq_ok (f := f) h
  have hbracket := findBracket_eq_ok hsamples
  have hranked := rankPairs_eq_ok hsamples
  exact ⟨_, _, _, _, _, hsamples, scanBrackets_eq_ok hsamples, hbracket, hranked,
    secantSeeds_eq_ok hbracket hranked, proposalsAgree _⟩

/-- A parabola without a root, of which the leftmost pair of least score is proposed,
and one that is zero at a sample to the left of its only change of sign. -/
theorem proposalsAgree_scan_parabolas :
    (findBracket (fun x => x * x + 1) ⟨-1, 1, 0.5⟩ = .ok none
        ∧ secantSeeds (fun x => x * x + 1) ⟨-1, 1, 0.5⟩ = .ok (some (-0.5, 0))
        ∧ ProposalsAgree
          [⟨-1, 2⟩, ⟨-0.5, 1.25⟩, ⟨0, 1⟩, ⟨0.5, 1.25⟩, ⟨1, 2⟩] [] none
          [⟨-0.5, 0, 2.25⟩, ⟨0, 0.5, 2.25⟩, ⟨-1, -0.5, 3.25⟩, ⟨0.5, 1, 3.25⟩]
          (some (-0.5, 0)))
      ∧ scanBrackets (fun x => (0.75 - x) * (x + 1)) ⟨-1, 1, 0.5⟩
        = .ok [(0.5, 1)]
      ∧ findBracket (fun x => (0.75 - x) * (x + 1)) ⟨-1, 1, 0.5⟩
        = .ok (some (-1, -0.5))
      ∧ ProposalsAgree
        [⟨-1, 0⟩, ⟨-0.5, 0.625⟩, ⟨0, 0.75⟩, ⟨0.5, 0.375⟩, ⟨1, -0.5⟩]
        [(0.5, 1)] (some (-1, -0.5))
        [⟨0.5, 1, 0.875⟩, ⟨0, 0.5, 1.125⟩, ⟨-0.5, 0, 1.375⟩]
        (some (-1, -0.5)) := by
  have agree : ∀ {f sampled brackets bracket? ranked},
      samples f ⟨-1, 1, 0.5⟩ = .ok sampled →
      scanBrackets f ⟨-1, 1, 0.5⟩ = .ok brackets →
      findBracket f ⟨-1, 1, 0.5⟩ = .ok bracket? →
      rankPairs f ⟨-1, 1, 0.5⟩ = .ok ranked →
      ProposalsAgree sampled brackets bracket? ranked
        (bracket?.or (ranked.head?.map fun pair => (pair.a, pair.b))) := by
    intro f sampled brackets bracket? ranked hsamples hbrackets hbracket hranked
    have h := proposalsAgree_scan f ⟨-1, 1, 0.5⟩ rfl
    rw [hsamples, hbrackets, hbracket, hranked,
      secantSeeds_eq_ok hbracket hranked] at h
    obtain ⟨_, _, _, _, _, ⟨⟩, ⟨⟩, ⟨⟩, ⟨⟩, ⟨⟩, h⟩ := h
    exact h
  have hsamples : samples (fun x => x * x + 1) ⟨-1, 1, 0.5⟩
      = .ok [⟨-1, 2⟩, ⟨-0.5, 1.25⟩, ⟨0, 1⟩, ⟨0.5, 1.25⟩, ⟨1, 2⟩] := by
    decide +kernel
  have hbracket : findBracket (fun x => x * x + 1) ⟨-1, 1, 0.5⟩ = .ok none := by
    decide +kernel
  have hranked : rankPairs (fun x => x * x + 1) ⟨-1, 1, 0.5⟩
      = .ok [⟨-0.5, 0, 2.25⟩, ⟨0, 0.5, 2.25⟩, ⟨-1, -0.5, 3.25⟩, ⟨0.5, 1, 3.25⟩] :=
    (rankPairs_eq_ok_iff hsamples).mpr
      ⟨by decide +kernel, by decide +kernel, by decide +kernel⟩
  have hsamples' : samples (fun x => (0.75 - x) * (x + 1)) ⟨-1, 1, 0.5⟩
      = .ok [⟨-1, 0⟩, ⟨-0.5, 0.625⟩, ⟨0, 0.75⟩, ⟨0.5, 0.375⟩, ⟨1, -0.5⟩] := by
    decide +kernel
  have hbrackets' : scanBrackets (fun x => (0.75 - x) * (x + 1)) ⟨-1, 1, 0.5⟩
      = .ok [(0.5, 1)] := by decide +kernel
  have hbracket' : findBracket (fun x => (0.75 - x) * (x + 1)) ⟨-1, 1, 0.5⟩
      = .ok (some (-1, -0.5)) := by decide +kernel
  have hranked' : rankPairs (fun x => (0.75 - x) * (x + 1)) ⟨-1, 1, 0.5⟩
      = .ok [⟨0.5, 1, 0.875⟩, ⟨0, 0.5, 1.125⟩, ⟨-0.5, 0, 1.375⟩] :=
    (rankPairs_eq_ok_iff hsamples').mpr
      ⟨by decide +kernel, by decide +kernel, by decide +kernel⟩
  exact ⟨⟨hbracket, secantSeeds_eq_ok hbracket hranked,
      agree hsamples (by decide +kernel) hbracket hranked⟩,
    hbrackets', hbracket', agree hsamples' hbrackets' hbracket' hranked'⟩

end Proposals

end Stepwise
