import Stepwise.Proofs.Number.DoubleTotal
import Stepwise.Proofs.Roots.Grid

/-!
# Ranked pairs of samples

Where the sign does not change, the pairs of neighbouring samples are sorted by their
score, the sum of the magnitudes of the two values. What is sorted by is a key in the
order of all bit patterns, and scores are of positive sign, so this is their usual
order, also of a score that overflows (`Double.totalKey_le_iff`).

That pairs of one score stay in order is said by the pairs of that score: they are the
same list before and after (`filter_sortedBy`). So no pair before the first of the
ranking is as good (`find?_eq_of_head?_sortedBy`), and there is one ranking only
(`IsRanking.unique`).
-/

namespace Stepwise

open Double

/-! ## Sorting by a key -/

section Sorting

variable {α : Type} (key : α → ℤ) (l : List α)

/-- A list sorted by a key. -/
def sortedBy : List α :=
  l.mergeSort fun a b => decide (key a ≤ key b)

theorem sortedBy_perm : (sortedBy key l).Perm l :=
  List.mergeSort_perm l _

theorem key_trans (a b c : α) (hab : decide (key a ≤ key b) = true)
    (hbc : decide (key b ≤ key c) = true) : decide (key a ≤ key c) = true :=
  decide_eq_true ((of_decide_eq_true hab).trans (of_decide_eq_true hbc))

theorem key_total (a b : α) :
    (decide (key a ≤ key b) || decide (key b ≤ key a)) = true := by
  rw [Bool.or_eq_true, decide_eq_true_iff, decide_eq_true_iff]
  exact le_total _ _

theorem pairwise_sortedBy : (sortedBy key l).Pairwise fun a b => key a ≤ key b :=
  (List.pairwise_mergeSort (key_trans key) (key_total key) l).imp
    of_decide_eq_true

/-- **Sorting is stable**: what has one key stays in order. -/
theorem filter_sortedBy (k : ℤ) :
    (sortedBy key l).filter (fun a => key a == k)
      = l.filter fun a => key a == k := by
  have hkey : ∀ a ∈ l.filter (fun a => key a == k), key a = k :=
    fun a ha => beq_iff_eq.mp (List.mem_filter.mp ha).2
  -- the elements of one key are in order, so they are found as they are
  have hsublist : (l.filter fun a => key a == k).Sublist (sortedBy key l) := by
    refine List.sublist_mergeSort (key_trans key) (key_total key) ?_
      List.filter_sublist
    refine List.pairwise_of_forall_mem_list fun a ha b hb => ?_
    rw [hkey a ha, hkey b hb, decide_eq_true_iff]
  have hfiltered := hsublist.filter fun a => key a == k
  simp only [List.filter_filter, Bool.and_self] at hfiltered
  exact (hfiltered.eq_of_length
    ((sortedBy_perm key l).filter _).length_eq.symm).symm

variable {key l}

/-- The head of a sorted list has the least key. -/
theorem key_head_le {a b : α} (h : (a :: l).Pairwise fun a b => key a ≤ key b)
    (hb : b ∈ a :: l) : key a ≤ key b := by
  rcases List.mem_cons.mp hb with rfl | hb
  · exact le_rfl
  · exact List.rel_of_pairwise_cons h hb

/-- **The first of a sorted list** has the least key, and is the first that has. -/
theorem find?_eq_of_head?_sortedBy {a : α} (h : (sortedBy key l).head? = some a) :
    l.find? (fun b => key b == key a) = some a ∧ ∀ b ∈ l, key a ≤ key b := by
  obtain ⟨rest, hsorted⟩ := List.head?_eq_some_iff.mp h
  constructor
  · rw [← List.head?_filter, ← filter_sortedBy, List.head?_filter, hsorted,
      List.find?_cons_of_pos]
    exact beq_self_eq_true (key a)
  · intro b hb
    have hpairwise := pairwise_sortedBy key l
    rw [← (sortedBy_perm key l).mem_iff] at hb
    rw [hsorted] at hpairwise hb
    exact key_head_le hpairwise hb

section OneList

variable {l' : List α}

theorem mem_iff_of_filter_eq
    (h : ∀ k, l.filter (fun a => key a == k) = l'.filter fun a => key a == k)
    (a : α) : a ∈ l ↔ a ∈ l' := by
  have hfilter : ∀ l : List α, a ∈ l.filter (fun b => key b == key a) ↔ a ∈ l :=
    fun l => by rw [List.mem_filter, beq_self_eq_true, and_iff_left rfl]
  rw [← hfilter l, ← hfilter l', h]

/-- **A sorted list is known** from what it has of each key, and in which order. -/
theorem eq_of_filter_eq (hl : l.Pairwise fun a b => key a ≤ key b)
    (hl' : l'.Pairwise fun a b => key a ≤ key b)
    (h : ∀ k, l.filter (fun a => key a == k) = l'.filter fun a => key a == k) :
    l = l' := by
  have hmem := mem_iff_of_filter_eq h
  -- both heads have the least key, and are the first of what has it
  induction l generalizing l' with
  | nil =>
    cases l' with
    | nil => rfl
    | cons b l' => exact absurd ((hmem b).mpr List.mem_cons_self) List.not_mem_nil
  | cons a l ih =>
    cases l' with
    | nil => exact absurd ((hmem a).mp List.mem_cons_self) List.not_mem_nil
    | cons b l' =>
      have hkey : key b = key a :=
        le_antisymm (key_head_le hl' ((hmem a).mp List.mem_cons_self))
          (key_head_le hl ((hmem b).mpr List.mem_cons_self))
      have hheads := h (key a)
      simp only [List.filter_cons, hkey, beq_self_eq_true, if_true] at hheads
      obtain ⟨rfl, -⟩ := List.cons.inj hheads
      have htails : ∀ k, l.filter (fun a => key a == k)
          = l'.filter fun a => key a == k := by
        intro k
        have hlists := h k
        rw [List.filter_cons, List.filter_cons] at hlists
        split at hlists
        · exact (List.cons.inj hlists).2
        · exact hlists
      rw [ih hl.of_cons hl'.of_cons htails (mem_iff_of_filter_eq htails)]

end OneList

end Sorting

/-! ## Rankings -/

/-- **The pairs to be ranked**: neighbouring samples, from left to right, with two
finite values of which none counts as a root, and the sum of their magnitudes. -/
def candidates (sampled : List Sample) : List RankedPair :=
  ((sampled.zip (sampled.drop 1)).filter fun (l, r) =>
    (l.fx.isFinite && decide (rootEpsilon ≤ l.fx.abs))
      && (r.fx.isFinite && decide (rootEpsilon ≤ r.fx.abs))).map
    fun (l, r) => ⟨l.x, r.x, l.fx.abs + r.fx.abs⟩

/-- **What a ranking is**: the pairs to be ranked, sorted by score, those of one score
in the order in which they were. -/
structure IsRanking (sampled : List Sample) (ranked : List RankedPair) : Prop where
  perm : ranked.Perm (candidates sampled)
  sorted : ranked.Pairwise fun l r => l.score ≤ r.score
  stable : ∀ pair ∈ ranked,
    ranked.filter (fun other => other.score == pair.score)
      = (candidates sampled).filter fun other => other.score == pair.score

/-- The place of a score. -/
def scoreKey (pair : RankedPair) : ℤ :=
  totalKey pair.score

theorem candidates_eq (sampled : List Sample) :
    candidates sampled
      = ((finitePairs sampled).filter avoidsRoot).map rankPair := by
  unfold finitePairs candidates
  rw [List.filter_filter]
  refine congrArg (List.map rankPair) (List.filter_congr fun pair _ => ?_)
  change ((_ && _) && (_ && _)) = ((_ && _) && (_ && _))
  ac_rfl

theorem rankPairs_eq_ok {f : Float → Float} {scan : ScanSettings}
    {sampled : List Sample} (h : samples f scan = .ok sampled) :
    rankPairs f scan = .ok (sortedBy scoreKey (candidates sampled)) := by
  unfold rankPairs
  rw [h, candidates_eq]
  rfl

/-- The score of a pair of finite values is of positive sign. -/
theorem isMagnitude_of_mem_candidates {sampled : List Sample} {pair : RankedPair}
    (h : pair ∈ candidates sampled) : IsMagnitude pair.score.toModel.unpack := by
  obtain ⟨⟨l, r⟩, hmem, rfl⟩ := List.mem_map.mp h
  have hvalues := (List.mem_filter.mp hmem).2
  rw [Bool.and_eq_true, Bool.and_eq_true, Bool.and_eq_true] at hvalues
  exact isMagnitude_abs_add_abs hvalues.1.1 hvalues.2.1

section Scores

variable {sampled : List Sample} {l r : RankedPair} (hl : l ∈ candidates sampled)
  (hr : r ∈ candidates sampled)

include hl hr

/-- **Scores are ordered as their places are.** -/
theorem score_le_of_scoreKey_le (h : scoreKey l ≤ scoreKey r) :
    l.score ≤ r.score :=
  (totalKey_le_iff (isMagnitude_of_mem_candidates hl)
    (isMagnitude_of_mem_candidates hr)).mp h

theorem score_lt_of_scoreKey_lt (h : scoreKey l < scoreKey r) :
    l.score < r.score :=
  lt_of_totalKey_lt (isMagnitude_of_mem_candidates hl)
    (isMagnitude_of_mem_candidates hr) h

theorem score_beq :
    (l.score == r.score) = (scoreKey l == scoreKey r) :=
  Bool.eq_iff_iff.mpr ((totalKey_eq_iff (isMagnitude_of_mem_candidates hl)
    (isMagnitude_of_mem_candidates hr)).symm.trans beq_iff_eq.symm)

end Scores

theorem isRanking_sortedBy (sampled : List Sample) :
    IsRanking sampled (sortedBy scoreKey (candidates sampled)) := by
  have hperm := sortedBy_perm scoreKey (candidates sampled)
  refine ⟨hperm, ?_, fun pair hpair => ?_⟩
  · exact (pairwise_sortedBy scoreKey _).imp_of_mem fun hl hr hle =>
      score_le_of_scoreKey_le (hperm.mem_iff.mp hl) (hperm.mem_iff.mp hr) hle
  · rw [hperm.mem_iff] at hpair
    rw [List.filter_congr fun other hother =>
        score_beq (hperm.mem_iff.mp hother) hpair,
      filter_sortedBy]
    exact List.filter_congr fun other hother => (score_beq hother hpair).symm

/-- **There is one ranking only**, as its pairs are sorted and those of one score
are known. -/
theorem IsRanking.unique {sampled : List Sample} {ranked ranked' : List RankedPair}
    (h : IsRanking sampled ranked) (h' : IsRanking sampled ranked') :
    ranked = ranked' := by
  have hsorted : ∀ {ranked}, IsRanking sampled ranked →
      ranked.Pairwise fun l r => scoreKey l ≤ scoreKey r := fun h =>
    h.sorted.imp_of_mem fun hl hr hle =>
      (totalKey_le_iff (isMagnitude_of_mem_candidates (h.perm.mem_iff.mp hl))
        (isMagnitude_of_mem_candidates (h.perm.mem_iff.mp hr))).mpr hle
  have hfilter : ∀ {ranked}, IsRanking sampled ranked → ∀ k,
      ranked.filter (fun pair => scoreKey pair == k)
        = (candidates sampled).filter fun pair => scoreKey pair == k := by
    intro ranked h k
    by_cases hpair : ∃ pair ∈ candidates sampled, scoreKey pair = k
    · obtain ⟨pair, hpair, rfl⟩ := hpair
      have hkey : ∀ other ∈ candidates sampled,
          (scoreKey other == scoreKey pair) = (other.score == pair.score) :=
        fun other hother => (score_beq hother hpair).symm
      rw [List.filter_congr fun other hother =>
          hkey other (h.perm.mem_iff.mp hother),
        List.filter_congr hkey]
      exact h.stable pair (h.perm.mem_iff.mpr hpair)
    · have hnone : ∀ pair ∈ candidates sampled, ¬ (scoreKey pair == k) = true :=
        fun pair hmem hkey => hpair ⟨pair, hmem, beq_iff_eq.mp hkey⟩
      rw [List.filter_eq_nil_iff.mpr hnone,
        List.filter_eq_nil_iff.mpr fun pair hmem =>
          hnone pair (h.perm.mem_iff.mp hmem)]
  exact eq_of_filter_eq (hsorted h) (hsorted h') fun k =>
    (hfilter h k).trans (hfilter h' k).symm

/-- **The pairs of a scan are ranked as the one ranking of them.** -/
theorem rankPairs_eq_ok_iff {f : Float → Float} {scan : ScanSettings}
    {sampled : List Sample} (h : samples f scan = .ok sampled)
    {ranked : List RankedPair} :
    rankPairs f scan = .ok ranked ↔ IsRanking sampled ranked := by
  rw [rankPairs_eq_ok h, Except.ok.injEq]
  constructor
  · rintro rfl
    exact isRanking_sortedBy sampled
  · exact (isRanking_sortedBy sampled).unique

/-- **Ranking neither loses nor invents a pair**, of any function and on any settings
that are accepted. -/
theorem isRanking_rankPairs (f : Float → Float) (scan : ScanSettings)
    (h : scan.validate = .ok ()) :
    ∃ sampled ranked, samples f scan = .ok sampled
      ∧ rankPairs f scan = .ok ranked ∧ IsRanking sampled ranked :=
  ⟨_, _, samples_eq_ok h, rankPairs_eq_ok (samples_eq_ok h),
    isRanking_sortedBy _⟩

/-- The pairs of a parabola that is zero at two samples: those that touch a root are
left out, and of the others there are two of each score. -/
theorem isRanking_rankPairs_square :
    rankPairs (fun x => x * x - 0.0625) ⟨-1, 1, 0.25⟩
        = .ok [⟨-0.75, -0.5, 0.6875⟩, ⟨0.5, 0.75, 0.6875⟩, ⟨-1, -0.75, 1.4375⟩,
          ⟨0.75, 1, 1.4375⟩]
      ∧ IsRanking
        [⟨-1, 0.9375⟩, ⟨-0.75, 0.5⟩, ⟨-0.5, 0.1875⟩, ⟨-0.25, 0⟩, ⟨0, -0.0625⟩,
          ⟨0.25, 0⟩, ⟨0.5, 0.1875⟩, ⟨0.75, 0.5⟩, ⟨1, 0.9375⟩]
        [⟨-0.75, -0.5, 0.6875⟩, ⟨0.5, 0.75, 0.6875⟩, ⟨-1, -0.75, 1.4375⟩,
          ⟨0.75, 1, 1.4375⟩] := by
  have hsamples : samples (fun x => x * x - 0.0625) ⟨-1, 1, 0.25⟩
      = .ok [⟨-1, 0.9375⟩, ⟨-0.75, 0.5⟩, ⟨-0.5, 0.1875⟩, ⟨-0.25, 0⟩, ⟨0, -0.0625⟩,
          ⟨0.25, 0⟩, ⟨0.5, 0.1875⟩, ⟨0.75, 0.5⟩, ⟨1, 0.9375⟩] := by
    decide +kernel
  have hranked : rankPairs (fun x => x * x - 0.0625) ⟨-1, 1, 0.25⟩
      = .ok [⟨-0.75, -0.5, 0.6875⟩, ⟨0.5, 0.75, 0.6875⟩, ⟨-1, -0.75, 1.4375⟩,
          ⟨0.75, 1, 1.4375⟩] :=
    (rankPairs_eq_ok_iff hsamples).mpr
      ⟨by decide +kernel, by decide +kernel, by decide +kernel⟩
  have h := isRanking_rankPairs (fun x => x * x - 0.0625) ⟨-1, 1, 0.25⟩ rfl
  rw [hsamples, hranked] at h
  obtain ⟨_, _, ⟨⟩, ⟨⟩, hranking⟩ := h
  exact ⟨hranked, hranking⟩

end Stepwise
