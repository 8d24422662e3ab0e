import Stepwise.Proofs.Roots.Estimates
import Stepwise.Proofs.Roots.Failure

/-!
# Brackets that contain the next one

A bracketing method puts its estimate into the bracket and goes on with one of the
two parts. If the estimate is inside, then the next bracket is contained in the one
before, whatever the rule is (`contains_of_narrows`); so all depends on where the
estimates are.

Midpoints stay inside if the width of the bracket does not overflow. The width only
shrinks from round to round, so for a whole bisection it is enough to look at the
seeds (`isBounded_of_mem`); and if the distance of the seeds overflows, already the
first estimate is infinite. Chords stay inside up to rounding: the estimate is as
close to the exact crossing as `chordSlack` says, and it is inside if the crossing is
not so close to an end (`findRoot_enclosure`).
-/

namespace Stepwise

open Double

/-! ## Where the estimate is -/

/-- The round recorded a bracket with its estimate inside. -/
def Iteration.IsInside : Iteration → Prop
  | .bracket _ a b c _ _ _ _ => a ≤ c ∧ c ≤ b
  | _ => False

/-- The bracket of a round contains the bracket of another. -/
def Iteration.Contains : Iteration → Iteration → Prop
  | .bracket _ a b _ _ _ _ _, .bracket _ a' b' _ _ _ _ _ => a ≤ a' ∧ b' ≤ b
  | _, _ => False

instance Iteration.decidableIsInside :
    (step : Iteration) → Decidable step.IsInside
  | .bracket _ a b c _ _ _ _ => inferInstanceAs (Decidable (a ≤ c ∧ c ≤ b))
  | .newton .. | .secant .. => .isFalse not_false

instance Iteration.decidableContains :
    (step step' : Iteration) → Decidable (step.Contains step')
  | .bracket _ a b _ _ _ _ _, .bracket _ a' b' _ _ _ _ _ =>
    inferInstanceAs (Decidable (a ≤ a' ∧ b' ≤ b))
  | .newton .., _ | .secant .., _ | .bracket .., .newton ..
  | .bracket .., .secant .. => .isFalse not_false

/-- **A bracket of bounded width**: finite ends in order, whose difference does not
overflow. -/
def Iteration.IsBounded : Iteration → Prop
  | .bracket _ a b _ _ _ _ _ =>
    a.isFinite = true ∧ b.isFinite = true ∧ a ≤ b ∧ (b - a).isFinite = true
  | _ => False

/-- **Seeds whose distance does not overflow.** Seeds of another form than a
bracket have none, and make no rounds. -/
def Seeds.HasFiniteWidth : Seeds → Prop
  | .bracket a b => (b - a).isFinite = true
  | _ => True

instance Seeds.decidableHasFiniteWidth :
    (seeds : Seeds) → Decidable seeds.HasFiniteWidth
  | .bracket a b => inferInstanceAs (Decidable ((b - a).isFinite = true))
  | .single _ | .pair _ _ => .isTrue trivial

/-- **An estimate that is close to the crossing** of the chord. The crossing lies
between the ends, and the estimate does if the crossing is not too close to one. -/
structure IsNearCrossing (a b c fa fb : Float) : Prop where
  between : chordCrossing a b fa fb ∈ Set.uIcc (toRat a) (toRat b)
  close : |toRat c - chordCrossing a b fa fb| ≤ chordSlack a b fa fb
  inside : toRat a + chordSlack a b fa fb ≤ chordCrossing a b fa fb →
    chordCrossing a b fa fb + chordSlack a b fa fb ≤ toRat b → a ≤ c ∧ c ≤ b

/-- The estimate of the round is close to the crossing, if nothing overflows. -/
def Iteration.FollowsChord : Iteration → Prop
  | .bracket _ a b c fa fb _ _ =>
    a.isFinite = true → b.isFinite = true → (fb - fa).isFinite = true →
      c.isFinite = true → IsNearCrossing a b c fa fb
  | _ => False

/-! ## One round -/

section Round

variable {f : Float → Float} {rule : BracketRule} {tolerance : Float}
  {step step' : Iteration}

/-- **An estimate inside a bracket** makes the next one part of it. -/
theorem contains_of_narrows (h : rule.Narrows step step')
    (hinside : step.IsInside) : step.Contains step' := by
  cases step with
  | bracket number a b c fa fb fc error =>
    obtain ⟨hleft, hright⟩ := hinside
    cases step' with
    | bracket number' a' b' c' fa' fb' fc' error' =>
      obtain ⟨-, rfl, rfl, -⟩ | ⟨-, rfl, rfl, -⟩ := h
      · exact ⟨hleft, (le_self_of_le hright).2⟩
      · exact ⟨(le_self_of_le hleft).1, hright⟩
    | _ => exact h.elim (fun h => h.2.elim) fun h => h.2.elim
  | _ => exact hinside.elim

/-- **A midpoint is inside** a bracket of bounded width. -/
theorem isInside_of_isBounded
    (hsound : BracketRule.midpoint.Sound f tolerance step)
    (hbounded : step.IsBounded) : step.IsInside := by
  cases step with
  | bracket number a b c fa fb fc error =>
    obtain ⟨ha, hb, hab, hwidth⟩ := hbounded
    obtain rfl : c = a + (b - a) / 2 := hsound.point
    exact (midpoint_mem ha hb hab hwidth).2
  | _ => exact hbounded.elim

/-- **The next bracket of a bisection** is of bounded width again. -/
theorem isBounded_of_narrows
    (hsound : BracketRule.midpoint.Sound f tolerance step)
    (h : BracketRule.midpoint.Narrows step step')
    (hbounded : step.IsBounded) : step'.IsBounded := by
  cases step with
  | bracket number a b c fa fb fc error =>
    obtain ⟨ha, hb, hab, hwidth⟩ := hbounded
    obtain rfl : c = a + (b - a) / 2 := hsound.point
    obtain ⟨hc, hleft, hright⟩ := midpoint_mem ha hb hab hwidth
    cases step' with
    | bracket number' a' b' c' fa' fb' fc' error' =>
      obtain ⟨-, rfl, rfl, -⟩ | ⟨-, rfl, rfl, -⟩ := h
      · exact ⟨hc, hb, hright, isFinite_sub_of_mem ha hb hc hb hleft hright
          (le_self_of_le hright).2 hwidth⟩
      · exact ⟨ha, hc, hleft, isFinite_sub_of_mem ha hb ha hc
          (le_self_of_le hleft).1 hleft hright hwidth⟩
    | _ => exact h.elim (fun h => h.2.elim) fun h => h.2.elim
  | _ => exact hbounded.elim

/-- **The estimate of a chord** follows the crossing. -/
theorem followsChord_of_sound
    (hsound : BracketRule.chord.Sound f tolerance step) :
    step.FollowsChord := by
  cases step with
  | bracket number a b c fa fb fc error =>
    obtain ⟨hfa, hfb, -⟩ := hsound.finite
    obtain rfl : c = (a * fb - b * fa) / (fb - fa) := hsound.point
    intro ha hb hdenominator hc
    exact {
      between := chordCrossing_mem_uIcc hfa hfb hsound.opposite a b
      close := abs_chord_sub_crossing_le hfa hfb hsound.opposite ha hb
        hdenominator hc
      inside := chord_mem hfa hfb hsound.opposite ha hb hdenominator hc }
  | _ => exact hsound.elim

end Round

/-! ## Runs -/

section Runs

variable (f : Float → Float) (rule : BracketRule) (settings : RootSettings)

/-- All rounds that are completed are in good order. -/
theorem recorded_completedRounds (a b : Float) :
    Recorded (rule.StartsFromSeeds a b) (rule.Sound f settings.tolerance)
      rule.Narrows (completedRounds f rule.method (.bracket a b) settings) := by
  rw [completedRounds, search_bracketing]
  exact (governs_bracketSearch f rule a b settings).recorded.mono
    (fun _ => startsFromSeeds_of_first f rule a b settings)
    (fun _ hsound => hsound) fun _ _ => narrows_of_next

/-- A search that makes rounds started from a bracket. -/
theorem exists_bracket_of_mem {seeds : Seeds} {step : Iteration}
    (h : step ∈ completedRounds f rule.method seeds settings) :
    ∃ a b, seeds = .bracket a b := by
  cases seeds with
  | bracket a b => exact ⟨a, b, rfl⟩
  | _ => cases rule <;> exact absurd h List.not_mem_nil

/-- A search that makes rounds started from finite seeds. -/
theorem isFinite_of_mem {a b : Float} {step : Iteration}
    (h : step ∈ completedRounds f rule.method (.bracket a b) settings) :
    a.isFinite = true ∧ b.isFinite = true := by
  by_contra hseeds
  rw [← Bool.and_eq_true, Bool.not_eq_true] at hseeds
  have hopen : openBracket f a b = .error (.invalidSeeds (.bracket a b)) := by
    unfold openBracket
    rw [hseeds]
    rfl
  have hnil : completedRounds f rule.method (.bracket a b) settings = [] := by
    rw [completedRounds, search_bracketing, bracketSearch, hopen]
    cases settings.validate <;> rfl
  rw [hnil] at h
  exact absurd h List.not_mem_nil

theorem sound_of_mem {seeds : Seeds} {step : Iteration}
    (h : step ∈ completedRounds f rule.method seeds settings) :
    rule.Sound f settings.tolerance step := by
  obtain ⟨a, b, rfl⟩ := exists_bracket_of_mem f rule settings h
  exact (recorded_completedRounds f rule settings a b).sound step h

/-- Each bracket of a run is narrowed to the next. -/
theorem isChain_narrows (seeds : Seeds) :
    (completedRounds f rule.method seeds settings).IsChain rule.Narrows := by
  cases seeds with
  | bracket a b => exact (recorded_completedRounds f rule settings a b).linked
  | _ => cases rule <;> exact .nil

variable {f settings}

/-- The bracket that a search starts from. -/
theorem isBounded_of_startsFromSeeds {a b : Float} {step : Iteration}
    (hwidth : (b - a).isFinite = true) (h : rule.StartsFromSeeds a b step) :
    step.IsBounded := by
  obtain ⟨hb, ha⟩ := isFinite_of_isFinite_sub hwidth
  obtain ⟨low, high, ⟨hlt, hseeds⟩, hstarts⟩ := h
  cases step with
  | bracket number a' b' c fa fb fc error =>
    obtain ⟨rfl, rfl, -⟩ := hstarts
    rcases hseeds with ⟨rfl, rfl⟩ | ⟨rfl, rfl⟩
    · exact ⟨ha, hb, Double.le_of_lt hlt, hwidth⟩
    · exact ⟨hb, ha, Double.le_of_lt hlt, (isFinite_sub_comm hb ha).mp hwidth⟩
  | _ => exact hstarts.elim

/-- **All brackets of a bisection** are of bounded width if the seeds are not too
far apart. -/
theorem isBounded_of_mem {seeds : Seeds} (hwidth : seeds.HasFiniteWidth) :
    ∀ step ∈ completedRounds f .bisection seeds settings, step.IsBounded := by
  -- along the chain, from the bracket between the seeds
  refine (List.IsChain.iff_mem.mp
    (isChain_narrows f .midpoint settings seeds)).induction _ _
    (fun step step' hlinked hbounded => ?_) fun hne => ?_
  · obtain ⟨hmem, -, hnarrows⟩ := hlinked
    exact isBounded_of_narrows (sound_of_mem f .midpoint settings hmem) hnarrows
      hbounded
  · obtain ⟨a, b, rfl⟩ :=
      exists_bracket_of_mem f .midpoint settings (List.head_mem hne)
    exact isBounded_of_startsFromSeeds .midpoint hwidth
      ((recorded_completedRounds f .midpoint settings a b).first _
        (List.head_mem_head? hne))

/-- **The first estimate of a bisection** is outside if the distance of the seeds
overflows. -/
theorem not_isInside_of_startsFromSeeds {a b : Float} {step : Iteration}
    (ha : a.isFinite = true) (hb : b.isFinite = true)
    (hwidth : (b - a).isFinite = false)
    (hsound : BracketRule.midpoint.Sound f settings.tolerance step)
    (h : BracketRule.midpoint.StartsFromSeeds a b step) : ¬ step.IsInside := by
  obtain ⟨low, high, ⟨hlt, hseeds⟩, hstarts⟩ := h
  cases step with
  | bracket number a' b' c fa fb fc error =>
    obtain ⟨rfl, rfl, -⟩ := hstarts
    obtain rfl : c = a' + (b' - a') / 2 := hsound.point
    rintro ⟨-, hle⟩
    rcases hseeds with ⟨rfl, rfl⟩ | ⟨rfl, rfl⟩
    · exact not_midpoint_le ha hb (Double.le_of_lt hlt) hwidth hle
    · have hwidth' : (b' - a').isFinite = false := by
        rw [← Bool.not_eq_true, isFinite_sub_comm ha hb, hwidth]
        exact Bool.false_ne_true
      exact not_midpoint_le hb ha (Double.le_of_lt hlt) hwidth' hle
  | _ => exact hstarts.elim

variable (f settings) (seeds : Seeds)

/-- **How the bracketing methods enclose a root.** An estimate inside its bracket
makes the next bracket part of it. In a bisection all estimates are inside, and each
bracket contains the next, if the distance of the seeds does not overflow; the first
estimate is outside if it does. In false position the estimates follow the crossings
of the chords, and they are inside if these are not too close to an end. -/
theorem findRoot_enclosure :
    (∀ rule : BracketRule,
      (completedRounds f rule.method seeds settings).IsChain
        fun step step' => step.IsInside → step.Contains step')
      ∧ (seeds.HasFiniteWidth →
        (∀ step ∈ completedRounds f .bisection seeds settings, step.IsInside)
        ∧ (completedRounds f .bisection seeds settings).IsChain
          Iteration.Contains)
      ∧ (¬ seeds.HasFiniteWidth →
        ∀ step ∈ (completedRounds f .bisection seeds settings).head?,
          ¬ step.IsInside)
      ∧ ∀ step ∈ completedRounds f .falsePosition seeds settings,
        step.FollowsChord := by
  have hcontains : ∀ rule : BracketRule,
      (completedRounds f rule.method seeds settings).IsChain
        fun step step' => step.IsInside → step.Contains step' := fun rule =>
    (isChain_narrows f rule settings seeds).imp fun _ _ => contains_of_narrows
  refine ⟨hcontains, fun hwidth => ?_, fun hwidth step hfirst => ?_,
    fun step hstep => ?_⟩
  · have hinside : ∀ step ∈ completedRounds f .bisection seeds settings,
        step.IsInside := fun step hstep =>
      isInside_of_isBounded (sound_of_mem f .midpoint settings hstep)
        (isBounded_of_mem hwidth step hstep)
    exact ⟨hinside, (hcontains .midpoint).imp_of_mem_imp
      fun step _ hstep _ hlinked => hlinked (hinside step hstep)⟩
  · have hmem := List.mem_of_mem_head? hfirst
    obtain ⟨a, b, rfl⟩ := exists_bracket_of_mem f .midpoint settings hmem
    obtain ⟨ha, hb⟩ := isFinite_of_mem f .midpoint settings hmem
    have recorded := recorded_completedRounds f .midpoint settings a b
    exact not_isInside_of_startsFromSeeds ha hb (Bool.not_eq_true _ ▸ hwidth)
      (recorded.sound step hmem) (recorded.first step hfirst)
  · exact followsChord_of_sound (sound_of_mem f .chord settings hstep)

end Runs

/-- The square root of two between `1` and `2`, and a pole between seeds whose
distance overflows. -/
theorem findRoot_enclosure_square :
    ((completedRounds (fun x => x * x - 2) .bisection (.bracket 1 2)
          ⟨1e-6, 3, 1e-6⟩).length = 3
        ∧ (completedRounds (fun x => x * x - 2) .bisection (.bracket 1 2)
          ⟨1e-6, 3, 1e-6⟩).IsChain Iteration.Contains)
      ∧ (∃ step, completedRounds (fun x => 1.7e308 / x) .bisection
            (.bracket (-1.7e308) 1.7e308) {} = [step]
          ∧ ¬ step.IsInside)
      ∧ IsNearCrossing 1 2 (4 / 3) (-1) 2 := by
  obtain ⟨-, hmidpoints, -, hchords⟩ :=
    findRoot_enclosure (fun x => x * x - 2) ⟨1e-6, 3, 1e-6⟩ (.bracket 1 2)
  obtain ⟨-, -, houtside, -⟩ :=
    findRoot_enclosure (fun x => 1.7e308 / x) {} (.bracket (-1.7e308) 1.7e308)
  have hlength : (completedRounds (fun x => 1.7e308 / x) .bisection
      (.bracket (-1.7e308) 1.7e308) {}).length = 1 := by decide +kernel
  obtain ⟨step, hstep⟩ := List.length_eq_one_iff.mp hlength
  have hwide : ¬ (Seeds.bracket (-1.7e308) 1.7e308).HasFiniteWidth := by
    decide +kernel
  have hfirst : step ∈ (completedRounds (fun x => 1.7e308 / x) .bisection
      (.bracket (-1.7e308) 1.7e308) {}).head? := by
    rw [hstep]
    rfl
  have hchord : Iteration.bracket 1 1 2 (4 / 3) (-1) 2 (4 / 3 * (4 / 3) - 2) none
      ∈ completedRounds (fun x => x * x - 2) .falsePosition (.bracket 1 2)
        ⟨1e-6, 3, 1e-6⟩ := by decide +kernel
  exact ⟨⟨by decide +kernel, (hmidpoints (by decide +kernel)).2⟩,
    ⟨step, hstep, houtside hwide step hfirst⟩,
    hchords _ hchord (by decide +kernel) (by decide +kernel) (by decide +kernel)
      (by decide +kernel)⟩

/-- **Estimates outside their brackets.** The distance of `-1.7e308` and `1.7e308`
overflows, so bisection puts its first estimate at infinity. False position of
`x ^ 7 - 2` from `0.7` to `1e7` is off by rounding: its first estimate is less than
`0.7`, and the next bracket is not contained in the first. -/
theorem not_isInside_completedRounds :
    (¬ ∀ step ∈ completedRounds (fun x => 1.7e308 / x) .bisection
        (.bracket (-1.7e308) 1.7e308) {}, step.IsInside)
      ∧ (¬ ∀ step ∈ completedRounds (fun x => x * x * x * x * x * x * x - 2)
        .falsePosition (.bracket 0.7 10000000) ⟨1e-6, 2, 1e-6⟩, step.IsInside)
      ∧ ¬ (completedRounds (fun x => x * x * x * x * x * x * x - 2)
        .falsePosition (.bracket 0.7 10000000) ⟨1e-6, 2, 1e-6⟩).IsChain
          Iteration.Contains := by
  decide +kernel

end Stepwise
