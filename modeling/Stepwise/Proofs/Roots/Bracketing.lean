import Mathlib.Logic.Basic
import Stepwise.Roots.Finder
import Stepwise.Proofs.Number.DoubleOrder
import Stepwise.Proofs.Roots.Rounds

/-!
# Runs of the bracketing methods

Bisection and false position keep a bracket whose ends carry values of opposite
sign, neither of them close to zero, together with these values. A round never
looks at an old end again, so what keeps the values right is that the end and
its value are replaced together (`Bracket.IsSound.narrow`).

What one round does is `outcome_bracketRound`. From it whole runs follow, for any
function: they are recorded in good order, each bracket being the one before
with an end replaced, they end as their result says, and they do not depend on
the order of the seeds (`findRoot_bracketing`).
-/

namespace Stepwise

/-! ## Recorded brackets -/

/-- **Where a rule places the estimate** `c` between `a` and `b`: at their
midpoint, or where the chord between the values at `a` and `b` crosses zero. -/
def BracketRule.Places (a b c fa fb : Float) : BracketRule → Prop
  | .midpoint => c = a + (b - a) / 2
  | .chord => c = (a * fb - b * fa) / (fb - fa)

/-- **What a rule knows of the error** of the estimate `c`: half the bracket, or
the distance from the estimate before, if there was one. -/
def BracketRule.Measures (a b c : Float) (previous error : Option Float) :
    BracketRule → Prop
  | .midpoint => error = some ((b - a) / 2)
  | .chord => error = previous.map fun p => (c - p).abs

/-- **What a recorded bracket shows**: the function at both ends and at the
estimate, where it is finite, values at the ends of which exactly one is
negative and none close to zero, and the estimate of the rule. -/
structure BracketRule.Shows (rule : BracketRule) (f : Float → Float)
    (tolerance a b c fa fb fc : Float) : Prop where
  left : fa = f a
  right : fb = f b
  inner : fc = f c
  finite : fa.isFinite = true ∧ fb.isFinite = true ∧ fc.isFinite = true
  opposite : Xor (fa < 0) (fb < 0)
  large : ¬ fa.abs < tolerance ∧ ¬ fb.abs < tolerance
  point : rule.Places a b c fa fb

/-- The round recorded a bracket, and it shows what it should. -/
def BracketRule.Sound (rule : BracketRule) (f : Float → Float)
    (tolerance : Float) : Iteration → Prop
  | .bracket _ a b c fa fb fc _ => rule.Shows f tolerance a b c fa fb fc
  | _ => False

/-- The round worked on the bracket from `a` to `b`, the estimate before being
`previous`, if there was one. -/
def BracketRule.StartsFrom (rule : BracketRule) (a b : Float)
    (previous : Option Float) : Iteration → Prop
  | .bracket _ a' b' c _ _ _ error =>
    a' = a ∧ b' = b ∧ rule.Measures a' b' c previous error
  | _ => False

/-- **A bracket that is narrowed**: the estimate takes the place of the end
whose value has its sign, and the other end stays. -/
def BracketRule.Narrows (rule : BracketRule) : Iteration → Iteration → Prop
  | .bracket _ a b c fa fb fc _, step =>
    ((fa < 0 ↔ fc < 0) ∧ rule.StartsFrom c b (some c) step)
      ∨ ((fb < 0 ↔ fc < 0) ∧ rule.StartsFrom a c (some c) step)
  | _, _ => False

/-- Two points in increasing order. -/
def AreSorted (a b low high : Float) : Prop :=
  low < high ∧ ((low = a ∧ high = b) ∨ (low = b ∧ high = a))

/-- The round worked on the bracket between the seeds. -/
def BracketRule.StartsFromSeeds (rule : BracketRule) (a b : Float)
    (step : Iteration) : Prop :=
  ∃ low high, AreSorted a b low high ∧ rule.StartsFrom low high none step

/-- **Why a bracketing method refuses to start**: its settings make no sense, the
seeds are not two distinct finite points, the function is not finite at one of
them, or it has one sign at both and is close to zero at neither. -/
inductive BracketRefusal (f : Float → Float) (a b : Float)
    (settings : RootSettings) : RootError → Prop where
  | settings {fault : SettingsFault}
      (why : settings.validate = .error fault) :
      BracketRefusal f a b settings (.invalidSettings fault)
  | seeds (why : (a.isFinite && b.isFinite) = false ∨ (a == b) = true) :
      BracketRefusal f a b settings (.invalidSeeds (.bracket a b))
  | value {x : Float} (isSeed : x = a ∨ x = b)
      (why : (f x).isFinite = false) :
      BracketRefusal f a b settings (.nonFiniteValue x)
  | signs {low high : Float} (sorted : AreSorted a b low high)
      (accepted : settings.validate = .ok ())
      (same : f low < 0 ↔ f high < 0)
      (large : ¬ (f low).abs < settings.tolerance
        ∧ ¬ (f high).abs < settings.tolerance) :
      BracketRefusal f a b settings
        (.noSignChange low high (f low) (f high))

theorem sameSign_eq_true_iff {y z : Float} :
    sameSign y z = true ↔ (y < 0 ↔ z < 0) := by
  rw [sameSign, beq_iff_eq, decide_eq_decide]

/-! ## One round -/

/-- What holds of the bracket that a round works on. -/
structure Bracket.IsSound (f : Float → Float) (tolerance : Float)
    (s : Bracket) : Prop where
  left : s.fa = f s.a
  right : s.fb = f s.b
  finite : s.fa.isFinite = true ∧ s.fb.isFinite = true
  opposite : Xor (s.fa < 0) (s.fb < 0)
  large : ¬ s.fa.abs < tolerance ∧ ¬ s.fb.abs < tolerance

section Round

variable {f : Float → Float} {rule : BracketRule} {tolerance : Float}
  {a b : Float} {settings : RootSettings}

/-- The record of a round that was completed. -/
def Bracket.record (s : Bracket) (f : Float → Float) (rule : BracketRule)
    (number : Nat) : Iteration :=
  .bracket number s.a s.b (rule.point s) s.fa s.fb (f (rule.point s))
    (rule.error? s (rule.point s))

/-- **Narrowing keeps a bracket sound**, since the end and its value are replaced
together, and by a value of the same sign. -/
theorem Bracket.IsSound.narrow {s : Bracket} (h : s.IsSound f tolerance)
    {c : Float} (hfinite : (f c).isFinite = true)
    (hlarge : ¬ (f c).abs < tolerance) :
    (s.narrow c (f c)).IsSound f tolerance := by
  unfold Bracket.narrow
  split
  · next hsame =>
    rw [sameSign_eq_true_iff] at hsame
    have hopposite : Xor (f c < 0) (s.fb < 0) := by
      simpa only [hsame] using h.opposite
    exact ⟨rfl, h.right, ⟨hfinite, h.finite.2⟩, hopposite, hlarge, h.large.2⟩
  · next hsame =>
    rw [sameSign_eq_true_iff] at hsame
    exact ⟨h.left, rfl, ⟨h.finite.1, hfinite⟩, (xor_iff_not_iff _ _).mpr hsame,
      h.large.1, hlarge⟩

/-- What the bracketing methods say of their searches. -/
def bracketSpec (f : Float → Float) (rule : BracketRule) (a b : Float)
    (settings : RootSettings) : SearchSpec Bracket where
  Refused := BracketRefusal f a b settings
  AtSeed root := (root = a ∨ root = b) ∧ (f root).abs < settings.tolerance
  Starts s := AreSorted a b s.a s.b ∧ s.previous = none
  Inv := Bracket.IsSound f settings.tolerance
  Begins s := rule.StartsFrom s.a s.b s.previous
  Leaves step s := match step with
    | .bracket _ a b c fa fb fc _ => s.previous = some c
      ∧ (((fa < 0 ↔ fc < 0) ∧ s.a = c ∧ s.b = b)
        ∨ ((fb < 0 ↔ fc < 0) ∧ s.a = a ∧ s.b = c))
    | _ => False
  Sound := rule.Sound f settings.tolerance
  Stops := rule.method.Stops f settings.tolerance
  Stuck _ ending :=
    ∃ x, ending = .failed (.nonFiniteValue x) ∧ (f x).isFinite = false

/-- The round that a sound bracket records. -/
theorem Bracket.IsSound.record {s : Bracket} (h : s.IsSound f tolerance)
    (hfinite : (f (rule.point s)).isFinite = true) (number : Nat) :
    (s.record f rule number).number = number
      ∧ rule.StartsFrom s.a s.b s.previous (s.record f rule number)
      ∧ rule.Sound f tolerance (s.record f rule number) := by
  have hplaces : rule.Places s.a s.b (rule.point s) s.fa s.fb := by
    cases rule <;> rfl
  have hmeasures : rule.Measures s.a s.b (rule.point s) s.previous
      (rule.error? s (rule.point s)) := by
    cases rule <;> rfl
  exact ⟨rfl, ⟨rfl, rfl, hmeasures⟩, h.left, h.right, rfl,
    ⟨h.finite.1, h.finite.2, hfinite⟩, h.opposite, h.large, hplaces⟩

theorem Bracket.leaves_record {s : Bracket}
    (hopposite : Xor (s.fa < 0) (s.fb < 0)) (number : Nat) :
    (bracketSpec f rule a b settings).Leaves (s.record f rule number)
      (s.narrow (rule.point s) (f (rule.point s))) := by
  unfold Bracket.narrow
  split
  · next hsame =>
    exact ⟨rfl, .inl ⟨sameSign_eq_true_iff.mp hsame, rfl, rfl⟩⟩
  · next hsame =>
    rw [sameSign_eq_true_iff] at hsame
    refine ⟨rfl, .inr ⟨?_, rfl, rfl⟩⟩
    rw [xor_iff_iff_not] at hopposite
    tauto

/-- **What a round does.** The function may not be finite at the estimate.
Otherwise the round is recorded, and it is the last or narrows the bracket,
according to the stopping test. -/
theorem outcome_bracketRound {s : Bracket}
    (h : s.IsSound f settings.tolerance) (number : Nat) :
    (bracketSpec f rule a b settings).Outcome f number s
      (bracketRound f rule settings.tolerance number s) := by
  unfold bracketRound
  dsimp only
  cases hvalue : evaluate f (rule.point s) with
  | error error =>
    obtain ⟨rfl, hfinite⟩ := evaluate_eq_error hvalue
    exact .stop ⟨_, rfl, hfinite⟩ hfinite
  | ok fc =>
    obtain ⟨rfl, hfinite⟩ := evaluate_eq_ok hvalue
    have hstops : rule.method.Stops f settings.tolerance
          (s.record f rule number)
        ↔ (f (rule.point s)).abs < settings.tolerance
          ∨ rule.width s < settings.tolerance := by
      cases rule <;> rfl
    obtain ⟨isNumber, begins, sound⟩ := h.record hfinite number
    dsimp only
    split
    · next hmeets =>
      exact .finish isNumber begins sound (hstops.mpr hmeets)
    · next hmisses =>
      exact .advance isNumber begins sound (mt hstops.mp hmisses)
        (h.narrow hfinite (not_or.mp hmisses).1)
        (Bracket.leaves_record h.opposite number)

theorem law_bracketRound (f : Float → Float) (rule : BracketRule)
    (a b : Float) (settings : RootSettings) :
    (bracketSpec f rule a b settings).Law f
      (bracketRound f rule settings.tolerance)
      fun s => .exhausted s.previous where
  outcome inv number := outcome_bracketRound inv number
  exhausts {step s} hleaves := by
    cases step with
    | bracket number a b c fa fb fc error => exact congrArg _ hleaves.1
    | _ => exact hleaves.elim

theorem narrows_of_next {step step' : Iteration}
    (h : (bracketSpec f rule a b settings).Next step step') :
    rule.Narrows step step' := by
  obtain ⟨s, hleaves, hbegins⟩ := h
  cases step with
  | bracket number a b c fa fb fc error =>
    obtain ⟨hprevious, ⟨hsame, ha, hb⟩ | ⟨hsame, ha, hb⟩⟩ := hleaves
    · change rule.StartsFrom s.a s.b s.previous step' at hbegins
      rw [ha, hb, hprevious] at hbegins
      exact .inl ⟨hsame, hbegins⟩
    · change rule.StartsFrom s.a s.b s.previous step' at hbegins
      rw [ha, hb, hprevious] at hbegins
      exact .inr ⟨hsame, hbegins⟩
  | _ => exact hleaves.elim

end Round

/-! ## The start -/

section Start

variable {f : Float → Float} {a b : Float} {settings : RootSettings}

/-- The bracket from one point to another. -/
def bracketBetween (f : Float → Float) (low high : Float) :
    Except RootError Bracket := do
  let flow ← evaluate f low
  let fhigh ← evaluate f high
  return ⟨low, high, flow, fhigh, none⟩

theorem bracketBetween_cases (f : Float → Float) (low high : Float) :
    (∃ x, (x = low ∨ x = high) ∧ (f x).isFinite = false
        ∧ bracketBetween f low high = .error (.nonFiniteValue x))
      ∨ ((f low).isFinite = true ∧ (f high).isFinite = true
        ∧ bracketBetween f low high
          = .ok ⟨low, high, f low, f high, none⟩) := by
  unfold bracketBetween
  cases hlow : evaluate f low with
  | error error =>
    obtain ⟨rfl, hx⟩ := evaluate_eq_error hlow
    exact .inl ⟨low, .inl rfl, hx, rfl⟩
  | ok flow =>
    obtain ⟨rfl, hx⟩ := evaluate_eq_ok hlow
    cases hhigh : evaluate f high with
    | error error =>
      obtain ⟨rfl, hx⟩ := evaluate_eq_error hhigh
      exact .inl ⟨high, .inr rfl, hx, rfl⟩
    | ok fhigh =>
      obtain ⟨rfl, hx'⟩ := evaluate_eq_ok hhigh
      exact .inr ⟨hx, hx', rfl⟩

/-- **How a bracket is opened.** Seeds that are not two distinct finite points
are refused, and others are put in order. -/
theorem openBracket_cases (f : Float → Float) (a b : Float) :
    (((a.isFinite && b.isFinite) = false ∨ (a == b) = true)
        ∧ openBracket f a b = .error (.invalidSeeds (.bracket a b)))
      ∨ ∃ low high, AreSorted a b low high
        ∧ openBracket f a b = bracketBetween f low high := by
  unfold openBracket
  split
  · next hrefused =>
    rw [Bool.or_eq_true, Bool.not_eq_true'] at hrefused
    exact .inl ⟨hrefused, rfl⟩
  · next hrefused =>
    rw [Bool.or_eq_true, Bool.not_eq_true', not_or, Bool.not_eq_false,
      Bool.not_eq_true, Bool.and_eq_true] at hrefused
    obtain ⟨⟨ha, hb⟩, hne⟩ := hrefused
    right
    rcases Double.lt_or_lt ha hb hne with hlt | hlt
    · rw [if_pos hlt]
      exact ⟨a, b, ⟨hlt, .inl ⟨rfl, rfl⟩⟩, rfl⟩
    · rw [if_neg (Double.not_lt_of_lt hlt)]
      exact ⟨b, a, ⟨hlt, .inr ⟨rfl, rfl⟩⟩, rfl⟩

theorem AreSorted.eq_of_swap {low high low' high' : Float}
    (h : AreSorted a b low high) (h' : AreSorted b a low' high') :
    low = low' ∧ high = high' := by
  obtain ⟨hlt, ⟨rfl, rfl⟩ | ⟨rfl, rfl⟩⟩ := h <;>
    obtain ⟨hlt', ⟨rfl, rfl⟩ | ⟨rfl, rfl⟩⟩ := h'
  · exact absurd hlt' (Double.not_lt_of_lt hlt)
  · exact ⟨rfl, rfl⟩
  · exact ⟨rfl, rfl⟩
  · exact absurd hlt' (Double.not_lt_of_lt hlt)

/-- **The seeds may be exchanged.** -/
theorem openBracket_comm (ha : a.isFinite = true) (hb : b.isFinite = true)
    (hne : (a == b) = false) : openBracket f a b = openBracket f b a := by
  obtain ⟨hrefused, -⟩ | ⟨low, high, hsorted, heq⟩ := openBracket_cases f a b
  · simp [ha, hb, hne] at hrefused
  obtain ⟨hrefused, -⟩ | ⟨low', high', hsorted', heq'⟩ :=
    openBracket_cases f b a
  · simp [ha, hb, BEq.comm.trans hne] at hrefused
  obtain ⟨rfl, rfl⟩ := hsorted.eq_of_swap hsorted'
  rw [heq, heq']

/-- An end at which the bracket is a root already, or none. -/
theorem Bracket.rootAtEnd?_cases (s : Bracket) (tolerance : Float) :
    (s.fa.abs < tolerance ∧ s.rootAtEnd? tolerance = some (s.a, s.fa.abs))
      ∨ (s.fb.abs < tolerance ∧ s.rootAtEnd? tolerance = some (s.b, s.fb.abs))
      ∨ (¬ s.fa.abs < tolerance ∧ ¬ s.fb.abs < tolerance
        ∧ s.rootAtEnd? tolerance = none) := by
  unfold Bracket.rootAtEnd?
  split
  · next h => exact .inl ⟨h, rfl⟩
  · next h =>
    split
    · next h' => exact .inr (.inl ⟨h', rfl⟩)
    · next h' => exact .inr (.inr ⟨h, h', rfl⟩)

/-- **Searches of the bracketing methods** keep to it. -/
theorem governs_bracketSearch (f : Float → Float) (rule : BracketRule)
    (a b : Float) (settings : RootSettings) :
    (bracketSpec f rule a b settings).Governs f settings.maxIterations
      (bracketSearch f rule a b settings) := by
  -- settings, seeds, values, ends and signs are looked at in this order
  unfold bracketSearch
  cases hsettings : settings.validate with
  | error fault => exact .of_refused (.settings hsettings) trivial
  | ok accepted =>
  dsimp only
  obtain ⟨hrefused, heq⟩ | ⟨low, high, hsorted, heq⟩ := openBracket_cases f a b
  · rw [heq]
    exact .of_refused (.seeds hrefused) trivial
  have hlow : low = a ∨ low = b := hsorted.2.imp And.left And.left
  have hhigh : high = b ∨ high = a := hsorted.2.imp And.right And.right
  rw [heq]
  obtain ⟨x, hx, hfx, heq⟩ | ⟨hflow, hfhigh, heq⟩ :=
    bracketBetween_cases f low high
  · rw [heq]
    refine .of_refused (.value ?_ hfx) trivial
    rcases hx with rfl | rfl
    · exact hlow
    · exact hhigh.symm
  rw [heq]
  dsimp only
  obtain ⟨hroot, heq⟩ | ⟨hroot, heq⟩ | ⟨hlarge, hlarge', heq⟩ :=
    Bracket.rootAtEnd?_cases ⟨low, high, f low, f high, none⟩ settings.tolerance
  · rw [heq]
    exact .of_atSeed ⟨hlow, hroot⟩
  · rw [heq]
    exact .of_atSeed ⟨hhigh.symm, hroot⟩
  rw [heq]
  dsimp only
  split
  · next hsame =>
    exact .of_refused (.signs hsorted hsettings
      (sameSign_eq_true_iff.mp hsame) ⟨hlarge, hlarge'⟩) trivial
  · next hsame =>
    have hopposite : Xor (f low < 0) (f high < 0) :=
      (xor_iff_not_iff _ _).mpr (mt sameSign_eq_true_iff.mpr hsame)
    have hsound : Bracket.IsSound f settings.tolerance
        ⟨low, high, f low, f high, none⟩ :=
      ⟨rfl, rfl, ⟨hflow, hfhigh⟩, hopposite, hlarge, hlarge'⟩
    exact (law_bracketRound f rule a b settings).governs hsound ⟨hsorted, rfl⟩
      (RootSettings.maxIterations_pos hsettings) _

end Start

/-! ## The contract -/

section Contract

variable (f : Float → Float) (rule : BracketRule) (a b : Float)
  (settings : RootSettings)

/-- **Why a bracketing method fails**: it refuses to start, no rounds are left,
or the function is not finite at an estimate. -/
inductive BracketFailure : RootError → Prop where
  | refused {error : RootError} (why : BracketRefusal f a b settings error) :
      BracketFailure error
  | exhausted (last : Option Float) (steps : List Iteration) :
      BracketFailure (.noConvergence settings.maxIterations last steps)
  | value {x : Float} (why : (f x).isFinite = false) :
      BracketFailure (.nonFiniteValue x)

/-- **What a bracketing method promises** about its result: the rounds that it
carries, what it says about them, and why it may fail. -/
structure BracketContract (result : Except RootError Convergence) : Prop where
  recorded : Recorded (rule.StartsFromSeeds a b)
    (rule.Sound f settings.tolerance) rule.Narrows (carriedRounds result)
  length_le : (carriedRounds result).length ≤ settings.maxIterations
  concludes : Concludes f rule.method settings.maxIterations
    (fun root => (root = a ∨ root = b) ∧ (f root).abs < settings.tolerance)
    (rule.method.Stops f settings.tolerance) result
  fails : ∀ error, result = .error error → BracketFailure f a b settings error

theorem search_bracketing :
    search f rule.method (.bracket a b) settings
      = bracketSearch f rule a b settings := by
  cases rule <;> rfl

theorem bracketFailure_of_error {error : RootError}
    (h : findRoot f rule.method (.bracket a b) settings = .error error) :
    BracketFailure f a b settings error := by
  rw [findRoot, search_bracketing] at h
  cases (governs_bracketSearch f rule a b settings).failure_of_error _ h with
  | refused why => exact .refused why
  | exhausted last steps => exact .exhausted last steps
  | value why => exact .value why
  | flatTangent halts =>
    obtain ⟨x, hending, -⟩ := halts.why
    cases hending
  | flatChord halts =>
    obtain ⟨x, hending, -⟩ := halts.why
    cases hending

theorem startsFromSeeds_of_first {step : Iteration}
    (h : (bracketSpec f rule a b settings).First step) :
    rule.StartsFromSeeds a b step := by
  obtain ⟨s, ⟨hsorted, hprevious⟩, hbegins⟩ := h
  exact ⟨s.a, s.b, hsorted, hprevious ▸ hbegins⟩

/-- **The bracketing methods keep their promise**, for every function, and two
distinct finite seeds may be exchanged. -/
theorem findRoot_bracketing :
    BracketContract f rule a b settings
        (findRoot f rule.method (.bracket a b) settings)
      ∧ (a.isFinite = true → b.isFinite = true → (a == b) = false →
        findRoot f rule.method (.bracket b a) settings
            = findRoot f rule.method (.bracket a b) settings
          ∧ findRootEvents f rule.method (.bracket b a) settings
            = findRootEvents f rule.method (.bracket a b) settings) := by
  constructor
  · have governs := governs_bracketSearch f rule a b settings
    obtain ⟨recorded, length_le⟩ := governs.recorded_carriedRounds rule.method
    have concludes := governs.concludes rule.method
    rw [← search_bracketing] at recorded length_le concludes
    exact ⟨recorded.mono
        (fun _ => startsFromSeeds_of_first f rule a b settings)
        (fun _ hsound => hsound) (fun _ _ => narrows_of_next),
      length_le, concludes,
      fun _ => bracketFailure_of_error f rule a b settings⟩
  · intro ha hb hne
    have hsearch : search f rule.method (.bracket b a) settings
        = search f rule.method (.bracket a b) settings := by
      rw [search_bracketing, search_bracketing, bracketSearch, bracketSearch,
        openBracket_comm ha hb hne]
    rw [findRoot, findRootEvents, hsearch]
    exact ⟨rfl, rfl⟩

/-- Runs for the square root of two, from seeds in the wrong order: three
bisections are not enough, and two chords are for a larger tolerance. -/
theorem findRoot_bracketing_square :
    findRoot (fun x => x * x - 2) .bisection (.bracket 2 1) ⟨1e-6, 3, 1e-6⟩
        = .error (.noConvergence 3 (some 1.375)
          [.bracket 1 1 2 1.5 (-1) 2 0.25 (some 0.5),
            .bracket 2 1 1.5 1.25 (-1) 0.25 (-0.4375) (some 0.25),
            .bracket 3 1.25 1.5 1.375 (-0.4375) 0.25 (-0.109375)
              (some 0.125)])
      ∧ BracketContract (fun x => x * x - 2) .midpoint 2 1 ⟨1e-6, 3, 1e-6⟩
        (findRoot (fun x => x * x - 2) .bisection (.bracket 2 1)
          ⟨1e-6, 3, 1e-6⟩)
      ∧ findRoot (fun x => x * x - 2) .bisection (.bracket 1 2)
          ⟨1e-6, 3, 1e-6⟩
        = findRoot (fun x => x * x - 2) .bisection (.bracket 2 1)
          ⟨1e-6, 3, 1e-6⟩
      ∧ findRoot (fun x => x * x - 2) .falsePosition (.bracket 2 1)
          ⟨0.1, 3, 1e-6⟩
        = .ok ⟨.falsePosition, 1.4, 0.04000000000000026,
          [.bracket 1 1 2 1.3333333333333333 (-1) 2 (-0.22222222222222232)
              none,
            .bracket 2 1.3333333333333333 2 1.4 (-0.22222222222222232) 2
              (-0.04000000000000026) (some 0.06666666666666665)]⟩
      ∧ BracketContract (fun x => x * x - 2) .chord 2 1 ⟨0.1, 3, 1e-6⟩
        (findRoot (fun x => x * x - 2) .falsePosition (.bracket 2 1)
          ⟨0.1, 3, 1e-6⟩) := by
  obtain ⟨hmidpoint, hswap⟩ := findRoot_bracketing (fun x => x * x - 2)
    .midpoint 2 1 ⟨1e-6, 3, 1e-6⟩
  obtain ⟨hchord, -⟩ := findRoot_bracketing (fun x => x * x - 2)
    .chord 2 1 ⟨0.1, 3, 1e-6⟩
  exact ⟨by decide +kernel, hmidpoint,
    (hswap (by decide) (by decide) (by decide)).1, by decide +kernel, hchord⟩

end Contract

end Stepwise
