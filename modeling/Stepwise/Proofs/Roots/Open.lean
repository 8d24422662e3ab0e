import Stepwise.Roots.Finder
import Stepwise.Proofs.Roots.Rounds

/-!
# Runs of the open methods

Newton's method and the secant method keep no bracket. A round goes on from the
point, or the last two points, that the one before came to, so its rounds form a
chain from the seeds on. A denominator that is too close to zero ends the chain
before the division is made.

What one round does is `outcome_newtonRound` and `outcome_secantRound`. From
these whole runs follow, for any function: they are recorded in good order, each
round begins where the one before arrived, they end as their result says, and a
denominator that is refused is the one at the point where the chain stands
(`findRoot_open`).
-/

namespace Stepwise

variable {f : Float → Float} {settings : RootSettings}

/-! ## Newton's method -/

/-- **The slope over the steps to both sides** of `x`, made from values that are
finite. -/
structure IsSlope (f : Float → Float) (h x slope : Float) : Prop where
  eq : slope = (f (x + h) - f (x - h)) / (2 * h)
  finite : (f (x + h)).isFinite = true ∧ (f (x - h)).isFinite = true

/-- The slope is known unless the function is not finite on one side. -/
theorem centralDifference_cases (f : Float → Float) (x h : Float) :
    (∃ y, (f y).isFinite = false
        ∧ centralDifference f x h = .error (.nonFiniteValue y))
      ∨ ∃ slope, IsSlope f h x slope
        ∧ centralDifference f x h = .ok slope := by
  unfold centralDifference
  cases hforward : evaluate f (x + h) with
  | error error =>
    obtain ⟨rfl, hy⟩ := evaluate_eq_error hforward
    exact .inl ⟨_, hy, rfl⟩
  | ok forward =>
    obtain ⟨rfl, hy⟩ := evaluate_eq_ok hforward
    cases hbackward : evaluate f (x - h) with
    | error error =>
      obtain ⟨rfl, hy'⟩ := evaluate_eq_error hbackward
      exact .inl ⟨_, hy', rfl⟩
    | ok backward =>
      obtain ⟨rfl, hy'⟩ := evaluate_eq_ok hbackward
      exact .inr ⟨_, ⟨rfl, hy, hy'⟩, rfl⟩

/-- **What a recorded tangent shows**: the function and its slope, which is not
close to zero, and the point where the tangent crosses zero, at which the function
is finite. -/
structure TangentShows (f : Float → Float) (settings : RootSettings)
    (x fx dfx next error : Float) : Prop where
  value : fx = f x
  slope : IsSlope f settings.derivativeStep x dfx
  finite : fx.isFinite = true ∧ (f next).isFinite = true
  steep : ¬ dfx.abs < 1e-12
  crossing : next = x - fx / dfx
  distance : error = (next - x).abs

namespace TangentPoint

/-- The round recorded a tangent, and it shows what it should. -/
def Sound (f : Float → Float) (settings : RootSettings) : Iteration → Prop
  | .newton _ x fx dfx next error => TangentShows f settings x fx dfx next error
  | _ => False

/-- The round drew the tangent at `x`. -/
def StartsAt (x : Float) : Iteration → Prop
  | .newton _ x' _ _ _ _ => x' = x
  | _ => False

/-- The round came to `x`. -/
def Reaches (x : Float) : Iteration → Prop
  | .newton _ _ _ _ next _ => next = x
  | _ => False

/-- What holds of the point at which a tangent is drawn. -/
structure IsSound (f : Float → Float) (s : TangentPoint) : Prop where
  value : s.fx = f s.x
  finite : s.fx.isFinite = true

end TangentPoint

/-- **Why Newton's method refuses to start**: its settings make no sense, or the
guess is not finite, or the function is not finite there. -/
inductive TangentRefusal (f : Float → Float) (x0 : Float)
    (settings : RootSettings) : RootError → Prop where
  | settings {fault : SettingsFault}
      (why : settings.validate = .error fault) :
      TangentRefusal f x0 settings (.invalidSettings fault)
  | seed (why : x0.isFinite = false) :
      TangentRefusal f x0 settings (.invalidSeeds (.guess x0))
  | value (why : (f x0).isFinite = false) :
      TangentRefusal f x0 settings (.nonFiniteValue x0)

/-- What Newton's method says of its searches. -/
def newtonSpec (f : Float → Float) (x0 : Float) (settings : RootSettings) :
    SearchSpec TangentPoint where
  Refused := TangentRefusal f x0 settings
  AtSeed root := root = x0 ∧ (f root).abs < settings.tolerance
  Starts s := s.x = x0
  Inv := TangentPoint.IsSound f
  Begins s := TangentPoint.StartsAt s.x
  Leaves step s := TangentPoint.Reaches s.x step
  Sound := TangentPoint.Sound f settings
  Stops := RootMethod.newtonRaphson.Stops f settings.tolerance
  Stuck s ending :=
    (∃ x, ending = .failed (.nonFiniteValue x) ∧ (f x).isFinite = false)
      ∨ ∃ slope, ending = .flatTangent s.x slope
        ∧ IsSlope f settings.derivativeStep s.x slope ∧ slope.abs < 1e-12

section Newton

variable {x0 : Float}

/-- **What a round does.** It cannot be completed if the function is not finite
at one of the points it looks at, or if the slope is too close to zero. Otherwise
the search moves to the point where the tangent crosses zero. -/
theorem outcome_newtonRound {s : TangentPoint} (h : s.IsSound f)
    (number : Nat) :
    (newtonSpec f x0 settings).Outcome f number s
      (newtonRound f settings number s) := by
  unfold newtonRound
  obtain ⟨y, hy, heq⟩ | ⟨slope, hslope, heq⟩ :=
    centralDifference_cases f s.x settings.derivativeStep
  · rw [heq]
    exact .stop (.inl ⟨y, rfl, hy⟩) hy
  rw [heq]
  dsimp only
  split
  · next hflat => exact .stop (.inr ⟨slope, rfl, hslope, hflat⟩) trivial
  next hsteep =>
  cases hvalue : evaluate f (s.x - s.fx / slope) with
  | error error =>
    obtain ⟨rfl, hnext⟩ := evaluate_eq_error hvalue
    exact .stop (.inl ⟨_, rfl, hnext⟩) hnext
  | ok fNext =>
    obtain ⟨rfl, hnext⟩ := evaluate_eq_ok hvalue
    have hshows : TangentShows f settings s.x s.fx slope _ _ :=
      ⟨h.value, hslope, ⟨h.finite, hnext⟩, hsteep, rfl, rfl⟩
    dsimp only
    split
    · next hstops => exact .finish rfl rfl hshows hstops
    · next hgoes => exact .advance rfl rfl hshows hgoes ⟨rfl, hnext⟩ rfl

theorem law_newtonRound (f : Float → Float) (x0 : Float)
    (settings : RootSettings) :
    (newtonSpec f x0 settings).Law f (newtonRound f settings)
      fun s => .exhausted (some s.x) where
  outcome inv number := outcome_newtonRound inv number
  exhausts {step s} hleaves := by
    cases step with
    | newton number x fx dfx next error =>
      exact congrArg (fun x => Ending.exhausted (some x)) hleaves.symm
    | _ => exact hleaves.elim

/-- **Searches of Newton's method** keep to it. -/
theorem governs_newtonSearch (f : Float → Float) (x0 : Float)
    (settings : RootSettings) :
    (newtonSpec f x0 settings).Governs f settings.maxIterations
      (newtonSearch f x0 settings) := by
  unfold newtonSearch
  cases hsettings : settings.validate with
  | error fault => exact .of_refused (.settings hsettings) trivial
  | ok accepted =>
  dsimp only
  split
  · next hseed =>
    exact .of_refused (.seed (Bool.not_eq_true' _ ▸ hseed)) trivial
  cases hvalue : evaluate f x0 with
  | error error =>
    obtain ⟨rfl, hx⟩ := evaluate_eq_error hvalue
    exact .of_refused (.value hx) trivial
  | ok fx =>
    obtain ⟨rfl, hx⟩ := evaluate_eq_ok hvalue
    dsimp only
    split
    · next hroot => exact .of_atSeed ⟨rfl, hroot⟩
    · have hsound : TangentPoint.IsSound f ⟨x0, f x0⟩ := ⟨rfl, hx⟩
      exact (law_newtonRound f x0 settings).governs hsound rfl
        (RootSettings.maxIterations_pos hsettings) _

end Newton

/-! ## The secant method -/

/-- **What a recorded chord shows**: the function at both points, where it is
finite, values that are not close to each other, and the point where the chord
crosses zero, at which the function is finite. -/
structure ChordShows (f : Float → Float) (xPrev x fPrev fx next error : Float) :
    Prop where
  valuePrev : fPrev = f xPrev
  value : fx = f x
  finite : fPrev.isFinite = true ∧ fx.isFinite = true
    ∧ (f next).isFinite = true
  steep : ¬ (fPrev - fx).abs < 1e-14
  crossing : next = x - fx * (xPrev - x) / (fPrev - fx)
  distance : error = (next - x).abs

namespace Chord

/-- The round recorded a chord, and it shows what it should. -/
def Sound (f : Float → Float) : Iteration → Prop
  | .secant _ xPrev x fPrev fx next error =>
    ChordShows f xPrev x fPrev fx next error
  | _ => False

/-- The round drew the chord through `xPrev` and `x`. -/
def StartsAt (xPrev x : Float) : Iteration → Prop
  | .secant _ xPrev' x' _ _ _ _ => xPrev' = xPrev ∧ x' = x
  | _ => False

/-- The round came from `xPrev` to `x`. -/
def Reaches (xPrev x : Float) : Iteration → Prop
  | .secant _ _ x' _ _ next _ => x' = xPrev ∧ next = x
  | _ => False

/-- What holds of the points through which a chord is drawn. -/
structure IsSound (f : Float → Float) (s : Chord) : Prop where
  valuePrev : s.fPrev = f s.xPrev
  value : s.fx = f s.x
  finite : s.fPrev.isFinite = true ∧ s.fx.isFinite = true

end Chord

/-- **Why the secant method refuses to start**: its settings make no sense, the
seeds are not two distinct finite points, or the function is not finite at one of
them. -/
inductive ChordRefusal (f : Float → Float) (x0 x1 : Float)
    (settings : RootSettings) : RootError → Prop where
  | settings {fault : SettingsFault}
      (why : settings.validate = .error fault) :
      ChordRefusal f x0 x1 settings (.invalidSettings fault)
  | seeds (why : (x0.isFinite && x1.isFinite) = false ∨ (x0 == x1) = true) :
      ChordRefusal f x0 x1 settings (.invalidSeeds (.pair x0 x1))
  | value {x : Float} (isSeed : x = x0 ∨ x = x1)
      (why : (f x).isFinite = false) :
      ChordRefusal f x0 x1 settings (.nonFiniteValue x)

/-- What the secant method says of its searches. -/
def secantSpec (f : Float → Float) (x0 x1 : Float) (settings : RootSettings) :
    SearchSpec Chord where
  Refused := ChordRefusal f x0 x1 settings
  AtSeed root := (f root).abs < settings.tolerance
    ∧ (root = x1 ∨ (root = x0 ∧ ¬ (f x1).abs < settings.tolerance))
  Starts s := s.xPrev = x0 ∧ s.x = x1
  Inv := Chord.IsSound f
  Begins s := Chord.StartsAt s.xPrev s.x
  Leaves step s := Chord.Reaches s.xPrev s.x step
  Sound := Chord.Sound f
  Stops := RootMethod.secant.Stops f settings.tolerance
  Stuck s ending :=
    (∃ x, ending = .failed (.nonFiniteValue x) ∧ (f x).isFinite = false)
      ∨ (ending = .flatChord s.xPrev s.x (f s.xPrev - f s.x)
        ∧ (f s.xPrev - f s.x).abs < 1e-14)

section Secant

variable {x0 x1 : Float}

/-- **What a round does.** It cannot be completed if the values are too close to
each other, or if the function is not finite where the chord crosses zero.
Otherwise the search moves there, and the later of the two points stays. -/
theorem outcome_secantRound {s : Chord} (h : s.IsSound f) (number : Nat) :
    (secantSpec f x0 x1 settings).Outcome f number s
      (secantRound f settings.tolerance number s) := by
  have hdenominator : s.fPrev - s.fx = f s.xPrev - f s.x := by
    rw [h.valuePrev, h.value]
  unfold secantRound
  dsimp only
  split
  · next hflat =>
    rw [hdenominator] at hflat ⊢
    exact .stop (.inr ⟨rfl, hflat⟩) trivial
  next hsteep =>
  cases hvalue : evaluate f
      (s.x - s.fx * (s.xPrev - s.x) / (s.fPrev - s.fx)) with
  | error error =>
    obtain ⟨rfl, hnext⟩ := evaluate_eq_error hvalue
    exact .stop (.inl ⟨_, rfl, hnext⟩) hnext
  | ok fNext =>
    obtain ⟨rfl, hnext⟩ := evaluate_eq_ok hvalue
    have hshows : ChordShows f s.xPrev s.x s.fPrev s.fx _ _ :=
      ⟨h.valuePrev, h.value, ⟨h.finite.1, h.finite.2, hnext⟩, hsteep, rfl, rfl⟩
    dsimp only
    split
    · next hstops => exact .finish rfl ⟨rfl, rfl⟩ hshows hstops
    · next hgoes =>
      exact .advance rfl ⟨rfl, rfl⟩ hshows hgoes
        ⟨h.value, rfl, h.finite.2, hnext⟩ ⟨rfl, rfl⟩

theorem law_secantRound (f : Float → Float) (x0 x1 : Float)
    (settings : RootSettings) :
    (secantSpec f x0 x1 settings).Law f (secantRound f settings.tolerance)
      fun s => .exhausted (some s.x) where
  outcome inv number := outcome_secantRound inv number
  exhausts {step s} hleaves := by
    cases step with
    | secant number xPrev x fPrev fx next error =>
      exact congrArg (fun x => Ending.exhausted (some x)) hleaves.2.symm
    | _ => exact hleaves.elim

/-- **Searches of the secant method** keep to it. -/
theorem governs_secantSearch (f : Float → Float) (x0 x1 : Float)
    (settings : RootSettings) :
    (secantSpec f x0 x1 settings).Governs f settings.maxIterations
      (secantSearch f x0 x1 settings) := by
  unfold secantSearch
  cases hsettings : settings.validate with
  | error fault => exact .of_refused (.settings hsettings) trivial
  | ok accepted =>
  dsimp only
  split
  · next hseeds =>
    rw [Bool.or_eq_true, Bool.not_eq_true'] at hseeds
    exact .of_refused (.seeds hseeds) trivial
  cases hvaluePrev : evaluate f x0 with
  | error error =>
    obtain ⟨rfl, hx0⟩ := evaluate_eq_error hvaluePrev
    exact .of_refused (.value (.inl rfl) hx0) trivial
  | ok fPrev =>
  cases hvalue : evaluate f x1 with
  | error error =>
    obtain ⟨rfl, hx1⟩ := evaluate_eq_error hvalue
    exact .of_refused (.value (.inr rfl) hx1) trivial
  | ok fx =>
    obtain ⟨rfl, hx0⟩ := evaluate_eq_ok hvaluePrev
    obtain ⟨rfl, hx1⟩ := evaluate_eq_ok hvalue
    dsimp only
    split
    · next hroot => exact .of_atSeed ⟨hroot, .inl rfl⟩
    next hlater =>
    split
    · next hroot => exact .of_atSeed ⟨hroot, .inr ⟨rfl, hlater⟩⟩
    · have hsound : Chord.IsSound f ⟨x0, x1, f x0, f x1⟩ :=
        ⟨rfl, rfl, hx0, hx1⟩
      exact (law_secantRound f x0 x1 settings).governs hsound ⟨rfl, rfl⟩
        (RootSettings.maxIterations_pos hsettings) _

end Secant

/-! ## The contracts -/

/-- **Why Newton's method fails**: it refuses to start, no rounds are left, the
function is not finite at a point that is looked at, or the slope is too close to
zero where the chain of rounds stands. -/
inductive TangentFailure (f : Float → Float) (x0 : Float)
    (settings : RootSettings) : RootError → Prop where
  | refused {error : RootError} (why : TangentRefusal f x0 settings error) :
      TangentFailure f x0 settings error
  | exhausted (last : Option Float) (steps : List Iteration) :
      TangentFailure f x0 settings
        (.noConvergence settings.maxIterations last steps)
  | value {x : Float} (why : (f x).isFinite = false) :
      TangentFailure f x0 settings (.nonFiniteValue x)
  | flat {x slope : Float} {steps : List Iteration}
      (isSlope : IsSlope f settings.derivativeStep x slope)
      (isFlat : slope.abs < 1e-12)
      (room : steps.length < settings.maxIterations)
      (goes : ∀ step ∈ steps,
        ¬ RootMethod.newtonRaphson.Stops f settings.tolerance step)
      (stands : (steps = [] ∧ x = x0)
        ∨ ∃ last ∈ steps.getLast?, TangentPoint.Reaches x last) :
      TangentFailure f x0 settings (.derivativeNearZero x slope steps)

/-- **Why the secant method fails**: it refuses to start, no rounds are left, the
function is not finite at a point that is looked at, or the values are too close
to each other where the chain of rounds stands. -/
inductive ChordFailure (f : Float → Float) (x0 x1 : Float)
    (settings : RootSettings) : RootError → Prop where
  | refused {error : RootError} (why : ChordRefusal f x0 x1 settings error) :
      ChordFailure f x0 x1 settings error
  | exhausted (last : Option Float) (steps : List Iteration) :
      ChordFailure f x0 x1 settings
        (.noConvergence settings.maxIterations last steps)
  | value {x : Float} (why : (f x).isFinite = false) :
      ChordFailure f x0 x1 settings (.nonFiniteValue x)
  | flat {xPrev x : Float} {steps : List Iteration}
      (isFlat : (f xPrev - f x).abs < 1e-14)
      (room : steps.length < settings.maxIterations)
      (goes : ∀ step ∈ steps,
        ¬ RootMethod.secant.Stops f settings.tolerance step)
      (stands : (steps = [] ∧ xPrev = x0 ∧ x = x1)
        ∨ ∃ last ∈ steps.getLast?, Chord.Reaches xPrev x last) :
      ChordFailure f x0 x1 settings (.zeroDenominator xPrev x steps)

/-- **What Newton's method promises** about its result: the rounds that it
carries, which form a chain from the guess on, what it says about them, and why
it may fail. -/
structure TangentContract (f : Float → Float) (x0 : Float)
    (settings : RootSettings) (result : Except RootError Convergence) :
    Prop where
  recorded : Recorded (TangentPoint.StartsAt x0) (TangentPoint.Sound f settings)
    (fun step step' => ∃ x, TangentPoint.Reaches x step
      ∧ TangentPoint.StartsAt x step')
    (carriedRounds result)
  length_le : (carriedRounds result).length ≤ settings.maxIterations
  concludes : Concludes f .newtonRaphson settings.maxIterations
    (fun root => root = x0 ∧ (f root).abs < settings.tolerance)
    (RootMethod.newtonRaphson.Stops f settings.tolerance) result
  fails : ∀ error, result = .error error → TangentFailure f x0 settings error

/-- **What the secant method promises** about its result: the rounds that it
carries, which form a chain from the seeds on, what it says about them, and why
it may fail. A seed that is a root is the later one, if that is a root. -/
structure ChordContract (f : Float → Float) (x0 x1 : Float)
    (settings : RootSettings) (result : Except RootError Convergence) :
    Prop where
  recorded : Recorded (Chord.StartsAt x0 x1) (Chord.Sound f)
    (fun step step' => ∃ xPrev x, Chord.Reaches xPrev x step
      ∧ Chord.StartsAt xPrev x step')
    (carriedRounds result)
  length_le : (carriedRounds result).length ≤ settings.maxIterations
  concludes : Concludes f .secant settings.maxIterations
    (fun root => (f root).abs < settings.tolerance
      ∧ (root = x1 ∨ (root = x0 ∧ ¬ (f x1).abs < settings.tolerance)))
    (RootMethod.secant.Stops f settings.tolerance) result
  fails : ∀ error, result = .error error → ChordFailure f x0 x1 settings error

theorem tangentFailure_of_failure {x0 : Float} {error : RootError}
    (h : (newtonSpec f x0 settings).Failure f settings.maxIterations error) :
    TangentFailure f x0 settings error := by
  cases h with
  | refused why => exact .refused why
  | exhausted last steps => exact .exhausted last steps
  | value why => exact .value why
  | @flatTangent s x derivative steps halts =>
    obtain ⟨y, hending, -⟩ | ⟨slope, hending, hslope, hflat⟩ := halts.why
    · cases hending
    · cases hending
      exact .flat hslope hflat halts.room halts.goes halts.stands
  | flatChord halts =>
    obtain ⟨y, hending, -⟩ | ⟨slope, hending, -⟩ := halts.why
    all_goals cases hending

theorem chordFailure_of_failure {x0 x1 : Float} {error : RootError}
    (h : (secantSpec f x0 x1 settings).Failure f settings.maxIterations
      error) : ChordFailure f x0 x1 settings error := by
  cases h with
  | refused why => exact .refused why
  | exhausted last steps => exact .exhausted last steps
  | value why => exact .value why
  | flatTangent halts =>
    obtain ⟨y, hending, -⟩ | ⟨hending, -⟩ := halts.why
    all_goals cases hending
  | flatChord halts =>
    obtain ⟨y, hending, -⟩ | ⟨hending, hflat⟩ := halts.why
    · cases hending
    · cases hending
      exact .flat hflat halts.room halts.goes halts.stands

/-- **The open methods keep their promise**, for every function, all seeds and
all settings. -/
theorem findRoot_open (f : Float → Float) (settings : RootSettings) :
    (∀ x0, TangentContract f x0 settings
        (findRoot f .newtonRaphson (.single x0) settings))
      ∧ ∀ x0 x1, ChordContract f x0 x1 settings
        (findRoot f .secant (.pair x0 x1) settings) := by
  refine ⟨fun x0 => ?_, fun x0 x1 => ?_⟩
  · have governs := governs_newtonSearch f x0 settings
    obtain ⟨recorded, length_le⟩ :=
      governs.recorded_carriedRounds .newtonRaphson
    refine ⟨recorded.mono ?_ (fun _ hsound => hsound) ?_, length_le,
      governs.concludes .newtonRaphson, fun error herror =>
        tangentFailure_of_failure (governs.failure_of_error _ herror)⟩
    · rintro step ⟨s, rfl, hbegins⟩
      exact hbegins
    · rintro step step' ⟨s, hleaves, hbegins⟩
      exact ⟨s.x, hleaves, hbegins⟩
  · have governs := governs_secantSearch f x0 x1 settings
    obtain ⟨recorded, length_le⟩ := governs.recorded_carriedRounds .secant
    refine ⟨recorded.mono ?_ (fun _ hsound => hsound) ?_, length_le,
      governs.concludes .secant, fun error herror =>
        chordFailure_of_failure (governs.failure_of_error _ herror)⟩
    · rintro step ⟨s, ⟨rfl, rfl⟩, hbegins⟩
      exact hbegins
    · rintro step step' ⟨s, hleaves, hbegins⟩
      exact ⟨s.xPrev, s.x, hleaves, hbegins⟩

/-- Runs for the square root of two. Two tangents are not enough, and two chords
are for a larger tolerance. -/
theorem findRoot_open_square :
    findRoot (fun x => x * x - 2) .newtonRaphson (.single 1) ⟨1e-6, 2, 0.5⟩
        = .error (.noConvergence 2 (some 1.4166666666666667)
          [.newton 1 1 (-1) 2 1.5 0.5,
            .newton 2 1.5 0.25 3 1.4166666666666667 0.08333333333333326])
      ∧ TangentContract (fun x => x * x - 2) 1 ⟨1e-6, 2, 0.5⟩
        (findRoot (fun x => x * x - 2) .newtonRaphson (.single 1)
          ⟨1e-6, 2, 0.5⟩)
      ∧ findRoot (fun x => x * x - 2) .secant (.pair 1 2) ⟨0.1, 5, 1e-6⟩
        = .ok ⟨.secant, 1.4000000000000001, 0.03999999999999959,
          [.secant 1 1 2 (-1) 2 1.3333333333333335 0.6666666666666665,
            .secant 2 2 1.3333333333333335 2 (-0.22222222222222188)
              1.4000000000000001 0.06666666666666665]⟩
      ∧ ChordContract (fun x => x * x - 2) 1 2 ⟨0.1, 5, 1e-6⟩
        (findRoot (fun x => x * x - 2) .secant (.pair 1 2) ⟨0.1, 5, 1e-6⟩) := by
  have tangents := (findRoot_open (fun x => x * x - 2) ⟨1e-6, 2, 0.5⟩).1 1
  have chords := (findRoot_open (fun x => x * x - 2) ⟨0.1, 5, 1e-6⟩).2 1 2
  exact ⟨by decide +kernel, tangents, by decide +kernel, chords⟩

-- A level tangent and a level chord are refused before any round.
example :
    findRoot (fun x => x * x + 1) .newtonRaphson (.single 0) {}
        = .error (.derivativeNearZero 0 0 [])
      ∧ findRoot (fun _ => 1) .secant (.pair 0 1) {}
        = .error (.zeroDenominator 0 1 []) := by
  decide +kernel

end Stepwise
