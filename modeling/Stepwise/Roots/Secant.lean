import Stepwise.Roots.Search

/-!
# The secant method

The next estimate is where the chord through the last two points crosses zero.
No change of sign is needed, but a chord that is nearly level ends the search.
-/

namespace Stepwise

/-- A difference of smaller magnitude counts as zero. -/
def denominatorEpsilon : Float := 1e-14

/-- Where the search stands: the last two points and the values there. -/
structure Chord where
  xPrev : Float
  x : Float
  fPrev : Float
  fx : Float

/-- A round of the method. -/
def secantRound (f : Float → Float) (tolerance : Float) (number : Nat)
    (s : Chord) : Round Chord :=
  let denominator := s.fPrev - s.fx
  if denominator.abs < denominatorEpsilon then
    .stop (.flatChord s.xPrev s.x denominator)
  else
    let next := s.x - s.fx * (s.xPrev - s.x) / denominator
    match evaluate f next with
    | .error error => .stop (.failed error)
    | .ok fNext =>
      let error := (next - s.x).abs
      let step := Iteration.secant number s.xPrev s.x s.fPrev s.fx next error
      if fNext.abs < tolerance ∨ error < tolerance then
        .finish step (.converged next fNext.abs)
      else .advance step ⟨s.x, next, s.fx, fNext⟩

/-- **The search of the secant method** from two seeds. The later seed is
looked at first. -/
def secantSearch (f : Float → Float) (x0 x1 : Float)
    (settings : RootSettings) : Search :=
  match settings.validate with
  | .error fault => .immediate none (.failed (.invalidSettings fault))
  | .ok () =>
    if !(x0.isFinite && x1.isFinite) || x0 == x1 then
      .immediate none (.failed (.invalidSeeds (.pair x0 x1)))
    else
      match evaluate f x0, evaluate f x1 with
      | .error error, _ | .ok _, .error error =>
        .immediate none (.failed error)
      | .ok fPrev, .ok fx =>
        let opening := Opening.pair x0 x1
        if fx.abs < settings.tolerance then
          .immediate (some opening) (.atSeed x1 fx.abs)
        else if fPrev.abs < settings.tolerance then
          .immediate (some opening) (.atSeed x0 fPrev.abs)
        else
          .iterating opening (secantRound f settings.tolerance)
            (fun s => .exhausted (some s.x)) settings.maxIterations
            ⟨x0, x1, fPrev, fx⟩

end Stepwise
