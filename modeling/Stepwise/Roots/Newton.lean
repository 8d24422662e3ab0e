import Stepwise.Roots.Search

/-!
# The Newton-Raphson method

The next estimate is where the tangent crosses zero. The slope is a central
difference, and a slope close to zero ends the search.
-/

namespace Stepwise

/-- A slope of smaller magnitude counts as zero. -/
def derivativeEpsilon : Float := 1e-12

/-- **The central difference** `(f(x + h) - f(x - h)) / 2h`. -/
def centralDifference (f : Float → Float) (x h : Float) :
    Except RootError Float := do
  let forward ← evaluate f (x + h)
  let backward ← evaluate f (x - h)
  return (forward - backward) / (2 * h)

/-- Where the search stands: the estimate and the value there. -/
structure TangentPoint where
  x : Float
  fx : Float

/-- A round of the method. -/
def newtonRound (f : Float → Float) (settings : RootSettings) (number : Nat)
    (s : TangentPoint) : Round TangentPoint :=
  match centralDifference f s.x settings.derivativeStep with
  | .error error => .stop (.failed error)
  | .ok dfx =>
    if dfx.abs < derivativeEpsilon then .stop (.flatTangent s.x dfx)
    else
      let next := s.x - s.fx / dfx
      match evaluate f next with
      | .error error => .stop (.failed error)
      | .ok fNext =>
        let error := (next - s.x).abs
        let step := Iteration.newton number s.x s.fx dfx next error
        if fNext.abs < settings.tolerance ∨ error < settings.tolerance then
          .finish step (.converged next fNext.abs)
        else .advance step ⟨next, fNext⟩

/-- **The search of the Newton-Raphson method** from an initial guess. -/
def newtonSearch (f : Float → Float) (x0 : Float) (settings : RootSettings) :
    Search :=
  match settings.validate with
  | .error fault => .immediate none (.failed (.invalidSettings fault))
  | .ok () =>
    if !x0.isFinite then
      .immediate none (.failed (.invalidSeeds (.guess x0)))
    else
      match evaluate f x0 with
      | .error error => .immediate none (.failed error)
      | .ok fx =>
        let opening := Opening.guess x0 fx
        if fx.abs < settings.tolerance then
          .immediate (some opening) (.atSeed x0 fx.abs)
        else
          .iterating opening (newtonRound f settings)
            (fun s => .exhausted (some s.x)) settings.maxIterations ⟨x0, fx⟩

end Stepwise
