import Stepwise.Roots.Search

/-!
# Bisection and false position

Both methods keep a bracket, an interval at whose ends the function has
opposite signs, and put an estimate into it: its midpoint, or the point where
the chord crosses zero. The estimate then takes the place of the end whose
sign it shares.
-/

namespace Stepwise

/-- How the next estimate is placed in a bracket. -/
inductive BracketRule where
  | midpoint
  | chord
  deriving DecidableEq

/-- The method that follows the rule. -/
def BracketRule.method : BracketRule → RootMethod
  | .midpoint => .bisection
  | .chord => .falsePosition

/-- **A bracket**, with the values at its ends and the estimate that was made
before. -/
structure Bracket where
  a : Float
  b : Float
  fa : Float
  fb : Float
  previous : Option Float := none

/-- The estimate that a rule places in a bracket. -/
def BracketRule.point (rule : BracketRule) (s : Bracket) : Float :=
  match rule with
  | .midpoint => s.a + (s.b - s.a) / 2
  | .chord => (s.a * s.fb - s.b * s.fa) / (s.fb - s.fa)

/-- The error of the estimate `c`, as far as the rule knows it. -/
def BracketRule.error? (rule : BracketRule) (s : Bracket) (c : Float) :
    Option Float :=
  match rule with
  | .midpoint => some ((s.b - s.a) / 2)
  | .chord => s.previous.map fun p => (c - p).abs

/-- The length that must fall below the tolerance: half the bracket for
midpoints. The steps of chords do not bound their error, so for them it is the
whole bracket. -/
def BracketRule.width (rule : BracketRule) (s : Bracket) : Float :=
  match rule with
  | .midpoint => (s.b - s.a) / 2
  | .chord => s.b - s.a

/-- The bracket with the estimate `c` in the place of one end. -/
def Bracket.narrow (s : Bracket) (c fc : Float) : Bracket :=
  if sameSign s.fa fc then { s with a := c, fa := fc, previous := some c }
  else { s with b := c, fb := fc, previous := some c }

/-- A round of a bracketing method. -/
def bracketRound (f : Float → Float) (rule : BracketRule) (tolerance : Float)
    (number : Nat) (s : Bracket) : Round Bracket :=
  let c := rule.point s
  match evaluate f c with
  | .error error => .stop (.failed error)
  | .ok fc =>
    let step := Iteration.bracket number s.a s.b c s.fa s.fb fc
      (rule.error? s c)
    if fc.abs < tolerance ∨ rule.width s < tolerance then
      .finish step (.converged c fc.abs)
    else .advance step (s.narrow c fc)

/-- The end of a bracket that is a root already, and the residual there. -/
def Bracket.rootAtEnd? (s : Bracket) (tolerance : Float) :
    Option (Float × Float) :=
  if s.fa.abs < tolerance then some (s.a, s.fa.abs)
  else if s.fb.abs < tolerance then some (s.b, s.fb.abs)
  else none

/-- The bracket between two distinct finite points, in increasing order. -/
def openBracket (f : Float → Float) (a b : Float) :
    Except RootError Bracket :=
  if !(a.isFinite && b.isFinite) || a == b then
    .error (.invalidSeeds (.bracket a b))
  else
    let (a, b) := if a < b then (a, b) else (b, a)
    do
      let fa ← evaluate f a
      let fb ← evaluate f b
      return { a := a, b := b, fa := fa, fb := fb }

/-- **The search of a bracketing method** between two points. -/
def bracketSearch (f : Float → Float) (rule : BracketRule) (a b : Float)
    (settings : RootSettings) : Search :=
  match settings.validate with
  | .error fault => .immediate none (.failed (.invalidSettings fault))
  | .ok () =>
    match openBracket f a b with
    | .error error => .immediate none (.failed error)
    | .ok s =>
      let opening := Opening.bracket s.a s.b s.fa s.fb
      match s.rootAtEnd? settings.tolerance with
      | some (root, residual) =>
        .immediate (some opening) (.atSeed root residual)
      | none =>
        if sameSign s.fa s.fb then
          .immediate (some opening)
            (.failed (.noSignChange s.a s.b s.fa s.fb))
        else
          .iterating opening (bracketRound f rule settings.tolerance)
            (fun s => .exhausted s.previous) settings.maxIterations s

end Stepwise
