import Stepwise.Roots.Search

/-!
# Scanning for brackets

A scan evaluates the function on a regular grid and looks at neighbouring
samples. Where the sign changes there is a bracket; where it never does, the
pairs of samples are ranked by how small the values are.
-/

namespace Stepwise

/-- A sampled value of smaller magnitude counts as a root. -/
def rootEpsilon : Float := 1e-12

/-- The points `start`, `start + step`, … before `stop`, less one that comes
too close to `stop`, and `stop` itself. -/
def ScanSettings.grid (s : ScanSettings) : List Float :=
  let inner := (List.range (s.span.toUInt64.toNat + 1)).map fun i =>
    s.start + Float.ofNat i * s.step
  (inner.filter fun x => decide (s.step * 1e-9 < s.stop - x)) ++ [s.stop]

/-- A point and the value of the function there, finite or not. -/
structure Sample where
  x : Float
  fx : Float
  deriving DecidableEq

/-- **The samples of a scan.** -/
def samples (f : Float → Float) (settings : ScanSettings) :
    Except RootError (List Sample) :=
  match settings.validate with
  | .error fault => .error (.invalidSettings fault)
  | .ok () => .ok (settings.grid.map fun x => ⟨x, f x⟩)

/-- Neighbouring samples with finite values, from left to right. -/
def finitePairs (samples : List Sample) : List (Sample × Sample) :=
  (samples.zip (samples.drop 1)).filter fun (l, r) =>
    l.fx.isFinite && r.fx.isFinite

/-- Whether one value is positive and the other negative. -/
def changesSign (fa fb : Float) : Bool :=
  fa != 0 && fb != 0 && !sameSign fa fb

/-- The points of a pair of samples. -/
def points (pair : Sample × Sample) : Float × Float :=
  (pair.1.x, pair.2.x)

/-- Whether the function changes its sign from one sample to the other. -/
def isCrossing (pair : Sample × Sample) : Bool :=
  changesSign pair.1.fx pair.2.fx

/-- Whether one of two samples counts as a root. -/
def touchesRoot (pair : Sample × Sample) : Bool :=
  decide (pair.1.fx.abs < rootEpsilon) || decide (pair.2.fx.abs < rootEpsilon)

/-- **All brackets**: the pairs with a change of sign, from left to right. -/
def scanBrackets (f : Float → Float) (settings : ScanSettings) :
    Except RootError (List (Float × Float)) :=
  (samples f settings).map fun samples =>
    ((finitePairs samples).filter isCrossing).map points

/-- What is reported by a scan for all brackets. -/
def scanBracketsEvents (f : Float → Float) (settings : ScanSettings) :
    List Event :=
  match samples f settings, scanBrackets f settings with
  | .ok samples, .ok brackets =>
    [.debug
      (s!"scan over [{plainText settings.start}, {plainText settings.stop}] "
        ++ s!"step {plainText settings.step}: "
        ++ s!"{samples.length} sample(s), {brackets.length} bracket(s)")]
  | _, _ => []

/-- **The first bracket**: the first pair that changes sign or touches a
root. -/
def findBracket (f : Float → Float) (settings : ScanSettings) :
    Except RootError (Option (Float × Float)) :=
  (samples f settings).map fun samples =>
    ((finitePairs samples).find? fun pair =>
      isCrossing pair || touchesRoot pair).map points

/-- A pair of neighbouring points and the sum of the magnitudes there. -/
structure RankedPair where
  a : Float
  b : Float
  score : Float
  deriving DecidableEq

/-- The place of a double in the order of all bit patterns, in which the
doubles that are numbers stand in their usual order. -/
def totalKey (x : Float) : Int :=
  let bits := x.toBits.toNat
  if bits < Binary64.signWeight then bits
  else (Binary64.signWeight : Int) - 1 - bits

/-- A pair of samples with its score. -/
def rankPair (pair : Sample × Sample) : RankedPair :=
  ⟨pair.1.x, pair.2.x, pair.1.fx.abs + pair.2.fx.abs⟩

/-- Whether neither of two samples counts as a root. -/
def avoidsRoot (pair : Sample × Sample) : Bool :=
  decide (rootEpsilon ≤ pair.1.fx.abs) && decide (rootEpsilon ≤ pair.2.fx.abs)

/-- **The pairs by score**, smallest first; pairs of one score stay in order.
Pairs that touch a root are left out. -/
def rankPairs (f : Float → Float) (settings : ScanSettings) :
    Except RootError (List RankedPair) :=
  (samples f settings).map fun samples =>
    (((finitePairs samples).filter avoidsRoot).map rankPair).mergeSort
      fun l r => decide (totalKey l.score ≤ totalKey r.score)

/-- **Seeds for the secant method**: the first bracket, or else the pair of
smallest score. -/
def secantSeeds (f : Float → Float) (settings : ScanSettings) :
    Except RootError (Option (Float × Float)) := do
  match ← findBracket f settings with
  | some bracket => return some bracket
  | none =>
    return (← rankPairs f settings).head?.map fun pair => (pair.a, pair.b)

end Stepwise
