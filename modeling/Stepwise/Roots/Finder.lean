import Stepwise.Roots.Bracketing
import Stepwise.Roots.Newton
import Stepwise.Roots.Secant
import Stepwise.Roots.Scan

/-!
# Finding roots

A root is found from seeds of the form that the method asks for, or from seeds
that a scan proposes: the first bracket for the bracketing methods, its
midpoint or a sampled root for Newton's, and a bracket or the best pair of
samples for the secant method.
-/

namespace Stepwise

/-- **The search of a method** from given seeds. -/
def search (f : Float → Float) (method : RootMethod) (seeds : Seeds)
    (settings : RootSettings) : Search :=
  match method, seeds with
  | .bisection, .bracket a b => bracketSearch f .midpoint a b settings
  | .falsePosition, .bracket a b => bracketSearch f .chord a b settings
  | .newtonRaphson, .single x0 => newtonSearch f x0 settings
  | .secant, .pair x0 x1 => secantSearch f x0 x1 settings
  | method, seeds =>
    .immediate none (.failed (.invalidSeeds (.mismatch method seeds)))

/-- **Finds a root** from given seeds. -/
def findRoot (f : Float → Float) (method : RootMethod) (seeds : Seeds)
    (settings : RootSettings) : Except RootError Convergence :=
  (search f method seeds settings).result method settings.maxIterations

/-- What is reported while a root is looked for. -/
def findRootEvents (f : Float → Float) (method : RootMethod) (seeds : Seeds)
    (settings : RootSettings) : List Event :=
  (search f method seeds settings).events method settings.maxIterations

/-- A root that was found, and the seeds that a scan proposed for it. -/
structure AutoRoot where
  seeds : Seeds
  convergence : Convergence

/-- The first bracket of a scan, which must have one. -/
def firstBracket (f : Float → Float) (scan : ScanSettings) :
    Except RootError (Float × Float) := do
  match ← findBracket f scan with
  | some bracket => return bracket
  | none => throw .noBracketFound

/-- The initial guess in a bracket: an end that counts as a root, or else the
midpoint. -/
def guessIn (f : Float → Float) (a b : Float) : Float :=
  if (f a).abs < rootEpsilon then a
  else if (f b).abs < rootEpsilon then b
  else a + (b - a) / 2

/-- **The seeds that a scan proposes** for a method. -/
def proposeSeeds (f : Float → Float) (method : RootMethod)
    (scan : ScanSettings) : Except RootError Seeds :=
  match method with
  | .bisection | .falsePosition => do
    let (a, b) ← firstBracket f scan
    return .bracket a b
  | .newtonRaphson => do
    let (a, b) ← firstBracket f scan
    return .single (guessIn f a b)
  | .secant => do
    match ← secantSeeds f scan with
    | some (x0, x1) => return .pair x0 x1
    | none => throw .noBracketFound

/-- The proposed seeds, after a look at the settings of the search. -/
def autoSeeds (f : Float → Float) (method : RootMethod) (scan : ScanSettings)
    (settings : RootSettings) : Except RootError Seeds :=
  match settings.validate with
  | .error fault => .error (.invalidSettings fault)
  | .ok () => proposeSeeds f method scan

/-- **Finds a root** in a range, from the seeds that a scan proposes. -/
def autoFindRoot (f : Float → Float) (method : RootMethod)
    (scan : ScanSettings) (settings : RootSettings) :
    Except RootError AutoRoot := do
  let seeds ← autoSeeds f method scan settings
  let convergence ← findRoot f method seeds settings
  return ⟨seeds, convergence⟩

/-- What is reported while a root is looked for in a range. -/
def autoFindRootEvents (f : Float → Float) (method : RootMethod)
    (scan : ScanSettings) (settings : RootSettings) : List Event :=
  match autoSeeds f method scan settings with
  | .error _ => []
  | .ok seeds =>
    .debug s!"auto seeds for {method.title}: {seeds.describe}"
      :: findRootEvents f method seeds settings

end Stepwise
