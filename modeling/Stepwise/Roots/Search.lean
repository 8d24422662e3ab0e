import Stepwise.Event
import Stepwise.Roots.Method
import Stepwise.Roots.Settings

/-!
# Searches

A search makes rounds until it comes close enough to a root, gets stuck, or
has used up the rounds it was given. It is recorded as a value of `Search`:
how it opened, every round that it completed, and how it ended. The answer to
the caller and the events are both read off from this record, so the record
keeps more than the answer does.
-/

namespace Stepwise

/-- **A completed round** of a search, with what was known after it. Rounds
are numbered from one. -/
inductive Iteration where
  /-- The estimate `c` in the bracket from `a` to `b`. The error is half the
  width of the bracket for bisection, and the distance from the estimate
  before for false position. -/
  | bracket (number : Nat) (a b c fa fb fc : Float) (error : Option Float)
  | newton (number : Nat) (x fx dfx next error : Float)
  | secant (number : Nat) (xPrev x fPrev fx next error : Float)
  deriving DecidableEq

namespace Iteration

/-- The number of the round. -/
def number : Iteration → Nat
  | bracket number _ _ _ _ _ _ _ | newton number _ _ _ _ _
  | secant number _ _ _ _ _ _ => number

/-- The estimate that the round came to. -/
def estimate : Iteration → Float
  | bracket _ _ _ c _ _ _ _ => c
  | newton _ _ _ _ next _ | secant _ _ _ _ _ next _ => next

/-- The error of the estimate, as far as it is known. -/
def error? : Iteration → Option Float
  | bracket _ _ _ _ _ _ _ error => error
  | newton _ _ _ _ _ error | secant _ _ _ _ _ _ error => some error

end Iteration

/-- **A root that was found**, and the rounds it took. -/
structure Convergence where
  method : RootMethod
  root : Float
  /-- The magnitude of the function at the root. -/
  residual : Float
  iterations : List Iteration
  deriving DecidableEq

/-- What is wrong with starting values. -/
inductive SeedsFault where
  | bracket (a b : Float)
  | guess (x0 : Float)
  | pair (x0 x1 : Float)
  /-- The method starts from values of another form. -/
  | mismatch (method : RootMethod) (seeds : Seeds)
  deriving DecidableEq

/-- The fault in words. -/
def SeedsFault.message : SeedsFault → String
  | .bracket a b =>
    "a bracket needs two distinct finite endpoints, got "
      ++ s!"[{plainText a}, {plainText b}]"
  | .guess x0 => s!"the initial guess must be finite, got {plainText x0}"
  | .pair x0 x1 =>
    "the secant method needs two distinct finite seeds, got "
      ++ s!"{plainText x0} and {plainText x1}"
  | .mismatch method seeds =>
    s!"{method.title} cannot start from {seeds.describe}"

/-- **Why no root was found.** -/
inductive RootError where
  | noSignChange (a b fa fb : Float)
  | derivativeNearZero (x derivative : Float) (iterations : List Iteration)
  | zeroDenominator (xPrev x : Float) (iterations : List Iteration)
  | noConvergence (limit : Nat) (last : Option Float)
      (iterations : List Iteration)
  | nonFiniteValue (x : Float)
  | invalidSettings (fault : SettingsFault)
  | invalidSeeds (fault : SeedsFault)
  | noBracketFound
  deriving DecidableEq

namespace RootError

/-- The error in words. -/
def message : RootError → String
  | noSignChange a b fa fb =>
    "f(a) and f(b) must have opposite signs: "
      ++ s!"f({plainText a}) = {plainText fa}, f({plainText b}) = {plainText fb}"
  | derivativeNearZero x derivative _ =>
    s!"derivative is too close to zero at x = {plainText x} "
      ++ "(f'(x) = " ++ plainText derivative ++ ")"
  | zeroDenominator xPrev x _ =>
    "f(x_prev) - f(x) is too close to zero at "
      ++ s!"x_prev = {plainText xPrev}, x = {plainText x}"
  | noConvergence limit _ _ => s!"no convergence after {limit} iterations"
  | nonFiniteValue x => s!"f is not finite at x = {plainText x}"
  | invalidSettings fault => s!"invalid settings: {fault.message}"
  | invalidSeeds fault => s!"invalid seeds: {fault.message}"
  | noBracketFound => "no sign change found in the scanned range"

/-- The rounds that the error carries. -/
def iterations : RootError → List Iteration
  | derivativeNearZero _ _ iterations | zeroDenominator _ _ iterations
  | noConvergence _ _ iterations => iterations
  | _ => []

end RootError

/-! ## The record of a search -/

/-- How a search opened: the seeds it set out from and what is said about
them. -/
inductive Opening where
  | bracket (a b fa fb : Float)
  | guess (x0 fx : Float)
  | pair (x0 x1 : Float)

/-- How a search ended. -/
inductive Ending where
  /-- With an error that carries no rounds. -/
  | failed (error : RootError)
  /-- Before the first round, at a seed that is a root already. -/
  | atSeed (root residual : Float)
  | converged (root residual : Float)
  | flatTangent (x derivative : Float)
  | flatChord (xPrev x denominator : Float)
  /-- No rounds were left. -/
  | exhausted (last : Option Float)

/-- **The record of a search.** -/
structure Search where
  opening : Option Opening
  steps : List Iteration
  ending : Ending

/-- A search that ended before the first round. -/
def Search.immediate (opening : Option Opening) (ending : Ending) : Search :=
  ⟨opening, [], ending⟩

/-- **The answer of a search** that was given `limit` rounds. -/
def Search.result (method : RootMethod) (limit : Nat) (s : Search) :
    Except RootError Convergence :=
  match s.ending with
  | .failed error => .error error
  | .atSeed root residual | .converged root residual =>
    .ok ⟨method, root, residual, s.steps⟩
  | .flatTangent x derivative =>
    .error (.derivativeNearZero x derivative s.steps)
  | .flatChord xPrev x _ => .error (.zeroDenominator xPrev x s.steps)
  | .exhausted last => .error (.noConvergence limit last s.steps)

/-! ## Rounds -/

/-- What a round comes to. -/
inductive Round (σ : Type) where
  /-- The search ends without completing the round. -/
  | stop (ending : Ending)
  /-- The search ends with this round. -/
  | finish (step : Iteration) (ending : Ending)
  | advance (step : Iteration) (state : σ)

/-- Makes up to `left` rounds, of which the first has the given number, after
the rounds in `done`, the latest of which comes first. -/
def roundsFrom {σ : Type} (round : Nat → σ → Round σ) (spent : σ → Ending) :
    (left number : Nat) → σ → (done : List Iteration) →
      List Iteration × Ending
  | 0, _, state, done => (done.reverse, spent state)
  | left + 1, number, state, done =>
    match round number state with
    | .stop ending => (done.reverse, ending)
    | .finish step ending => ((step :: done).reverse, ending)
    | .advance step state =>
      roundsFrom round spent left (number + 1) state (step :: done)

/-- **Makes up to `limit` rounds.** When none is left, the ending is read off
the last state. -/
def rounds {σ : Type} (round : Nat → σ → Round σ) (spent : σ → Ending)
    (limit : Nat) (state : σ) : List Iteration × Ending :=
  roundsFrom round spent limit 1 state []

/-- A search that makes rounds. -/
def Search.iterating {σ : Type} (opening : Opening)
    (round : Nat → σ → Round σ) (spent : σ → Ending) (limit : Nat)
    (state : σ) : Search :=
  let (steps, ending) := rounds round spent limit state
  ⟨some opening, steps, ending⟩

/-- The value of a function at `x`, which must be finite. -/
def evaluate (f : Float → Float) (x : Float) : Except RootError Float :=
  let y := f x
  if y.isFinite then .ok y else .error (.nonFiniteValue x)

/-- Whether two values have one sign, zero counted as positive. -/
def sameSign (y z : Float) : Bool :=
  decide (y < 0) == decide (z < 0)

/-! ## Events -/

/-- What is reported when a search opens. -/
def Opening.event (method : RootMethod) : Opening → Event
  | .bracket a b fa fb =>
    .debug
      (s!"{method.title} on [{plainText a}, {plainText b}] "
        ++ s!"with f(a) = {plainText fa}, f(b) = {plainText fb}")
  | .guess x0 fx =>
    .debug
      s!"{method.title} from x0 = {plainText x0}, f(x0) = {plainText fx}"
  | .pair x0 x1 =>
    .debug s!"{method.title} from x0 = {plainText x0}, x1 = {plainText x1}"

/-- What is reported about a round. -/
def Iteration.event (method : RootMethod) : Iteration → Event
  | .bracket number a b c _ _ fc _ =>
    .trace
      (s!"{method.title} #{number}: [{plainText a}, {plainText b}] "
        ++ s!"-> c = {plainText c}, f(c) = {plainText fc}")
  | .newton number x fx dfx next _ =>
    .trace
      (s!"{method.title} #{number}: x = {plainText x}, f(x) = {plainText fx}, "
        ++ "f'(x) = " ++ s!"{plainText dfx} -> {plainText next}")
  | .secant number xPrev x _ _ next _ =>
    .trace
      (s!"{method.title} #{number}: x_prev = {plainText xPrev}, "
        ++ s!"x = {plainText x} -> {plainText next}")

/-- What is reported when a search ends. Only the bracketing methods report a
seed that is a root and the end of the rounds. -/
def Ending.event? (method : RootMethod) (limit count : Nat) :
    Ending → Option Event
  | .atSeed root _ =>
    if method.isBracketing then
      some (.debug
        s!"{method.title}: endpoint {plainText root} is already a root")
    else none
  | .converged root _ =>
    some (.debug
      s!"{method.title} converged to {plainText root} after {count} iterations")
  | .flatTangent x derivative =>
    some (.debug
      (method.title ++ ": f'(" ++ plainText x ++ ") = "
        ++ s!"{plainText derivative} is too close to zero"))
  | .flatChord xPrev x denominator =>
    some (.debug
      (s!"{method.title}: f({plainText xPrev}) - f({plainText x}) = "
        ++ s!"{plainText denominator} is too close to zero"))
  | .exhausted _ =>
    if method.isBracketing then
      some (.debug s!"{method.title} did not converge in {limit} iterations")
    else none
  | .failed _ => none

/-- **What is reported during a search** that was given `limit` rounds. -/
def Search.events (method : RootMethod) (limit : Nat) (s : Search) :
    List Event :=
  (s.opening.map (Opening.event method)).toList
    ++ s.steps.map (Iteration.event method)
    ++ (s.ending.event? method limit s.steps.length).toList

end Stepwise
