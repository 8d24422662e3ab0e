import Stepwise.Number.Binary64
import Stepwise.Roots.Finder
import Stepwise.Wire.Basic

/-!
# The wire form of root finding

Doubles travel as they are. Seeds also come in from outside: as a record with
their `kind`, or as the list of its values.
-/

namespace Stepwise.Wire

/-- A round of a search. -/
def ofIteration : Iteration → Wire
  | .bracket number a b c fa fb fc error =>
    record [("kind", text "bracket"), ("iteration", nat number),
      ("a", double a), ("b", double b), ("c", double c), ("fa", double fa),
      ("fb", double fb), ("fc", double fc), ("error", optional double error)]
  | .newton number x fx dfx next error =>
    record [("kind", text "newton"), ("iteration", nat number),
      ("x", double x), ("fx", double fx), ("dfx", double dfx),
      ("next", double next), ("error", double error)]
  | .secant number xPrev x fPrev fx next error =>
    record [("kind", text "secant"), ("iteration", nat number),
      ("x_prev", double xPrev), ("x", double x), ("f_prev", double fPrev),
      ("fx", double fx), ("next", double next), ("error", double error)]

/-- A root that was found. -/
def ofConvergence (c : Convergence) : Wire :=
  record [("method", text c.method.name), ("root", double c.root),
    ("residual", double c.residual),
    ("iterations", listOf ofIteration c.iterations)]

/-- Seeds. -/
def ofSeeds : Seeds → Wire
  | .bracket a b =>
    record [("kind", text "bracket"), ("a", double a), ("b", double b)]
  | .single x0 => record [("kind", text "single"), ("x0", double x0)]
  | .pair x0 x1 =>
    record [("kind", text "pair"), ("x0", double x0), ("x1", double x1)]

/-- A root that was found from proposed seeds. -/
def ofAutoRoot (root : AutoRoot) : Wire :=
  record [("seeds", ofSeeds root.seeds),
    ("convergence", ofConvergence root.convergence)]

/-- A ranked pair. -/
def ofRankedPair (pair : RankedPair) : Wire :=
  record [("a", double pair.a), ("b", double pair.b),
    ("score", double pair.score)]

/-- A number as a double. -/
def toDouble? : Wire → Option Float :=
  asDouble? fun n => nearestDouble n

/-- The names of the values of each kind of seeds. -/
def seedFields? : String → Option (List String)
  | "bracket" => some ["a", "b"]
  | "single" => some ["x0"]
  | "pair" => some ["x0", "x1"]
  | _ => none

/-- The seeds of a kind with the given values. -/
def seedsOfValues? : String → List Float → Option Seeds
  | "bracket", [a, b] => some (.bracket a b)
  | "single", [x0] => some (.single x0)
  | "pair", [x0, x1] => some (.pair x0 x1)
  | _, _ => none

/-- **Reads seeds.** Fields of other names are passed over. -/
def toSeeds? : Wire → Option Seeds
  | record fields => do
    let some (text kind) := field? fields "kind" | none
    let names ← seedFields? kind
    let values ← names.mapM fun name => field? fields name >>= toDouble?
    seedsOfValues? kind values
  | list (text kind :: items) => do
    seedsOfValues? kind (← items.mapM toDouble?)
  | _ => none

end Stepwise.Wire
