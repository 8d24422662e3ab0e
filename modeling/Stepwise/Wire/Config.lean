import Stepwise.Linear.Solver
import Stepwise.Wire.Roots

/-!
# Configuration

A configuration gathers the settings of all methods. On the wire it is a
record all of whose fields may be missing, and so are its parts; fields of
other names are passed over. The list of the fields in order, or of the first
few of them, is read as well.
-/

namespace Stepwise

/-- **The settings of all methods.** -/
structure Config where
  root : RootSettings := {}
  scan : ScanSettings := {}
  inverseMethod : InverseMethod := .gaussJordan
  linearMethod : LinearMethod := .gaussJordan

namespace Wire

/-- The first integer that is no count. -/
def countLimit : Int := 0x10000000000000000

/-- Reads a count. -/
def toCount? : Wire → Option Nat
  | int value =>
    if 0 ≤ value ∧ value < countLimit then some value.toNat else none
  | _ => none

/-- Reads the name of an alternative, by itself or as the only field of a
record without content. -/
def toName? : Wire → Option String
  | text name => some name
  | record [(name, null)] => some name
  | _ => none

/-- The values of the fields of a record, or of a list that is not too long;
missing ones are `none`. -/
def fieldValues? (names : List String) : Wire → Option (List (Option Wire))
  | record fields => some (names.map (field? fields))
  | list items =>
    if items.length ≤ names.length then
      some ((List.range names.length).map fun i => items[i]?)
    else none
  | _ => none

/-- Reads a field, which may be missing. -/
def orDefault {α : Type} (decode : Wire → Option α) (default : α) :
    Option Wire → Option α
  | none => some default
  | some value => decode value

/-- Reads the settings of a search. -/
def toRootSettings? (value : Wire) : Option RootSettings := do
  let fallback : RootSettings := {}
  let [tolerance, maxIterations, derivativeStep] ←
    fieldValues? ["tolerance", "max_iterations", "derivative_step"] value
    | none
  return {
    tolerance := ← orDefault toDouble? fallback.tolerance tolerance
    maxIterations := ← orDefault toCount? fallback.maxIterations maxIterations
    derivativeStep :=
      ← orDefault toDouble? fallback.derivativeStep derivativeStep }

/-- Reads the range of a scan. -/
def toScanSettings? (value : Wire) : Option ScanSettings := do
  let fallback : ScanSettings := {}
  let [start, stop, step] ← fieldValues? ["start", "end", "step"] value
    | none
  return {
    start := ← orDefault toDouble? fallback.start start
    stop := ← orDefault toDouble? fallback.stop stop
    step := ← orDefault toDouble? fallback.step step }

/-- Reads a method of inversion. -/
def toInverseMethod? (value : Wire) : Option InverseMethod :=
  toName? value >>= InverseMethod.ofName?

/-- Reads a method for linear systems. -/
def toLinearMethod? (value : Wire) : Option LinearMethod :=
  toName? value >>= LinearMethod.ofName?

/-- **Reads a configuration.** -/
def toConfig? (value : Wire) : Option Config := do
  let [root, scan, inverseMethod, linearMethod] ←
    fieldValues? ["root", "scan", "inverse_method", "linear_method"] value
    | none
  return {
    root := ← orDefault toRootSettings? {} root
    scan := ← orDefault toScanSettings? {} scan
    inverseMethod := ← orDefault toInverseMethod? .gaussJordan inverseMethod
    linearMethod := ← orDefault toLinearMethod? .gaussJordan linearMethod }

/-- The settings of a search. -/
def ofRootSettings (s : RootSettings) : Wire :=
  record [("tolerance", double s.tolerance),
    ("max_iterations", nat s.maxIterations),
    ("derivative_step", double s.derivativeStep)]

/-- The range of a scan. -/
def ofScanSettings (s : ScanSettings) : Wire :=
  record [("start", double s.start), ("end", double s.stop),
    ("step", double s.step)]

/-- **Writes a configuration.** -/
def ofConfig (c : Config) : Wire :=
  record [("root", ofRootSettings c.root), ("scan", ofScanSettings c.scan),
    ("inverse_method", text c.inverseMethod.name),
    ("linear_method", text c.linearMethod.name)]

end Wire

end Stepwise
