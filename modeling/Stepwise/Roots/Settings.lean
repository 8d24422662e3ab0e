import Stepwise.Number.DoubleText

/-!
# Settings of the root finders

The thresholds of a search and the range of a scan. A search or a scan looks
at its settings before anything else and refuses to start when they make no
sense.
-/

namespace Stepwise

/-- What is wrong with the settings. -/
inductive SettingsFault where
  | tolerance
  | maxIterations
  | derivativeStep
  | scanNotFinite
  | scanOrder
  | scanStep
  | scanSize
  deriving DecidableEq

/-- The largest number of steps that a scan may take. -/
def maxScanSamples : Nat := 1000000

/-- The fault in words. -/
def SettingsFault.message : SettingsFault → String
  | .tolerance => "tolerance must be positive and finite"
  | .maxIterations => "max_iterations must be greater than zero"
  | .derivativeStep => "derivative_step must be positive and finite"
  | .scanNotFinite => "scan range and step must be finite"
  | .scanOrder => "scan end must be greater than start"
  | .scanStep => "scan step must be positive"
  | .scanSize => s!"scan would take more than {maxScanSamples} samples"

/-- **The settings of a search.** -/
structure RootSettings where
  /-- A residual or a step below this ends the search. -/
  tolerance : Float := 1e-6
  /-- How many rounds a search may take. -/
  maxIterations : Nat := 100
  /-- The step of the central difference. -/
  derivativeStep : Float := 1e-6

/-- A positive finite double. -/
def isPositiveFinite (x : Float) : Bool :=
  x.isFinite && decide (0 < x)

/-- Refuses settings that no search can use. -/
def RootSettings.validate (s : RootSettings) : Except SettingsFault Unit :=
  if !isPositiveFinite s.tolerance then .error .tolerance
  else if s.maxIterations = 0 then .error .maxIterations
  else if !isPositiveFinite s.derivativeStep then .error .derivativeStep
  else .ok ()

/-- **The range of a scan**, and the distance of its samples. -/
structure ScanSettings where
  start : Float := -10
  stop : Float := 10
  step : Float := 0.5

/-- How many steps of a scan fit into its range, as a double. -/
def ScanSettings.span (s : ScanSettings) : Float :=
  (s.stop - s.start) / s.step

/-- Refuses a range that cannot be scanned. -/
def ScanSettings.validate (s : ScanSettings) : Except SettingsFault Unit :=
  if !(s.start.isFinite && s.stop.isFinite && s.step.isFinite) then
    .error .scanNotFinite
  else if s.stop ≤ s.start then .error .scanOrder
  else if s.step ≤ 0 then .error .scanStep
  else if Float.ofNat maxScanSamples < s.span then .error .scanSize
  else .ok ()

end Stepwise
