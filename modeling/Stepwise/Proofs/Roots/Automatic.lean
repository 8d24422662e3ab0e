import Stepwise.Proofs.Roots.Bracketing
import Stepwise.Proofs.Roots.Grid

/-!
# Brackets that a scan proposes

The bracketing methods are given the first pair of neighbouring samples between
which the sign changes or of which one counts as a root. The samples of a scan
are finite (`ScanSettings.IsAccepted.isFinite_of_mem_grid`), and so are the
values at the ends of the pair. But the method measures with a threshold of its
own, and it wants two points. So it may still refuse the pair, when a sampled
value counts as a root for the scan and not for the tolerance, and when the step
of the scan is lost in the magnitude of the samples (`autoFindRoot_bracketing`,
`autoFindRoot_refused`).
-/

namespace Stepwise

/-! ## The samples of a scan -/

section Scan

variable {f : Float → Float} {scan : ScanSettings}

/-- **What the first bracket of a scan is**: two neighbours on its grid, which
are finite as the values there are, between which the sign changes or of which
one counts as a root. -/
structure IsProposed (f : Float → Float) (scan : ScanSettings) (a b : Float) :
    Prop where
  neighbours : (a, b) ∈ scan.grid.zip (scan.grid.drop 1)
  finite : a.isFinite = true ∧ b.isFinite = true
  values : (f a).isFinite = true ∧ (f b).isFinite = true
  promising : changesSign (f a) (f b) = true
    ∨ (f a).abs < rootEpsilon ∨ (f b).abs < rootEpsilon

theorem isProposed_of_findBracket {a b : Float}
    (h : findBracket f scan = .ok (some (a, b))) : IsProposed f scan a b := by
  unfold findBracket samples at h
  cases hscan : scan.validate with
  | error fault => rw [hscan] at h; cases h
  | ok accepted =>
    rw [hscan] at h
    obtain ⟨pair, hfind, hpoints⟩ :=
      Option.map_eq_some_iff.mp (Except.ok.inj h)
    obtain ⟨hzip, hvalues⟩ :=
      List.mem_filter.mp (List.mem_of_find?_eq_some hfind)
    have hpromising := List.find?_some hfind
    rw [← List.map_drop, List.zip_map] at hzip
    obtain ⟨⟨x, y⟩, hneighbours, rfl⟩ := List.mem_map.mp hzip
    cases hpoints
    obtain ⟨hx, hy⟩ := List.of_mem_zip hneighbours
    rw [Bool.or_eq_true, touchesRoot, Bool.or_eq_true, decide_eq_true_iff,
      decide_eq_true_iff] at hpromising
    have haccepted := ScanSettings.isAccepted_of_validate hscan
    exact ⟨hneighbours,
      ⟨haccepted.isFinite_of_mem_grid hx,
        haccepted.isFinite_of_mem_grid (List.mem_of_mem_drop hy)⟩,
      Bool.and_eq_true _ _ ▸ hvalues, hpromising⟩

theorem eq_of_findBracket_eq_error {error : RootError}
    (h : findBracket f scan = .error error) :
    ∃ fault, error = .invalidSettings fault := by
  unfold findBracket samples at h
  cases hscan : scan.validate with
  | error fault =>
    rw [hscan] at h
    exact ⟨fault, (Except.error.inj h).symm⟩
  | ok accepted =>
    rw [hscan] at h
    cases h

end Scan

/-! ## What becomes of the pair -/

section Automatic

variable {f : Float → Float} {rule : BracketRule} {scan : ScanSettings}
  {settings : RootSettings}

/-- The seeds that are proposed to a bracketing method. -/
theorem proposeSeeds_bracketing (f : Float → Float) (rule : BracketRule)
    (scan : ScanSettings) :
    proposeSeeds f rule.method scan
      = (firstBracket f scan).map fun pair => .bracket pair.1 pair.2 := by
  cases rule <;>
    · unfold proposeSeeds BracketRule.method
      cases firstBracket f scan <;> rfl

/-- **What automatic bracketing comes to**: settings that make no sense, a range
without a bracket, or a run of the method from the first one. -/
theorem autoFindRoot_cases (f : Float → Float) (rule : BracketRule)
    (scan : ScanSettings) (settings : RootSettings) :
    (∃ fault, autoFindRoot f rule.method scan settings
        = .error (.invalidSettings fault))
      ∨ autoFindRoot f rule.method scan settings = .error .noBracketFound
      ∨ ∃ a b, findBracket f scan = .ok (some (a, b))
        ∧ autoFindRoot f rule.method scan settings
          = (findRoot f rule.method (.bracket a b) settings).map
            fun convergence => ⟨.bracket a b, convergence⟩ := by
  unfold autoFindRoot autoSeeds
  cases settings.validate with
  | error fault => exact .inl ⟨fault, rfl⟩
  | ok accepted =>
  rw [proposeSeeds_bracketing, firstBracket]
  cases hscan : findBracket f scan with
  | error error =>
    obtain ⟨fault, rfl⟩ := eq_of_findBracket_eq_error hscan
    exact .inl ⟨fault, rfl⟩
  | ok bracket? =>
    cases bracket? with
    | none => exact .inr (.inl rfl)
    | some bracket =>
      refine .inr (.inr ⟨bracket.1, bracket.2, rfl, ?_⟩)
      change (findRoot f rule.method (.bracket bracket.1 bracket.2) settings
        >>= _) = _
      cases findRoot f rule.method (.bracket bracket.1 bracket.2) settings
        <;> rfl

/-- Two values are told apart by a threshold that one of them does not reach. -/
theorem tolerance_lt_rootEpsilon {y : Float}
    (haccepted : settings.validate = .ok ())
    (hlarge : ¬ y.abs < settings.tolerance) (hsmall : y.abs < rootEpsilon) :
    settings.tolerance < rootEpsilon :=
  Double.lt_of_not_lt_of_lt (RootSettings.isFinite_tolerance haccepted) hlarge
    hsmall

/-- **Why a proposed pair is refused for its signs.** -/
theorem IsProposed.of_noSignChange {a b low high flow fhigh : Float}
    (h : IsProposed f scan a b)
    (hrefused : BracketRefusal f a b settings
      (.noSignChange low high flow fhigh)) :
    settings.tolerance < rootEpsilon
      ∧ ((f a).abs < rootEpsilon ∨ (f b).abs < rootEpsilon) := by
  obtain - | - | - | ⟨hsorted, haccepted, hsame, hlarge⟩ := hrefused
  have hends : (f a < 0 ↔ f b < 0) ∧ ¬ (f a).abs < settings.tolerance
      ∧ ¬ (f b).abs < settings.tolerance := by
    obtain ⟨-, ⟨rfl, rfl⟩ | ⟨rfl, rfl⟩⟩ := hsorted
    · exact ⟨hsame, hlarge⟩
    · exact ⟨hsame.symm, hlarge.symm⟩
  obtain ⟨hsame, hlarge, hlarge'⟩ := hends
  obtain hcrosses | hsmall | hsmall := h.promising
  · rw [changesSign, sameSign_eq_true_iff.mpr hsame, Bool.not_true,
      Bool.and_false] at hcrosses
    cases hcrosses
  · exact ⟨tolerance_lt_rootEpsilon haccepted hlarge hsmall, .inl hsmall⟩
  · exact ⟨tolerance_lt_rootEpsilon haccepted hlarge' hsmall, .inr hsmall⟩

/-- **Why a proposed pair is refused as seeds.** -/
theorem IsProposed.of_invalidSeeds {a b : Float} {fault : SeedsFault}
    (h : IsProposed f scan a b)
    (hrefused : BracketRefusal f a b settings (.invalidSeeds fault)) :
    fault = .bracket a b ∧ (a == b) = true := by
  cases hrefused with
  | seeds why =>
    rcases why with hinfinite | hequal
    · rw [h.finite.1, h.finite.2] at hinfinite
      cases hinfinite
    · exact ⟨rfl, hequal⟩

/-- **When automatic bracketing hands over a pair that its method refuses.** For
a missing change of sign the tolerance must be smaller than what counts as a root
in a scan, and the pair must have been chosen for such a root. As seeds the pair
is only refused if it is one point twice. A root that is found is the one that
the method finds from the seeds that are reported. -/
theorem autoFindRoot_bracketing (f : Float → Float) (rule : BracketRule)
    (scan : ScanSettings) (settings : RootSettings) :
    (∀ low high flow fhigh,
        autoFindRoot f rule.method scan settings
            = .error (.noSignChange low high flow fhigh) →
          settings.tolerance < rootEpsilon
            ∧ ∃ a b, findBracket f scan = .ok (some (a, b))
              ∧ IsProposed f scan a b
              ∧ ((f a).abs < rootEpsilon ∨ (f b).abs < rootEpsilon))
      ∧ (∀ fault,
        autoFindRoot f rule.method scan settings
            = .error (.invalidSeeds fault) →
          ∃ a b, findBracket f scan = .ok (some (a, b))
            ∧ IsProposed f scan a b
            ∧ fault = .bracket a b ∧ (a == b) = true)
      ∧ ∀ found, autoFindRoot f rule.method scan settings = .ok found →
        findRoot f rule.method found.seeds settings
          = .ok found.convergence := by
  obtain ⟨fault, hauto⟩ | hauto | ⟨a, b, hscan, hauto⟩ :=
    autoFindRoot_cases f rule scan settings
  · rw [hauto]
    exact ⟨nofun, nofun, nofun⟩
  · rw [hauto]
    exact ⟨nofun, nofun, nofun⟩
  rw [hauto]
  have hproposed := isProposed_of_findBracket hscan
  cases hrun : findRoot f rule.method (.bracket a b) settings with
  | ok convergence =>
    refine ⟨nofun, nofun, fun found hfound => ?_⟩
    cases Except.ok.inj hfound
    exact hrun
  | error error =>
    have hfails := bracketFailure_of_error f rule a b settings hrun
    refine ⟨fun low high flow fhigh heq => ?_, fun fault heq => ?_, nofun⟩
    · cases Except.error.inj heq
      cases hfails with
      | refused hrefused =>
        obtain ⟨htolerance, hroot⟩ := hproposed.of_noSignChange hrefused
        exact ⟨htolerance, a, b, hscan, hproposed, hroot⟩
    · cases Except.error.inj heq
      cases hfails with
      | refused hrefused =>
        exact ⟨a, b, hscan, hproposed, hproposed.of_invalidSeeds hrefused⟩

set_option maxRecDepth 4000 in
/-- A root of `x² - 4` that is a sample. -/
theorem autoFindRoot_bracketing_square :
    ∃ found, autoFindRoot (fun x => x * x - 4) .bisection ⟨0, 4, 2⟩ {}
        = .ok found
      ∧ findRoot (fun x => x * x - 4) .bisection found.seeds {}
        = .ok found.convergence := by
  obtain ⟨-, -, hfound⟩ :=
    autoFindRoot_bracketing (fun x => x * x - 4) .midpoint ⟨0, 4, 2⟩ {}
  exact ⟨_, rfl, hfound _ rfl⟩

set_option maxRecDepth 4000 in
/-- **Pairs that are refused.** The values of `x² + 10⁻¹³` count as roots around
zero, but not for a tolerance of `10⁻¹⁴`; and a step of a half is lost at `10¹⁶`,
where the first two samples are one point, a root of `x - 10¹⁶`. -/
theorem autoFindRoot_refused :
    (∃ low high flow fhigh,
        autoFindRoot (fun x => x * x + 1e-13) .bisection ⟨-1, 1, 0.5⟩
            ⟨1e-14, 100, 1e-6⟩
          = .error (.noSignChange low high flow fhigh))
      ∧ ∃ fault,
        autoFindRoot (fun x => x - 1e16) .bisection ⟨1e16, 1e16 + 4, 0.5⟩ {}
          = .error (.invalidSeeds fault) :=
  ⟨⟨_, _, _, _, rfl⟩, ⟨_, rfl⟩⟩

end Automatic

end Stepwise
