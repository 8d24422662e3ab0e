import Stepwise.Proofs.Roots.Bracketing
import Stepwise.Proofs.Roots.Open

/-!
# What a failure carries

A search that fails after some rounds has them in its record, and its error is
to hand them on. It does when no rounds are left and when a denominator is too
close to zero (`findRoot_failure`). But when a point is reached at which the
function is not finite, the error names this point only, and the rounds before
are lost (`findRoot_reciprocal`).
-/

namespace Stepwise

/-- What is said of a search that is refused at once. -/
def refusedSpec (error : RootError) (Stops : Iteration → Prop) :
    SearchSpec Unit where
  Refused := Eq error
  AtSeed _ := False
  Starts _ := False
  Inv _ := False
  Begins _ _ := False
  Leaves _ _ := False
  Sound _ := False
  Stops := Stops
  Stuck _ _ := False

/-- **Every search keeps to what its method says**, with the stopping test of the
method. -/
theorem exists_governs (f : Float → Float) (method : RootMethod) (seeds : Seeds)
    (settings : RootSettings) :
    ∃ (σ : Type) (spec : SearchSpec σ),
      spec.Governs f settings.maxIterations (search f method seeds settings)
        ∧ spec.Stops = method.Stops f settings.tolerance := by
  unfold search
  split
  · next a b =>
    exact ⟨_, _, governs_bracketSearch f .midpoint a b settings, rfl⟩
  · next a b => exact ⟨_, _, governs_bracketSearch f .chord a b settings, rfl⟩
  · next x0 => exact ⟨_, _, governs_newtonSearch f x0 settings, rfl⟩
  · next x0 x1 => exact ⟨_, _, governs_secantSearch f x0 x1 settings, rfl⟩
  · exact ⟨_, refusedSpec _ _, .of_refused rfl trivial, rfl⟩

/-- The rounds that a search completes, however it ends. -/
def completedRounds (f : Float → Float) (method : RootMethod) (seeds : Seeds)
    (settings : RootSettings) : List Iteration :=
  (search f method seeds settings).steps

/-- **What a failure carries**: the rounds that were completed, which are
numbered from one and do not meet the stopping test, unless it reports that the
function is not finite. -/
theorem findRoot_failure {f : Float → Float} {method : RootMethod}
    {seeds : Seeds} {settings : RootSettings} {error : RootError}
    (h : findRoot f method seeds settings = .error error) :
    (completedRounds f method seeds settings).map Iteration.number
        = List.range' 1 (completedRounds f method seeds settings).length
      ∧ (∀ step ∈ completedRounds f method seeds settings,
        ¬ method.Stops f settings.tolerance step)
      ∧ (error.iterations = completedRounds f method seeds settings
        ∨ ∃ x, error = .nonFiniteValue x ∧ (f x).isFinite = false) := by
  obtain ⟨σ, spec, governs, hstops⟩ := exists_governs f method seeds settings
  obtain ⟨goes, carries⟩ := governs.iterations_of_error method h
  rw [hstops] at goes
  exact ⟨governs.recorded.numbers, goes, carries⟩

/-- Bisection of `1 / x` that is given a single round. -/
theorem findRoot_failure_reciprocal :
    ∃ step, findRoot (fun x => 1 / x) .bisection (.bracket (-1) 3)
          ⟨1e-6, 1, 1e-6⟩
        = .error (.noConvergence 1 (some 1) [step])
      ∧ completedRounds (fun x => 1 / x) .bisection (.bracket (-1) 3)
          ⟨1e-6, 1, 1e-6⟩ = [step] := by
  have h : findRoot (fun x => 1 / x) .bisection (.bracket (-1) 3)
      ⟨1e-6, 1, 1e-6⟩ = .error (.noConvergence 1 (some 1)
        [.bracket 1 (-1) 3 1 (-1) (1 / 3) 1 (some 2)]) := by rfl
  obtain ⟨-, -, carries | ⟨x, hbare, -⟩⟩ := findRoot_failure h
  · exact ⟨_, h, carries.symm⟩
  · cases hbare

/-- **Rounds that are lost.** Bisection of `1 / x` between `-1` and `3` completes
a round, and then hits the pole. -/
theorem findRoot_reciprocal :
    completedRounds (fun x => 1 / x) .bisection (.bracket (-1) 3) {}
        = [.bracket 1 (-1) 3 1 (-1) (1 / 3) 1 (some 2)]
      ∧ ∃ error, findRoot (fun x => 1 / x) .bisection (.bracket (-1) 3) {}
          = .error error
        ∧ error.iterations = [] :=
  ⟨by rfl, .nonFiniteValue 0, by rfl, rfl⟩

end Stepwise
