import Mathlib.Data.List.Chain
import Stepwise.Roots.Search

/-!
# The rounds of a search

A search makes rounds as long as each of them goes on (`Advances`). It ends when
no rounds are left, when a round stops before it is completed, or with a round
that is completed and is the last (`Ends`). Whatever the method, the rounds that
are made are of this form (`ends_rounds`).

A method says in a `SearchSpec` how its searches start and what it knows of a
single round: what holds of its states, how a recorded round shows the state it
began in and the one it left behind, and when it is the last. If single rounds
keep to this (`SearchSpec.Law`), then a whole search does: its rounds are
numbered from one, each begins where the one before left off, and only the last
meets the stopping test (`SearchSpec.Law.governs`).

What the result of a search carries and says follows from this
(`SearchSpec.Governs.concludes`, `SearchSpec.Governs.recorded_carriedRounds`).
-/

namespace Stepwise

variable {σ : Type}

/-! ## Rounds that go on, and how they end -/

/-- **Rounds that all go on**, from the first state to another. -/
inductive Advances (round : Nat → σ → Round σ) (first : σ) :
    List Iteration → σ → Prop where
  | start : Advances round first [] first
  | go {steps : List Iteration} {s s' : σ} {step : Iteration}
      (before : Advances round first steps s)
      (made : round (steps.length + 1) s = .advance step s') :
      Advances round first (steps ++ [step]) s'

/-- **How rounds end**: all that were allowed went on, or after some that went
on another stopped on the way, or was completed and is the last. -/
inductive Ends (round : Nat → σ → Round σ) (spent : σ → Ending) (limit : Nat)
    (first : σ) : List Iteration → Ending → Prop where
  | exhausted {steps : List Iteration} {s : σ}
      (before : Advances round first steps s) (full : steps.length = limit) :
      Ends round spent limit first steps (spent s)
  | stopped {steps : List Iteration} {s : σ} {ending : Ending}
      (before : Advances round first steps s) (room : steps.length < limit)
      (made : round (steps.length + 1) s = .stop ending) :
      Ends round spent limit first steps ending
  | finished {steps : List Iteration} {s : σ} {step : Iteration}
      {ending : Ending} (before : Advances round first steps s)
      (room : steps.length < limit)
      (made : round (steps.length + 1) s = .finish step ending) :
      Ends round spent limit first (steps ++ [step]) ending

section Rounds

variable {round : Nat → σ → Round σ} {spent : σ → Ending} {limit : Nat}
  {first : σ}

theorem ends_roundsFrom {left : Nat} {s : σ} {done : List Iteration}
    (h : Advances round first done.reverse s)
    (hlimit : done.length + left = limit) :
    Ends round spent limit first
      (roundsFrom round spent left (done.length + 1) s done).1
      (roundsFrom round spent left (done.length + 1) s done).2 := by
  -- on the rounds that are left, for any rounds made before, the latest first
  induction left generalizing s done with
  | zero => exact .exhausted h (List.length_reverse.trans hlimit)
  | succ left ih =>
    have hlen : done.reverse.length = done.length := List.length_reverse
    have hroom : done.reverse.length < limit := by omega
    unfold roundsFrom
    split
    · next ending hmade => exact .stopped h hroom (by rwa [hlen])
    · next step ending hmade =>
      rw [List.reverse_cons]
      exact .finished h hroom (by rwa [hlen])
    · next step s' hmade =>
      have hgo : Advances round first (step :: done).reverse s' := by
        rw [List.reverse_cons]
        exact .go h (by rwa [hlen])
      exact ih hgo (by rw [List.length_cons]; omega)

/-- **The rounds of a search end in one of the three ways.** -/
theorem ends_rounds (round : Nat → σ → Round σ) (spent : σ → Ending)
    (limit : Nat) (first : σ) :
    Ends round spent limit first (rounds round spent limit first).1
      (rounds round spent limit first).2 :=
  ends_roundsFrom .start (by rw [List.length_nil, Nat.zero_add])

end Rounds

/-! ## What is recorded -/

/-- **Rounds in good order**: they are numbered from one without gaps, the first
is as `First` says and each as `Sound` says, and neighbours are linked by
`Next`. -/
structure Recorded (First Sound : Iteration → Prop)
    (Next : Iteration → Iteration → Prop) (steps : List Iteration) : Prop where
  numbers : steps.map Iteration.number = List.range' 1 steps.length
  first : ∀ step ∈ steps.head?, First step
  sound : ∀ step ∈ steps, Sound step
  linked : steps.IsChain Next

namespace Recorded

variable {First Sound : Iteration → Prop} {Next : Iteration → Iteration → Prop}
  {steps : List Iteration}

theorem nil : Recorded First Sound Next [] :=
  ⟨rfl, nofun, nofun, .nil⟩

/-- One more round. -/
theorem concat (h : Recorded First Sound Next steps) {step : Iteration}
    (number : step.number = steps.length + 1)
    (begins : steps = [] → First step) (sound : Sound step)
    (next : ∀ last ∈ steps.getLast?, Next last step) :
    Recorded First Sound Next (steps ++ [step]) where
  numbers := by
    rw [List.map_append, h.numbers, List.map_singleton, number,
      List.length_append, List.length_singleton, List.range'_1_concat,
      Nat.add_comm 1]
  first := by
    cases steps with
    | nil => exact fun step' hstep' => Option.some.inj hstep' ▸ begins rfl
    | cons head tail => exact h.first
  sound := by
    intro step' hstep'
    rcases List.mem_append.mp hstep' with hstep' | hstep'
    · exact h.sound step' hstep'
    · exact List.mem_singleton.mp hstep' ▸ sound
  linked := by
    refine List.isChain_append.mpr ⟨h.linked, .singleton step, ?_⟩
    intro last hlast step' hstep'
    exact Option.some.inj hstep' ▸ next last hlast

theorem mono {First' Sound' : Iteration → Prop}
    {Next' : Iteration → Iteration → Prop}
    (h : Recorded First Sound Next steps)
    (hfirst : ∀ step, First step → First' step)
    (hsound : ∀ step, Sound step → Sound' step)
    (hnext : ∀ step step', Next step step' → Next' step step') :
    Recorded First' Sound' Next' steps :=
  ⟨h.numbers, fun step hstep => hfirst step (h.first step hstep),
    fun step hstep => hsound step (h.sound step hstep),
    h.linked.imp hnext⟩

end Recorded

/-! ## What a result says -/

/-- **The rounds that a result carries**, an error if it has a place for them. -/
def carriedRounds : Except RootError Convergence → List Iteration
  | .ok convergence => convergence.iterations
  | .error (.derivativeNearZero _ _ steps) => steps
  | .error (.zeroDenominator _ _ steps) => steps
  | .error (.noConvergence _ _ steps) => steps
  | .error _ => []

theorem carriedRounds_error (error : RootError) :
    carriedRounds (.error error) = error.iterations := by
  cases error <;> rfl

/-- **What a result says about its rounds.** A root is the estimate of the last
round, the only one that meets the stopping test, or else a seed, found without
a round; the residual is the magnitude of the function there. When no
convergence is reported all rounds were made, none of them meets the test, and
the last estimate is the one reported. -/
structure Concludes (f : Float → Float) (method : RootMethod) (limit : Nat)
    (AtSeed : Float → Prop) (Stops : Iteration → Prop)
    (result : Except RootError Convergence) : Prop where
  ok : ∀ convergence, result = .ok convergence →
    convergence.method = method
      ∧ convergence.residual = (f convergence.root).abs
      ∧ ((convergence.iterations = [] ∧ AtSeed convergence.root)
        ∨ ∃ earlier last, convergence.iterations = earlier ++ [last]
          ∧ (∀ step ∈ earlier, ¬ Stops step) ∧ Stops last
          ∧ convergence.root = last.estimate)
  noConvergence : ∀ count last steps,
    result = .error (.noConvergence count last steps) →
      count = limit ∧ steps.length = limit ∧ (∀ step ∈ steps, ¬ Stops step)
        ∧ ∃ step ∈ steps.getLast?, last = some step.estimate

/-- An error that has no place for rounds. -/
def RootError.IsBare : RootError → Prop
  | noSignChange _ _ _ _ | nonFiniteValue _ | invalidSettings _
  | invalidSeeds _ | noBracketFound => True
  | derivativeNearZero _ _ _ | zeroDenominator _ _ _
  | noConvergence _ _ _ => False

/-- An ending between two rounds: the function is not finite at a point that was
needed, or a denominator is too close to zero. -/
def Ending.Interrupts (f : Float → Float) : Ending → Prop
  | .failed (.nonFiniteValue x) => (f x).isFinite = false
  | .flatTangent _ _ | .flatChord _ _ _ => True
  | _ => False

theorem RootError.iterations_of_isBare {error : RootError}
    (h : error.IsBare) : error.iterations = [] := by
  cases error <;> first | rfl | exact h.elim

theorem Ending.eq_of_interrupts {f : Float → Float} {ending : Ending}
    (h : ending.Interrupts f) :
    (∃ x, ending = .failed (.nonFiniteValue x) ∧ (f x).isFinite = false)
      ∨ (∃ x derivative, ending = .flatTangent x derivative)
      ∨ ∃ xPrev x denominator, ending = .flatChord xPrev x denominator := by
  cases ending with
  | failed error =>
    cases error with
    | nonFiniteValue x => exact .inl ⟨x, rfl, h⟩
    | _ => exact h.elim
  | flatTangent x derivative => exact .inr (.inl ⟨x, derivative, rfl⟩)
  | flatChord xPrev x denominator =>
    exact .inr (.inr ⟨xPrev, x, denominator, rfl⟩)
  | _ => exact h.elim

/-! ## From single rounds to a whole run -/

/-- **What a method says of its searches**: of their start and, in terms of the
states between them, of their rounds. -/
structure SearchSpec (σ : Type) where
  /-- The search is refused with this error. -/
  Refused : RootError → Prop
  /-- A seed that is a root already. -/
  AtSeed : Float → Prop
  /-- The first round begins in this state. -/
  Starts : σ → Prop
  /-- What holds of every state. -/
  Inv : σ → Prop
  /-- The round shows this state as the one it began in. -/
  Begins : σ → Iteration → Prop
  /-- The round shows this state as the one it left behind. -/
  Leaves : Iteration → σ → Prop
  Sound : Iteration → Prop
  /-- The round meets the stopping test. -/
  Stops : Iteration → Prop
  /-- In this state a round cannot be completed, and why. -/
  Stuck : σ → Ending → Prop

namespace SearchSpec

variable (spec : SearchSpec σ)

/-- The first round. -/
def First (step : Iteration) : Prop :=
  ∃ s, spec.Starts s ∧ spec.Begins s step

/-- A round goes on where another left off. -/
def Next (step step' : Iteration) : Prop :=
  ∃ s, spec.Leaves step s ∧ spec.Begins s step'

/-- The state that was reached: a first one, or the one that the last round left
behind. -/
def StandsAt (steps : List Iteration) (s : σ) : Prop :=
  (steps = [] ∧ spec.Starts s) ∨ ∃ last ∈ steps.getLast?, spec.Leaves last s

/-- **What a round may come to**, in a state that is as it should be. A round
that is completed records where it began, and it is the last if it meets the
stopping test. If it does not, it leaves a state behind that is as it should be
again. -/
inductive Outcome (f : Float → Float) (number : Nat) (s : σ) :
    Round σ → Prop where
  | stop {ending : Ending} (why : spec.Stuck s ending)
      (interrupts : ending.Interrupts f) : Outcome f number s (.stop ending)
  | finish {step : Iteration} (isNumber : step.number = number)
      (begins : spec.Begins s step) (sound : spec.Sound step)
      (stops : spec.Stops step) :
      Outcome f number s
        (.finish step (.converged step.estimate (f step.estimate).abs))
  | advance {step : Iteration} {s' : σ} (isNumber : step.number = number)
      (begins : spec.Begins s step) (sound : spec.Sound step)
      (goes : ¬ spec.Stops step) (inv : spec.Inv s')
      (leaves : spec.Leaves step s') : Outcome f number s (.advance step s')

/-- **Single rounds keep to what a method says of them**, and the last estimate
is reported when none is left. -/
structure Law (f : Float → Float) (round : Nat → σ → Round σ)
    (spent : σ → Ending) : Prop where
  outcome : ∀ {s}, spec.Inv s → ∀ number,
    spec.Outcome f number s (round number s)
  exhausts : ∀ {step s}, spec.Leaves step s →
    spent s = .exhausted (some step.estimate)

/-- **The course of a search**, told from the rounds it made. It was refused, or
a seed was a root; or it made rounds, of which only the last may meet the
stopping test, until that round met it, all were used up, or one could not be
completed. -/
inductive Course (f : Float → Float) (limit : Nat) :
    List Iteration → Ending → Prop where
  | refused {error : RootError} (why : spec.Refused error)
      (bare : error.IsBare) : Course f limit [] (.failed error)
  | atSeed {root : Float} (isSeed : spec.AtSeed root) :
      Course f limit [] (.atSeed root (f root).abs)
  | converged {earlier : List Iteration} {last : Iteration}
      (room : earlier.length < limit)
      (goes : ∀ step ∈ earlier, ¬ spec.Stops step)
      (stops : spec.Stops last) :
      Course f limit (earlier ++ [last])
        (.converged last.estimate (f last.estimate).abs)
  | exhausted {steps : List Iteration} {last : Iteration}
      (full : steps.length = limit) (goes : ∀ step ∈ steps, ¬ spec.Stops step)
      (isLast : last ∈ steps.getLast?) :
      Course f limit steps (.exhausted (some last.estimate))
  | stuck {steps : List Iteration} {s : σ} {ending : Ending}
      (room : steps.length < limit) (goes : ∀ step ∈ steps, ¬ spec.Stops step)
      (stands : spec.StandsAt steps s) (why : spec.Stuck s ending)
      (interrupts : ending.Interrupts f) : Course f limit steps ending

/-- The rounds went on until one could not be completed. -/
structure Halts (limit : Nat) (steps : List Iteration) (s : σ)
    (ending : Ending) : Prop where
  room : steps.length < limit
  goes : ∀ step ∈ steps, ¬ spec.Stops step
  stands : spec.StandsAt steps s
  why : spec.Stuck s ending

/-- **Why a search fails.** -/
inductive Failure (f : Float → Float) (limit : Nat) : RootError → Prop where
  | refused {error : RootError} (why : spec.Refused error) :
      Failure f limit error
  | exhausted (last : Option Float) (steps : List Iteration) :
      Failure f limit (.noConvergence limit last steps)
  | value {x : Float} (why : (f x).isFinite = false) :
      Failure f limit (.nonFiniteValue x)
  | flatTangent {s : σ} {x derivative : Float} {steps : List Iteration}
      (halts : spec.Halts limit steps s (.flatTangent x derivative)) :
      Failure f limit (.derivativeNearZero x derivative steps)
  | flatChord {s : σ} {xPrev x denominator : Float} {steps : List Iteration}
      (halts : spec.Halts limit steps s (.flatChord xPrev x denominator)) :
      Failure f limit (.zeroDenominator xPrev x steps)

/-- **A search that keeps to what its method says**: its rounds are recorded in
good order, within their limit, and it takes one of the courses. -/
structure Governs (f : Float → Float) (limit : Nat) (search : Search) :
    Prop where
  recorded : Recorded spec.First spec.Sound spec.Next search.steps
  length_le : search.steps.length ≤ limit
  course : spec.Course f limit search.steps search.ending

variable {spec} {f : Float → Float} {limit : Nat}

section Law

variable {round : Nat → σ → Round σ} {spent : σ → Ending} {first : σ}

/-- The next round goes on from the state that was reached. -/
theorem recorded_concat {steps : List Iteration} {s : σ} {step : Iteration}
    (h : Recorded spec.First spec.Sound spec.Next steps)
    (stands : spec.StandsAt steps s) (isNumber : step.number = steps.length + 1)
    (begins : spec.Begins s step) (sound : spec.Sound step) :
    Recorded spec.First spec.Sound spec.Next (steps ++ [step]) := by
  refine h.concat isNumber (fun hnil => ?_) sound fun last hlast => ?_
  · rcases stands with ⟨-, starts⟩ | ⟨last, hlast, -⟩
    · exact ⟨s, starts, begins⟩
    · rw [hnil] at hlast
      cases hlast
  · rcases stands with ⟨rfl, -⟩ | ⟨last', hlast', leaves⟩
    · cases hlast
    · cases Option.mem_unique hlast hlast'
      exact ⟨s, leaves, begins⟩

variable (law : spec.Law f round spent) (hinv : spec.Inv first)
  (hstarts : spec.Starts first)

include law hinv hstarts

/-- **What rounds that go on keep.** -/
theorem Law.of_advances {steps : List Iteration} {s : σ}
    (h : Advances round first steps s) :
    spec.Inv s ∧ spec.StandsAt steps s
      ∧ Recorded spec.First spec.Sound spec.Next steps
      ∧ ∀ step ∈ steps, ¬ spec.Stops step := by
  -- on the rounds made; where the chain stands is what links the next one
  induction h with
  | start => exact ⟨hinv, .inl ⟨rfl, hstarts⟩, .nil, nofun⟩
  | @go steps s s' step before made ih =>
    obtain ⟨inv, stands, recorded, goes⟩ := ih
    have houtcome := law.outcome inv (steps.length + 1)
    rw [made] at houtcome
    obtain - | - | ⟨isNumber, begins, sound, hgoes, inv', leaves⟩ := houtcome
    refine ⟨inv', .inr ⟨step, List.getLast?_concat, leaves⟩,
      recorded_concat recorded stands isNumber begins sound, ?_⟩
    intro step' hstep'
    rcases List.mem_append.mp hstep' with hstep' | hstep'
    · exact goes step' hstep'
    · exact List.mem_singleton.mp hstep' ▸ hgoes

/-- However the rounds end, this is one of the courses. -/
theorem Law.of_ends (hlimit : 0 < limit) {steps : List Iteration}
    {ending : Ending} (h : Ends round spent limit first steps ending) :
    Recorded spec.First spec.Sound spec.Next steps ∧ steps.length ≤ limit
      ∧ spec.Course f limit steps ending := by
  cases h with
  | exhausted before full =>
    obtain ⟨-, stands, recorded, goes⟩ := law.of_advances hinv hstarts before
    rcases stands with ⟨rfl, -⟩ | ⟨last, hlast, leaves⟩
    · exact absurd full hlimit.ne
    · rw [law.exhausts leaves]
      exact ⟨recorded, full.le, .exhausted full goes hlast⟩
  | stopped before room made =>
    obtain ⟨inv, stands, recorded, goes⟩ := law.of_advances hinv hstarts before
    have houtcome := law.outcome inv (steps.length + 1)
    rw [made] at houtcome
    obtain ⟨why, interrupts⟩ := houtcome
    exact ⟨recorded, room.le, .stuck room goes stands why interrupts⟩
  | @finished steps s step ending before room made =>
    obtain ⟨inv, stands, recorded, goes⟩ := law.of_advances hinv hstarts before
    have houtcome := law.outcome inv (steps.length + 1)
    rw [made] at houtcome
    obtain - | ⟨isNumber, begins, sound, stops⟩ := houtcome
    refine ⟨recorded_concat recorded stands isNumber begins sound, ?_,
      .converged room goes stops⟩
    rw [List.length_append, List.length_singleton]
    omega

/-- **A search of lawful rounds** keeps to what its method says. -/
theorem Law.governs (hlimit : 0 < limit) (opening : Opening) :
    spec.Governs f limit
      (.iterating opening round spent limit first) := by
  obtain ⟨recorded, length_le, course⟩ :=
    law.of_ends hinv hstarts hlimit (ends_rounds round spent limit first)
  exact ⟨recorded, length_le, course⟩

end Law

namespace Governs

/-- A search that was refused. -/
theorem of_refused {opening : Option Opening} {error : RootError}
    (why : spec.Refused error) (bare : error.IsBare) :
    spec.Governs f limit (.immediate opening (.failed error)) :=
  ⟨.nil, limit.zero_le, .refused why bare⟩

/-- A search that found a seed to be a root. -/
theorem of_atSeed {opening : Option Opening} {root : Float}
    (isSeed : spec.AtSeed root) :
    spec.Governs f limit (.immediate opening (.atSeed root (f root).abs)) :=
  ⟨.nil, limit.zero_le, .atSeed isSeed⟩

variable {search : Search} (h : spec.Governs f limit search)
  (method : RootMethod)

include h

/-- **The result says what the course was.** -/
theorem concludes :
    Concludes f method limit spec.AtSeed spec.Stops
      (search.result method limit) := by
  obtain ⟨-, -, course⟩ := h
  obtain ⟨opening, steps, ending⟩ := search
  cases course with
  | @refused error why bare =>
    refine ⟨nofun, fun count last steps heq => ?_⟩
    cases Except.error.inj heq
    exact bare.elim
  | atSeed isSeed =>
    refine ⟨fun convergence heq => ?_, nofun⟩
    cases Except.ok.inj heq
    exact ⟨rfl, rfl, .inl ⟨rfl, isSeed⟩⟩
  | @converged earlier last room goes stops =>
    refine ⟨fun convergence heq => ?_, nofun⟩
    cases Except.ok.inj heq
    exact ⟨rfl, rfl, .inr ⟨earlier, last, rfl, goes, stops, rfl⟩⟩
  | @exhausted _ last full goes isLast =>
    refine ⟨nofun, fun count last' steps' heq => ?_⟩
    cases Except.error.inj heq
    exact ⟨rfl, full, goes, last, isLast, rfl⟩
  | stuck room goes stands why interrupts =>
    obtain ⟨x, rfl, -⟩ | ⟨x, derivative, rfl⟩ | ⟨xPrev, x, denominator, rfl⟩ :=
      Ending.eq_of_interrupts interrupts
    all_goals exact ⟨nofun, nofun⟩

/-- **A failure carries the rounds that were made**, none of which meets the
stopping test, unless it reports a value that is not finite. -/
theorem iterations_of_error {error : RootError}
    (herror : search.result method limit = .error error) :
    (∀ step ∈ search.steps, ¬ spec.Stops step)
      ∧ (error.iterations = search.steps
        ∨ ∃ x, error = .nonFiniteValue x ∧ (f x).isFinite = false) := by
  obtain ⟨-, -, course⟩ := h
  obtain ⟨opening, steps, ending⟩ := search
  cases course with
  | @refused error' why bare =>
    cases Except.error.inj herror
    exact ⟨nofun, .inl (RootError.iterations_of_isBare bare)⟩
  | atSeed isSeed => cases herror
  | converged room goes stops => cases herror
  | exhausted full goes isLast =>
    cases Except.error.inj herror
    exact ⟨goes, .inl rfl⟩
  | stuck room goes stands why interrupts =>
    obtain ⟨x, rfl, hx⟩ | ⟨x, derivative, rfl⟩ | ⟨xPrev, x, denominator, rfl⟩ :=
      Ending.eq_of_interrupts interrupts
    · cases Except.error.inj herror
      exact ⟨goes, .inr ⟨x, rfl, hx⟩⟩
    all_goals
      cases Except.error.inj herror
      exact ⟨goes, .inl rfl⟩

/-- **A failure has one of these reasons.** -/
theorem failure_of_error {error : RootError}
    (herror : search.result method limit = .error error) :
    spec.Failure f limit error := by
  obtain ⟨-, -, course⟩ := h
  obtain ⟨opening, steps, ending⟩ := search
  cases course with
  | refused why bare =>
    cases Except.error.inj herror
    exact .refused why
  | atSeed isSeed => cases herror
  | converged room goes stops => cases herror
  | exhausted full goes isLast =>
    cases Except.error.inj herror
    exact .exhausted _ _
  | stuck room goes stands why interrupts =>
    obtain ⟨x, rfl, hx⟩ | ⟨x, derivative, rfl⟩ | ⟨xPrev, x, denominator, rfl⟩ :=
      Ending.eq_of_interrupts interrupts
    · cases Except.error.inj herror
      exact .value hx
    · cases Except.error.inj herror
      exact .flatTangent ⟨room, goes, stands, why⟩
    · cases Except.error.inj herror
      exact .flatChord ⟨room, goes, stands, why⟩

/-- **The rounds that a result carries** are in good order and within their
limit. -/
theorem recorded_carriedRounds :
    Recorded spec.First spec.Sound spec.Next
        (carriedRounds (search.result method limit))
      ∧ (carriedRounds (search.result method limit)).length ≤ limit := by
  cases hresult : search.result method limit with
  | error error =>
    obtain ⟨-, heq | ⟨x, rfl, -⟩⟩ := h.iterations_of_error method hresult
    · rw [carriedRounds_error, heq]
      exact ⟨h.recorded, h.length_le⟩
    · exact ⟨.nil, limit.zero_le⟩
  | ok convergence =>
    have heq : convergence.iterations = search.steps := by
      unfold Search.result at hresult
      split at hresult
      all_goals cases hresult
      all_goals rfl
    rw [carriedRounds, heq]
    exact ⟨h.recorded, h.length_le⟩

end Governs

end SearchSpec

/-! ## What the methods share -/

/-- **The stopping test of a method**, for a round as it is recorded: the
function is close to zero at the estimate, or what bounds the error is small.
This is the half of the bracket for midpoints, the bracket for chords, and the
last step for the other methods. -/
def RootMethod.Stops (f : Float → Float) (tolerance : Float) :
    RootMethod → Iteration → Prop
  | .bisection, .bracket _ a b _ _ _ fc _ =>
    fc.abs < tolerance ∨ (b - a) / 2 < tolerance
  | .falsePosition, .bracket _ a b _ _ _ fc _ =>
    fc.abs < tolerance ∨ b - a < tolerance
  | .newtonRaphson, .newton _ x _ _ next _
  | .secant, .secant _ _ x _ _ next _ =>
    (f next).abs < tolerance ∨ (next - x).abs < tolerance
  | _, _ => False

section Evaluate

variable {f : Float → Float} {x : Float}

theorem evaluate_eq_ok {y : Float} (h : evaluate f x = .ok y) :
    y = f x ∧ (f x).isFinite = true := by
  unfold evaluate at h
  dsimp only at h
  split at h
  · next hx => exact ⟨(Except.ok.inj h).symm, hx⟩
  · cases h

theorem evaluate_eq_error {error : RootError}
    (h : evaluate f x = .error error) :
    error = .nonFiniteValue x ∧ (f x).isFinite = false := by
  unfold evaluate at h
  dsimp only at h
  split at h
  · cases h
  · next hx =>
    exact ⟨(Except.error.inj h).symm, Bool.not_eq_true _ ▸ hx⟩

end Evaluate

/-- Settings that are accepted allow at least one round. -/
theorem RootSettings.maxIterations_pos {settings : RootSettings}
    (h : settings.validate = .ok ()) : 0 < settings.maxIterations := by
  unfold validate at h
  split at h
  · cases h
  · split at h
    · cases h
    · next hne => exact Nat.pos_of_ne_zero hne

/-- The tolerance of settings that are accepted is finite. -/
theorem RootSettings.isFinite_tolerance {settings : RootSettings}
    (h : settings.validate = .ok ()) : settings.tolerance.isFinite = true := by
  unfold validate isPositiveFinite at h
  split at h
  · cases h
  · next hpos =>
    rw [Bool.not_eq_true', Bool.not_eq_false, Bool.and_eq_true] at hpos
    exact hpos.1

end Stepwise
