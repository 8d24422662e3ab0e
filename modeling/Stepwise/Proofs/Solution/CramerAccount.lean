import Mathlib.Data.List.TakeWhile
import Stepwise.Proofs.Determinant.Account
import Stepwise.Proofs.Solution.Cramer

/-!
# The account of Cramer's rule

A trace is read by its sections: each step of depth zero with the deeper steps
up to the next one (`Trace.outline`). A trace that is put together from sections
falls into these and no others (`Trace.outline_flatMap_steps`), however many
steps stand below a heading and however deep.

The account of Cramer's rule is put together in this way, because the account of
a determinant is moved one level deeper and so has no step of depth zero. There
is a section for the coefficient matrix and one for its determinant, and then
two for each variable. As a program over a trace that is being written,
`RatMatrix.recordCramer`, the rule is given the way to work out determinants as
an argument, so what it asks for can be seen from what it depends on. What it
writes is the account (`RatMatrix.cramer_account`).
-/

namespace Stepwise

/-! ## Sections -/

/-- **A section of a trace**: a step of depth zero and deeper steps after it. -/
structure Section where
  heading : Step
  body : Trace
  depth_heading : heading.depth = 0
  depth_body : ∀ step ∈ body, step.depth ≠ 0

/-- The steps of a section. -/
def Section.steps (s : Section) : Trace := s.heading :: s.body

/-- What the heading of a section shows, and the steps below it. -/
def Section.contents (s : Section) : Snapshot × Trace :=
  (s.heading.snapshot, s.body)

namespace Trace

/-- **The sections of a trace**: each step of depth zero with the deeper steps
up to the next one. -/
def outline : Trace → List Section
  | [] => []
  | step :: rest =>
    if h : step.depth = 0 then
      ⟨step, rest.takeWhile (·.depth ≠ 0), h, fun _ hmem => by
        simpa using List.mem_takeWhile_imp hmem⟩ :: outline rest
    else outline rest

/-- The headings are the steps of depth zero. -/
theorem map_heading_outline (trace : Trace) :
    (outline trace).map Section.heading
      = trace.filter fun step => step.depth = 0 := by
  induction trace with
  | nil => rfl
  | cons step rest ih =>
    rw [outline]
    split
    · next h => rw [List.map_cons, ih, List.filter_cons_of_pos (by simpa using h)]
    · next h => rw [ih, List.filter_cons_of_neg (by simpa using h)]

/-- So what the steps of depth zero show is what the headings show. -/
theorem map_snapshot_filter (trace : Trace) :
    (trace.filter fun step => step.depth = 0).map Step.snapshot
      = ((outline trace).map Section.contents).map Prod.fst := by
  rw [← map_heading_outline, List.map_map, List.map_map]
  rfl

/-- Steps below a heading start no section. -/
theorem outline_append {body : Trace} (h : ∀ step ∈ body, step.depth ≠ 0)
    (rest : Trace) : outline (body ++ rest) = outline rest := by
  induction body with
  | nil => rfl
  | cons step body ih =>
    rw [List.forall_mem_cons] at h
    rw [List.cons_append, outline, dif_neg h.1, ih h.2]

/-- **A trace put together from sections falls into these again.** -/
theorem outline_flatMap_steps (ss : List Section) :
    outline (ss.flatMap Section.steps) = ss := by
  induction ss with
  | nil => rfl
  | cons s ss ih =>
    obtain ⟨heading, body, hheading, hbody⟩ := s
    -- the body ends where the next heading stands
    have htake : (body ++ ss.flatMap Section.steps).takeWhile (·.depth ≠ 0)
        = body := by
      rw [List.takeWhile_append_of_pos fun step hstep =>
        decide_eq_true (hbody step hstep)]
      cases ss with
      | nil => exact List.append_nil body
      | cons t ss =>
        rw [List.flatMap_cons, Section.steps, List.cons_append,
          List.takeWhile_cons_of_neg, List.append_nil]
        simpa using t.depth_heading
    rw [List.flatMap_cons, Section.steps, List.cons_append, outline,
      dif_pos hheading, outline_append hbody, ih]
    simp only [htake]

/-- Moved deeper, no step has depth zero. -/
theorem depth_ne_zero_of_mem_deeper {trace : Trace} {step : Step}
    (h : step ∈ deeper 1 trace) : step.depth ≠ 0 := by
  obtain ⟨step, -, rfl⟩ := List.mem_map.mp h
  exact Nat.succ_ne_zero step.depth

end Trace

/-- A step of depth zero with an account one level deeper. -/
def Section.above (heading : Step) (h : heading.depth = 0) (account : Trace) :
    Section :=
  ⟨heading, Trace.deeper 1 account, h, fun _ => Trace.depth_ne_zero_of_mem_deeper⟩

/-- A step of depth zero by itself. -/
def Section.single (heading : Step) (h : heading.depth = 0) : Section :=
  ⟨heading, [], h, nofun⟩

namespace RatMatrix

/-! ## Writing the account -/

/-- Writes the steps that find variable `i` at the end of the trace, and gives
its numerator and its value. -/
def recordVariable (det : RatMatrix → StateM Trace Rat) (a : RatMatrix)
    (b : List Rat) (determinant : Rat) (i : Nat) : StateM Trace (Rat × Rat) := do
  Trace.push (a.replacedStep b i)
  let numerator ← det (a.replaceColumn i b)
  Trace.push (quotientStep i numerator determinant)
  return (numerator, numerator / determinant)

/-- **Writes the account of Cramer's rule** for a square matrix at the end of
the trace, where `det` works out a determinant and writes its account. -/
def recordCramer (det : RatMatrix → StateM Trace Rat) (a : RatMatrix)
    (b : List Rat) : StateM Trace CramerOutcome := do
  Trace.push a.coefficientStep
  let determinant ← det a
  Trace.push (determinantStep determinant)
  if determinant = 0 then
    Trace.push inapplicableStep
    return .notApplicable determinant
  else
    let found ← (List.range a.cols).mapM (recordVariable det a b determinant)
    return .solved (found.map (·.2)) determinant (found.map (·.1))

/-! ## The outcome -/

section Outcome

variable {a : RatMatrix} {b : List Rat}

theorem cramer_eq_ok (ha : a.rows = a.cols) (hb : b.length = a.rows) :
    a.cramer b = .ok (a.cramerSquare b) := by
  rw [cramer, if_neg (not_not_intro hb), isSquare, if_pos (beq_iff_eq.mpr ha)]

theorem result_cramerSquare_of_eq_zero (hzero : (a.expand 0).result = 0) :
    (a.cramerSquare b).result = .notApplicable (a.expand 0).result := by
  rw [cramerSquare, if_pos hzero]

theorem result_cramerSquare_of_ne_zero (hzero : (a.expand 0).result ≠ 0) :
    (a.cramerSquare b).result
      = .solved (a.cramerValues b) (a.expand 0).result
          ((List.range a.cols).map fun i => (a.cramerNumerator b i).result) := by
  rw [cramerSquare, if_neg hzero]
  rfl

/-- A numerator stands at the place of its variable. -/
theorem getD_numerators {i : Nat} (hi : i < a.cols) :
    ((List.range a.cols).map fun i => (a.cramerNumerator b i).result).getD i 0
      = ((a.replaceColumn i b).expand 0).result := by
  rw [getD_map_range, if_pos hi]
  rfl

/-- A value is the quotient of its numerator and the determinant. -/
theorem getD_cramerValues {i : Nat} (hi : i < a.cols) :
    (a.cramerValues b).getD i 0
      = ((a.replaceColumn i b).expand 0).result / (a.expand 0).result := by
  rw [cramerValues, List.map_map, getD_map_range, if_pos hi]
  rfl

end Outcome

/-! ## The account and its sections -/

/-- The sections for the coefficient matrix. -/
def openingSections (a : RatMatrix) : List Section :=
  [.above a.coefficientStep rfl (a.expand 0).trace,
    .single (determinantStep (a.expand 0).result) rfl]

/-- The sections for variable `i`. -/
def variableSections (a : RatMatrix) (b : List Rat) (i : Nat) : List Section :=
  [.above (a.replacedStep b i) rfl ((a.replaceColumn i b).expand 0).trace,
    .single (quotientStep i ((a.replaceColumn i b).expand 0).result
      (a.expand 0).result) rfl]

/-- The sections of the whole account. -/
def cramerSections (a : RatMatrix) (b : List Rat) : List Section :=
  a.openingSections ++
    if (a.expand 0).result = 0 then [.single inapplicableStep rfl]
    else (List.range a.cols).flatMap (a.variableSections b)

/-- **The account of Cramer's rule is put together from these sections.** -/
theorem trace_cramerSquare (a : RatMatrix) (b : List Rat) :
    (a.cramerSquare b).trace = (a.cramerSections b).flatMap Section.steps := by
  rw [cramerSquare, cramerSections, List.flatMap_append]
  split
  · rfl
  · rw [List.flatMap_assoc]
    rfl

theorem outline_trace_cramerSquare (a : RatMatrix) (b : List Rat) :
    Trace.outline (a.cramerSquare b).trace = a.cramerSections b := by
  rw [trace_cramerSquare, Trace.outline_flatMap_steps]

/-- The steps that find a variable are those of its sections. -/
theorem records_recordVariable {det : RatMatrix → StateM Trace Rat}
    {a : RatMatrix} {b : List Rat} {i : Nat}
    (hdet : det (a.replaceColumn i b) = (a.replaceColumn i b).record 1) :
    Records (recordVariable det a b (a.expand 0).result i)
      ((a.cramerNumerator b i).result,
        (a.cramerNumerator b i).result / (a.expand 0).result)
      ((a.variableSections b i).flatMap Section.steps) := by
  rw [recordVariable, hdet]
  exact Records.push _ (Records.bind ((a.replaceColumn i b).records_record 1)
    (Records.push _ (Records.pure _)))

/-- The steps for the coefficient matrix come first. -/
theorem openingSections_append (a : RatMatrix) (rest : Trace) :
    a.openingSections.flatMap Section.steps ++ rest
      = a.coefficientStep
        :: (Trace.deeper 1 (a.expand 0).trace
          ++ determinantStep (a.expand 0).result :: rest) :=
  congrArg (a.coefficientStep :: ·) (List.append_assoc _ _ rest)

/-- **What is written** with determinants that write their accounts one level
deeper. If that of the coefficient matrix is zero, no other is asked for. -/
theorem records_recordCramer {det : RatMatrix → StateM Trace Rat}
    {a : RatMatrix} {b : List Rat} (ha : det a = a.record 1)
    (hreplaced : (a.expand 0).result ≠ 0 → ∀ i < a.cols,
      det (a.replaceColumn i b) = (a.replaceColumn i b).record 1) :
    Records (recordCramer det a b) (a.cramerSquare b).result
      (a.cramerSquare b).trace := by
  rw [trace_cramerSquare, cramerSections, List.flatMap_append,
    openingSections_append, recordCramer, ha]
  refine Records.push _ (Records.bind (a.records_record 1) (Records.push _ ?_))
  by_cases hzero : (a.expand 0).result = 0
  · rw [if_pos hzero, if_pos hzero, result_cramerSquare_of_eq_zero hzero]
    exact Records.push _ (Records.pure _)
  · -- the loop over the variables gives pairs, the outcome has two lists
    have hfound := Records.mapM fun i hi =>
      records_recordVariable (hreplaced hzero i (List.mem_range.mp hi))
    rw [if_neg hzero, if_neg hzero, result_cramerSquare_of_ne_zero hzero,
      List.flatMap_assoc, ← List.append_nil (List.flatMap _ _)]
    refine Records.bind hfound ?_
    rw [cramerValues, List.map_map, List.map_map, List.map_map]
    exact Records.pure _

/-- What the sections for a variable show. -/
theorem contents_variableSections (a : RatMatrix) (b : List Rat) (i : Nat) :
    (a.variableSections b i).map Section.contents
      = [(.matrix (a.replaceColumn i b),
          Trace.deeper 1 ((a.replaceColumn i b).expand 0).trace),
        (.scalar (((a.replaceColumn i b).expand 0).result
          / (a.expand 0).result), [])] := rfl

/-- **What the account of Cramer's rule shows**, for a square system. The steps
of depth zero are the headings of its sections, and no step stands outside these.
First comes the matrix with the account of its determinant below it, one level
deeper, and then the determinant. If this is not zero, the matrix with a column
replaced, the account of its determinant below it, and the value of the variable
follow for each variable in order, the value being the quotient of the
determinants; if it is zero, a remark follows. Written at the end of a trace, the
account is added as a whole, and with determinant zero no other determinant is
asked for. -/
theorem cramer_account {a : RatMatrix} {b : List Rat} (ha : a.rows = a.cols)
    (hb : b.length = a.rows) :
    ∃ account worked, a.determinant = .ok account ∧ a.cramer b = .ok worked
      ∧ worked.trace.filter (fun step => step.depth = 0)
        = (Trace.outline worked.trace).map Section.heading
      ∧ worked.trace = (Trace.outline worked.trace).flatMap Section.steps
      ∧ (account.result ≠ 0 →
        ∃ (accounts : Nat → Worked Rat) (solution numerators : List Rat),
          worked.result = .solved solution account.result numerators
          ∧ solution.length = a.cols ∧ numerators.length = a.cols
          ∧ (∀ i < a.cols, a.withColumn i b = .ok (a.replaceColumn i b)
            ∧ (a.replaceColumn i b).determinant = .ok (accounts i)
            ∧ numerators.getD i 0 = (accounts i).result
            ∧ solution.getD i 0 * account.result = numerators.getD i 0)
          ∧ (Trace.outline worked.trace).map Section.contents
            = [(.matrix a, Trace.deeper 1 account.trace),
                (.scalar account.result, [])]
              ++ (List.range a.cols).flatMap (fun i =>
                [(.matrix (a.replaceColumn i b),
                  Trace.deeper 1 (accounts i).trace),
                  (.scalar (solution.getD i 0), [])])
          ∧ (worked.trace.filter fun step => step.depth = 0).map Step.snapshot
            = [.matrix a, .scalar account.result]
              ++ (List.range a.cols).flatMap fun i =>
                [.matrix (a.replaceColumn i b), .scalar (solution.getD i 0)])
      ∧ (account.result = 0 →
        worked.result = .notApplicable 0
          ∧ (Trace.outline worked.trace).map Section.contents
            = [(.matrix a, Trace.deeper 1 account.trace), (.scalar 0, []),
                (.none, [])]
          ∧ (worked.trace.filter fun step => step.depth = 0).map Step.snapshot
            = [.matrix a, .scalar 0, .none])
      ∧ ∀ det : RatMatrix → StateM Trace Rat, det a = a.record 1 →
        (account.result ≠ 0 → ∀ i < a.cols,
          det (a.replaceColumn i b) = (a.replaceColumn i b).record 1) →
        ∀ steps, (recordCramer det a b).run steps
          = (worked.result, steps ++ worked.trace) := by
  have houtline := a.outline_trace_cramerSquare b
  refine ⟨a.expand 0, a.cramerSquare b, determinant_eq_ok ha, cramer_eq_ok ha hb,
    (Trace.map_heading_outline _).symm, ?_, fun hzero => ?_, fun hzero => ?_,
    fun det hdet hreplaced => records_recordCramer hdet hreplaced⟩
  · rw [houtline, trace_cramerSquare]
  · have hcontents : (Trace.outline (a.cramerSquare b).trace).map Section.contents
        = [(.matrix a, Trace.deeper 1 (a.expand 0).trace),
            (.scalar (a.expand 0).result, [])]
          ++ (List.range a.cols).flatMap fun i =>
            [(.matrix (a.replaceColumn i b),
              Trace.deeper 1 ((a.replaceColumn i b).expand 0).trace),
              (.scalar ((a.cramerValues b).getD i 0), [])] := by
      rw [houtline, cramerSections, if_neg hzero, List.map_append,
        List.map_flatMap]
      refine congrArg _ (List.flatMap_congr fun i hi => ?_)
      rw [contents_variableSections, getD_cramerValues (List.mem_range.mp hi)]
    refine ⟨fun i => (a.replaceColumn i b).expand 0, _, _,
      result_cramerSquare_of_ne_zero hzero, a.length_cramerValues b,
      by rw [List.length_map, List.length_range], fun i hi => ⟨?_, ?_, ?_, ?_⟩,
      hcontents, ?_⟩
    · rw [withColumn, if_neg]
      exact not_or_intro (Nat.not_le_of_lt hi) (not_not_intro hb)
    · exact determinant_eq_ok ha
    · exact getD_numerators hi
    · rw [getD_cramerValues hi, getD_numerators hi, div_mul_cancel₀ _ hzero]
    · rw [Trace.map_snapshot_filter, hcontents, List.map_append,
        List.map_flatMap]
      rfl
  · have hcontents : (Trace.outline (a.cramerSquare b).trace).map Section.contents
        = [(.matrix a, Trace.deeper 1 (a.expand 0).trace), (.scalar 0, []),
            (.none, [])] := by
      rw [houtline, cramerSections, if_pos hzero, openingSections, hzero]
      rfl
    refine ⟨(result_cramerSquare_of_eq_zero hzero).trans (by rw [hzero]),
      hcontents, ?_⟩
    rw [Trace.map_snapshot_filter, hcontents]
    rfl

/-- A regular system of two equations and a singular one: what the steps of
depth zero show. -/
theorem cramer_account_two_equations :
    let a : RatMatrix := ⟨2, 2, #[1, 2, 3, 4], rfl⟩
    let singular : RatMatrix := ⟨2, 2, #[1, 2, 2, 4], rfl⟩
    (a.rows = a.cols ∧ [5, 6].length = a.rows
        ∧ ∃ worked, a.cramer [5, 6] = .ok worked
          ∧ worked.result = .solved [-4, 9 / 2] (-2) [8, -9]
          ∧ (worked.trace.filter fun step => step.depth = 0).map Step.snapshot
            = [.matrix a, .scalar (-2),
              .matrix (a.replaceColumn 0 [5, 6]), .scalar (-4),
              .matrix (a.replaceColumn 1 [5, 6]), .scalar (9 / 2)])
      ∧ singular.rows = singular.cols ∧ [5, 6].length = singular.rows
        ∧ ∃ worked, singular.cramer [5, 6] = .ok worked
          ∧ worked.result = .notApplicable 0
          ∧ (worked.trace.filter fun step => step.depth = 0).map Step.snapshot
            = [.matrix singular, .scalar 0, .none] := by
  intro a singular
  refine ⟨⟨rfl, rfl, ?_⟩, rfl, rfl, ?_⟩
  · obtain ⟨account, worked, haccount, hworked, -, -, hsolved, -⟩ :=
      cramer_account (a := a) (b := [5, 6]) rfl rfl
    have hdet : a.determinant.map (·.result) = .ok (-2) := by decide +kernel
    have hrun : (a.cramer [5, 6]).map (·.result)
        = .ok (.solved [-4, 9 / 2] (-2) [8, -9]) := by
      decide +kernel
    rw [haccount] at hdet
    rw [hworked] at hrun
    have hresult : account.result = -2 := Except.ok.inj hdet
    obtain ⟨accounts, solution, numerators, hsolution, -, -, -, -, hshown⟩ :=
      hsolved (by rw [hresult]; decide)
    have houtcome : worked.result = .solved [-4, 9 / 2] (-2) [8, -9] :=
      Except.ok.inj hrun
    rw [houtcome] at hsolution
    obtain ⟨rfl, -, -⟩ := CramerOutcome.solved.inj hsolution
    refine ⟨worked, hworked, houtcome, ?_⟩
    rw [hshown, hresult]
    rfl
  · obtain ⟨account, worked, haccount, hworked, -, -, -, hzero, -⟩ :=
      cramer_account (a := singular) (b := [5, 6]) rfl rfl
    have hdet : singular.determinant.map (·.result) = .ok 0 := by
      decide +kernel
    rw [haccount] at hdet
    obtain ⟨houtcome, -, hshown⟩ := hzero (Except.ok.inj hdet)
    exact ⟨worked, hworked, houtcome, hshown⟩

end RatMatrix

end Stepwise
