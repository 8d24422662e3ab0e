import Stepwise.Linear.Recording
import Stepwise.Proofs.Determinant.Expansion

/-!
# The account of a determinant

The account of a determinant is nested as the recursion is. Working at a greater
depth moves every step deeper and changes nothing else
(`RatMatrix.expandOrder_add`), so the account of a minor inside that of its
matrix is the account of the minor, one level down. Written at the end of a
trace (`RatMatrix.record`) it is added to what is there: a program over the
trace records an account when it does nothing but add it at the end, and this
is kept by sequencing (`Records.bind`) and by going through a list
(`Records.mapM`).

What the account of a determinant consists of is
`RatMatrix.determinant_account`.
-/

namespace Stepwise

/-! ## Programs that write an account -/

/-- **A program records a result with an account** when, on any trace, it gives
the result and adds the account at the end. -/
def Records {α : Type} (program : StateM Trace α) (result : α)
    (account : Trace) : Prop :=
  ∀ steps, program.run steps = (result, steps ++ account)

namespace Records

variable {α β : Type}

theorem pure (a : α) : Records (Pure.pure a) a [] :=
  fun steps => congrArg (Prod.mk a) (List.append_nil steps).symm

theorem record (worked : Worked α) :
    Records worked.record worked.result worked.trace :=
  fun _ => rfl

/-- **One program after another** adds one account after the other. -/
theorem bind {program : StateM Trace α} {next : α → StateM Trace β} {a : α}
    {b : β} {first second : Trace} (hfirst : Records program a first)
    (hsecond : Records (next a) b second) :
    Records (program >>= next) b (first ++ second) := by
  intro steps
  have hrun : (program >>= next).run steps
      = (next a).run (steps ++ first) := by
    rw [StateT.run_bind, hfirst steps]
    rfl
  rw [hrun, hsecond, List.append_assoc]

/-- A step written before a program stands before its account. -/
theorem push (step : Step) {program : StateM Trace α} {a : α}
    {account : Trace} (h : Records program a account) :
    Records (Trace.push step >>= fun _ => program) a (step :: account) := by
  have hstep : Records (Trace.push step) () [step] := fun _ => rfl
  exact bind hstep h

/-- **Going through a list** adds the accounts of its members in order. -/
theorem mapM {program : α → StateM Trace β} {result : α → β}
    {account : α → Trace} {l : List α}
    (h : ∀ a ∈ l, Records (program a) (result a) (account a)) :
    Records (l.mapM program) (l.map result) (l.flatMap account) := by
  induction l with
  | nil => exact pure []
  | cons a l ih =>
    rw [List.forall_mem_cons] at h
    have hrest : Records
        (l.mapM program >>= fun rest => Pure.pure (result a :: rest))
        (result a :: l.map result) (l.flatMap account ++ []) :=
      bind (ih h.2) (pure _)
    rw [List.append_nil] at hrest
    rw [List.mapM_cons]
    exact bind h.1 hrest

end Records

namespace RatMatrix

variable (m : RatMatrix)

/-! ## Moving an account deeper -/

/-- The account of a term moves as a whole. -/
theorem deeper_expansionTerm (depth k col : Nat) (minor : Worked Rat) :
    (m.expansionTerm depth col minor).deeper k
      = m.expansionTerm (depth + k) col (minor.deeper k) := by
  rw [expansionTerm, expansionTerm, Worked.deeper, Trace.deeper,
    List.map_append]
  rfl

/-- The account of an expansion moves as a whole. -/
theorem deeper_expansionSum (depth k : Nat) (terms : List (Worked Rat)) :
    (m.expansionSum depth terms).deeper k
      = m.expansionSum (depth + k) (terms.map (Worked.deeper k)) := by
  have htrace : (terms.map (Worked.deeper k)).flatMap (·.trace)
      = (terms.flatMap (·.trace)).map (Step.deeper k) := by
    rw [List.map_flatMap, List.flatMap_map]
    rfl
  have hresult : (terms.map (Worked.deeper k)).map (·.result)
      = terms.map (·.result) := List.map_map
  rw [expansionSum, expansionSum, htrace, hresult, Worked.deeper,
    Trace.deeper, List.map_append]
  rfl

/-- **Working at a greater depth moves the account deeper** and changes nothing
else. By induction on the order: the account of each minor moves along. -/
theorem expandOrder_add (n : Nat) (m : RatMatrix) (depth k : Nat) :
    expandOrder n m (depth + k) = (expandOrder n m depth).deeper k := by
  induction n, m, depth using expandOrder.induct with
  | case1 m depth => rfl
  | case2 m depth => rfl
  | case3 m depth => rfl
  | case4 n m depth htriangular =>
    rw [expandOrder, if_pos htriangular, expandOrder, if_pos htriangular]
    rfl
  | case5 n m depth htriangular ih =>
    rw [expandOrder, if_neg htriangular, expandOrder, if_neg htriangular,
      deeper_expansionSum, List.map_map]
    refine congrArg (m.expansionSum (depth + k))
      (List.map_congr_left fun col _ => ?_)
    rw [Function.comp_apply, apply_ite (Worked.deeper k), deeper_expansionTerm,
      ← ih col, Nat.add_right_comm]
    rfl

/-- The determinant at some depth is that at depth zero, moved. -/
theorem expand_eq_deeper (depth : Nat) :
    m.expand depth = (m.expand 0).deeper depth := by
  rw [expand, ← Nat.zero_add depth, expandOrder_add, Nat.zero_add]
  rfl

/-! ## Writing the account -/

/-- The account of a term consists of its minor, the account of the determinant
of its minor, and the term. -/
theorem records_expansionTerm (depth col : Nat) {program : StateM Trace Rat}
    {minor : Worked Rat} (h : Records program minor.result minor.trace) :
    Records
      (do
        Trace.push ((m.minorStep col).atDepth depth)
        let det ← program
        Trace.push ((m.termStep col det).atDepth depth)
        return m.signedTerm col det)
      (m.expansionTerm depth col minor).result
      (m.expansionTerm depth col minor).trace :=
  Records.push _ (Records.bind h (Records.push _ (Records.pure _)))

/-- The account of an expansion consists of the matrix, the accounts of its
terms, and their sum. -/
theorem records_expansionSum (depth : Nat) {program : Nat → StateM Trace Rat}
    {term : Nat → Worked Rat}
    (h : ∀ col, Records (program col) (term col).result (term col).trace) :
    Records
      (do
        Trace.push (m.expansionStep.atDepth depth)
        let terms ← (List.range m.cols).mapM program
        Trace.push ((m.sumStep terms).atDepth depth)
        return sumOf terms)
      (m.expansionSum depth ((List.range m.cols).map term)).result
      (m.expansionSum depth ((List.range m.cols).map term)).trace := by
  rw [expansionSum, List.map_map, List.flatMap_map]
  exact Records.push _
    (Records.bind (Records.mapM fun col _ => h col)
      (Records.push _ (Records.pure _)))

/-- **The recursion that writes the account** writes that of the determinant,
by induction on the order. -/
theorem records_recordOrder (n : Nat) (m : RatMatrix) (depth : Nat) :
    Records (recordOrder n m depth) (expandOrder n m depth).result
      (expandOrder n m depth).trace := by
  induction n, m, depth using expandOrder.induct with
  | case1 m depth => exact Records.record _
  | case2 m depth => exact Records.record _
  | case3 m depth => exact Records.record _
  | case4 n m depth htriangular =>
    rw [recordOrder, if_pos htriangular, expandOrder, if_pos htriangular]
    exact Records.record _
  | case5 n m depth htriangular ih =>
    rw [recordOrder, if_neg htriangular, expandOrder, if_neg htriangular]
    refine m.records_expansionSum depth fun col => ?_
    split
    · exact Records.push _ (Records.pure 0)
    · exact m.records_expansionTerm depth col (ih col)

/-- The account of a determinant is added at the depth that is asked for. -/
theorem records_record (depth : Nat) :
    Records (m.record depth) (m.expand 0).result
      (Trace.deeper depth (m.expand 0).trace) := by
  have hrecord := records_recordOrder m.rows m depth
  have hdeeper : expandOrder m.rows m depth = (m.expand 0).deeper depth :=
    m.expand_eq_deeper depth
  rwa [hdeeper] at hrecord

/-! ## How deep the account goes -/

/-- A step of the account of an expansion is one of its own or stands in the
account of a term. -/
theorem depth_or_mem_of_mem_expansionSum {depth : Nat}
    {terms : List (Worked Rat)} {step : Step}
    (h : step ∈ (m.expansionSum depth terms).trace) :
    step.depth = depth ∨ ∃ term ∈ terms, step ∈ term.trace := by
  rw [expansionSum] at h
  rcases List.mem_append.mp h with h | h
  · rcases List.mem_cons.mp h with rfl | h
    · exact .inl rfl
    · exact .inr (List.mem_flatMap.mp h)
  · obtain rfl := List.mem_singleton.mp h
    exact .inl rfl

/-- A step of the account of a term is one of its own or stands in the account
of the minor. -/
theorem depth_or_mem_of_mem_expansionTerm {depth col : Nat}
    {minor : Worked Rat} {step : Step}
    (h : step ∈ (m.expansionTerm depth col minor).trace) :
    step.depth = depth ∨ step ∈ minor.trace := by
  rw [expansionTerm] at h
  rcases List.mem_append.mp h with h | h
  · rcases List.mem_cons.mp h with rfl | h
    · exact .inl rfl
    · exact .inr h
  · obtain rfl := List.mem_singleton.mp h
    exact .inl rfl

/-- The only step of an account, at its own depth. -/
theorem depth_le_of_mem_singleton {own step : Step} (k : Nat)
    (h : step ∈ [own]) : step.depth ≤ own.depth + k := by
  obtain rfl := List.mem_singleton.mp h
  exact Nat.le_add_right step.depth k

/-- **Every order above two adds one level**: the account of a determinant of
order `n` goes at most `n - 2` levels below its own depth. -/
theorem depth_le_of_mem_expandOrder (n : Nat) (m : RatMatrix) (depth : Nat) :
    ∀ step ∈ (expandOrder n m depth).trace, step.depth ≤ depth + (n - 2) := by
  induction n, m, depth using expandOrder.induct with
  | case1 m depth => exact fun _ h => depth_le_of_mem_singleton _ h
  | case2 m depth => exact fun _ h => depth_le_of_mem_singleton _ h
  | case3 m depth => exact fun _ h => depth_le_of_mem_singleton _ h
  | case4 n m depth htriangular =>
    rw [expandOrder, if_pos htriangular]
    exact fun _ h => depth_le_of_mem_singleton _ h
  | case5 n m depth htriangular ih =>
    intro step hstep
    rw [expandOrder, if_neg htriangular] at hstep
    rcases m.depth_or_mem_of_mem_expansionSum hstep with hown | ⟨_, hterm, hstep⟩
    · exact hown ▸ Nat.le_add_right step.depth _
    obtain ⟨col, -, rfl⟩ := List.mem_map.mp hterm
    split at hstep
    · exact depth_le_of_mem_singleton _ hstep
    · rcases m.depth_or_mem_of_mem_expansionTerm hstep with hown | hminor
      · exact hown ▸ Nat.le_add_right step.depth _
      · have hle := ih col step hminor
        omega

/-! ## The account -/

/-- **The account ends with the determinant**, at the depth it was asked for. -/
theorem exists_trace_expandOrder_eq_append (n : Nat) (m : RatMatrix)
    (depth : Nat) :
    ∃ earlier last, (expandOrder n m depth).trace = earlier ++ [last]
      ∧ last.depth = depth
      ∧ last.snapshot = .scalar (expandOrder n m depth).result := by
  induction n, m, depth using expandOrder.induct with
  | case1 m depth => exact ⟨[], _, rfl, rfl, rfl⟩
  | case2 m depth => exact ⟨[], _, rfl, rfl, rfl⟩
  | case3 m depth => exact ⟨[], _, rfl, rfl, rfl⟩
  | case4 n m depth htriangular =>
    rw [expandOrder, if_pos htriangular]
    exact ⟨[], _, rfl, rfl, rfl⟩
  | case5 n m depth htriangular _ =>
    rw [expandOrder, if_neg htriangular, expansionSum]
    exact ⟨_, _, rfl, rfl, rfl⟩

/-- A term is the entry times the determinant of its minor, signed by its
column. -/
theorem signedTerm_eq (col : Nat) (det : Rat) :
    m.signedTerm col det = (-1) ^ col * m.entry 0 col * det :=
  (ite_even_neg col (m.entry 0 col * det)).trans (mul_assoc _ _ _).symm

/-- The steps of the term of column `col`, where `minor` is the worked
determinant of its minor: the remark that the term is left out, or the minor,
the account of its determinant one level deeper, and the term. -/
def termAccount (m : RatMatrix) (col : Nat) (minor : Worked Rat) : Trace :=
  if m.entry 0 col = 0 then [omittedStep col]
  else
    m.minorStep col
      :: Trace.deeper 1 minor.trace
      ++ [m.termStep col minor.result]

/-- The term of a column with its account, whether it is left out or not. -/
theorem term_eq (col : Nat) (minor : Worked Rat) :
    (if m.entry 0 col = 0 then omittedTerm 0 col
      else m.expansionTerm 0 col (minor.deeper 1))
      = ⟨(-1) ^ col * m.entry 0 col * minor.result,
          m.termAccount col minor⟩ := by
  rw [termAccount]
  split
  · -- the term left out is zero
    rw [‹m.entry 0 col = 0›, mul_zero, zero_mul]
    rfl
  · rw [expansionTerm, ← signedTerm_eq]
    rfl

/-- **The expansion of a square matrix** of order three or more that is not
triangular, term by term. -/
theorem expand_eq {m : RatMatrix} (hr : 3 ≤ m.rows)
    (hu : m.isUpperTriangular = false) (hl : m.isLowerTriangular = false) :
    m.expand 0 = m.expansionSum 0 ((List.range m.cols).map fun col =>
      ⟨(-1) ^ col * m.entry 0 col * ((m.minor 0 col).expand 0).result,
        m.termAccount col ((m.minor 0 col).expand 0)⟩) := by
  obtain ⟨n, hn⟩ : ∃ n, m.rows = n + 3 := ⟨m.rows - 3, by omega⟩
  have hminor : ∀ col, expandOrder (n + 2) (m.minor 0 col) (0 + 1)
      = ((m.minor 0 col).expand 0).deeper 1 := by
    intro col
    have hrows : (m.minor 0 col).rows = n + 2 := by
      rw [minor, rows_ofFn, hn]
      rfl
    rw [expandOrder_add, expand, hrows]
  rw [expand, hn, expandOrder, if_neg (by rw [hu, hl]; exact Bool.false_ne_true)]
  simp only [hminor, term_eq]

/-- The determinant of a square matrix is worked out at depth zero. -/
theorem determinant_eq_ok {m : RatMatrix} (hm : m.rows = m.cols) :
    m.determinant = .ok (m.expand 0) := by
  rw [determinant, isSquare, if_pos (beq_iff_eq.mpr hm)]

/-- What a step shows, with its depth. -/
def shown (step : Step) : Nat × Snapshot :=
  (step.depth, step.snapshot)

/-- What the steps of a term show. -/
theorem map_shown_termAccount (col : Nat) (minor : Worked Rat) :
    (m.termAccount col minor).map shown
      = if m.entry 0 col = 0 then [(0, .none)]
        else (0, .matrix (m.minor 0 col))
          :: (Trace.deeper 1 minor.trace).map shown
          ++ [(0, .scalar ((-1) ^ col * m.entry 0 col * minor.result))] := by
  unfold termAccount
  split
  · rfl
  · rw [List.map_append, ← signedTerm_eq]
    rfl

/-- **What the account of a determinant consists of.** Written at the end of a
trace, it is added as a whole, at the depth that is asked for, and what was
there stays. It ends with the determinant, goes `n - 2` levels deep at most,
and where the matrix is expanded it is the matrix, the steps of each term in
order, and the sum of the terms. A term shows nothing if its entry is zero, and
else the minor, the account of its determinant one level deeper, and its value. -/
theorem determinant_account {m : RatMatrix} (hm : m.rows = m.cols) :
    ∃ worked, m.determinant = .ok worked
      ∧ (∀ depth steps, (m.record depth).run steps
          = (worked.result, steps ++ Trace.deeper depth worked.trace))
      ∧ (∃ earlier last, worked.trace = earlier ++ [last]
          ∧ last.depth = 0 ∧ last.snapshot = .scalar worked.result)
      ∧ (∀ step ∈ worked.trace, step.depth ≤ m.rows - 2)
      ∧ (3 ≤ m.rows → m.isUpperTriangular = false →
          m.isLowerTriangular = false →
          ∃ minors : Nat → Worked Rat,
            (∀ col < m.cols, (m.minor 0 col).determinant = .ok (minors col))
            ∧ (∀ col, (m.termStep col (minors col).result).snapshot
                = .scalar ((-1) ^ col * m.entry 0 col * (minors col).result))
            ∧ worked.result = ∑ col ∈ Finset.range m.cols,
                (-1) ^ col * m.entry 0 col * (minors col).result
            ∧ worked.trace
                = m.expansionStep
                  :: (List.range m.cols).flatMap (fun col =>
                    m.termAccount col (minors col))
                  ++ [m.sumStep ((List.range m.cols).map fun col =>
                    (-1) ^ col * m.entry 0 col * (minors col).result)]
            ∧ worked.trace.map shown
                = (0, .matrix m)
                  :: (List.range m.cols).flatMap (fun col =>
                    if m.entry 0 col = 0 then [(0, .none)]
                    else (0, .matrix (m.minor 0 col))
                      :: (Trace.deeper 1 (minors col).trace).map shown
                      ++ [(0, .scalar ((-1) ^ col * m.entry 0 col
                        * (minors col).result))])
                  ++ [(0, .scalar worked.result)]) := by
  refine ⟨m.expand 0, determinant_eq_ok hm, m.records_record,
    exists_trace_expandOrder_eq_append _ m 0, fun step hstep => ?_,
    fun hr hu hl => ⟨fun col => (m.minor 0 col).expand 0, fun col hcol => ?_,
      fun col => ?_, ?_, ?_, ?_⟩⟩
  · have hle := depth_le_of_mem_expandOrder m.rows m 0 step hstep
    rwa [Nat.zero_add] at hle
  · have hsquare : (m.minor 0 col).rows = (m.minor 0 col).cols :=
      congrArg (· - 1) hm
    exact determinant_eq_ok hsquare
  · exact congrArg Snapshot.scalar (m.signedTerm_eq col _)
  · rw [expand_eq hr hu hl, result_expansionSum]
  · rw [expand_eq hr hu hl, expansionSum, List.flatMap_map, List.map_map]
    rfl
  · simp only [← map_shown_termAccount]
    rw [← List.map_flatMap, expand_eq hr hu hl, expansionSum, List.map_append,
      List.flatMap_map]
    rfl

/-- A matrix of order three whose first term is left out: the accounts of two
minors stand one level below the other steps. -/
theorem determinant_account_zero_two_one :
    (⟨3, 3, #[0, 2, 1, 1, 0, 3, 2, 1, 1], rfl⟩ : RatMatrix).rows
        = (⟨3, 3, #[0, 2, 1, 1, 0, 3, 2, 1, 1], rfl⟩ : RatMatrix).cols
      ∧ ∃ worked,
        (⟨3, 3, #[0, 2, 1, 1, 0, 3, 2, 1, 1], rfl⟩ : RatMatrix).determinant
          = .ok worked
        ∧ worked.result = 11
        ∧ worked.trace.map (·.depth) = [0, 0, 0, 1, 0, 0, 1, 0, 0]
        ∧ (∀ depth steps,
          ((⟨3, 3, #[0, 2, 1, 1, 0, 3, 2, 1, 1], rfl⟩ : RatMatrix).record
              depth).run steps
            = (11, steps ++ Trace.deeper depth worked.trace))
        ∧ ∃ minors : Nat → Worked Rat,
          worked.result = ∑ col ∈ Finset.range 3, (-1) ^ col
            * (⟨3, 3, #[0, 2, 1, 1, 0, 3, 2, 1, 1], rfl⟩ : RatMatrix).entry
              0 col
            * (minors col).result := by
  obtain ⟨worked, hok, hrecord, -, -, hterms⟩ := determinant_account
    (m := ⟨3, 3, #[0, 2, 1, 1, 0, 3, 2, 1, 1], rfl⟩) rfl
  obtain ⟨minors, -, -, hsum, -⟩ := hterms (by decide) (by decide +kernel)
    (by decide +kernel)
  have hrun : ((⟨3, 3, #[0, 2, 1, 1, 0, 3, 2, 1, 1], rfl⟩ :
      RatMatrix).determinant.map fun worked =>
        (worked.result, worked.trace.map (·.depth)))
      = .ok (11, [0, 0, 0, 1, 0, 0, 1, 0, 0]) := by
    decide +kernel
  rw [hok] at hrun
  have hpair := Prod.mk.inj (Except.ok.inj hrun)
  refine ⟨rfl, worked, hok, hpair.1, hpair.2, fun depth steps => ?_, minors,
    hsum⟩
  rw [hrecord, hpair.1]

end RatMatrix

end Stepwise
