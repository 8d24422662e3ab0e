import Stepwise.Linear.Solution
import Stepwise.Proofs.Elimination.Replay

/-!
# Reduction leaves reduced matrices alone

Three pieces of the library know what a reduced matrix is, each in its own way:
the test `RatMatrix.isRref`, which passes once over the rows and remembers the
last pivot and whether a zero row was seen; `RatMatrix.pivotColumnsOf`, which
takes the leading ones; and the sweep, which knows it not at all, and only finds
that there is nothing to do.

They agree through `RatMatrix.IsEchelon`. What the test accepts is in echelon
form with the leading ones as pivots (`RatMatrix.isEchelon_of_isRref`), a matrix
has no other pivots (`RatMatrix.IsEchelon.pivotColumnsOf_eq`), and a sweep over
a matrix in echelon form finds these and makes no operation
(`Elimination.idles_sweep`). So the matrices that pass the test are those that
reduction leaves alone (`RatMatrix.reduceColumns_fixed_points`).
-/

namespace Stepwise

namespace RatMatrix

/-! ## What the test accepts -/

section Leading

variable {m : RatMatrix} {limit i : Nat}

theorem leadingColumn?_eq_some_iff {c : Nat} :
    m.leadingColumn? limit i = some c
      ↔ c < limit ∧ m.entry i c ≠ 0 ∧ ∀ j, j < c → m.entry i j = 0 := by
  rw [leadingColumn?, List.find?_range_eq_some]
  simp only [decide_eq_true_eq, List.mem_range, Bool.not_eq_true',
    decide_eq_false_iff_not, not_not]
  exact ⟨fun ⟨hne, hlt, hzero⟩ => ⟨hlt, hne, hzero⟩,
    fun ⟨hlt, hne, hzero⟩ => ⟨hne, hlt, hzero⟩⟩

theorem leadingColumn?_eq_none_iff :
    m.leadingColumn? limit i = none ↔ ∀ j, j < limit → m.entry i j = 0 := by
  rw [leadingColumn?, List.find?_range_eq_none]
  simp only [Bool.not_eq_true', decide_eq_false_iff_not, not_not]

/-- **The leading one of a row**, if the row leads with a one. -/
def leadingOne? (m : RatMatrix) (limit i : Nat) : Option Nat :=
  (m.leadingColumn? limit i).filter fun j => decide (m.entry i j = 1)

/-- **Rows led by pivots**, from row `i` on: each of them leads with a one that is
alone in its column, further to the right than the one before, until the pivots
are used up and the rows are zero. -/
structure LedBy (m : RatMatrix) (limit i : Nat) (pivots : List Nat) :
    Prop where
  increasing : pivots.Pairwise (· < ·)
  row_lt : i + pivots.length ≤ m.rows
  leads : ∀ t c, pivots[t]? = some c → m.leadingColumn? limit (i + t) = some c
  unit : ∀ t c, pivots[t]? = some c → ∀ r, r < m.rows →
    m.entry r c = if r = i + t then 1 else 0
  rest : ∀ r, i + pivots.length ≤ r → m.leadingColumn? limit r = none

theorem LedBy.of_none (hi : i ≤ m.rows)
    (h : ∀ r, i ≤ r → m.leadingColumn? limit r = none) :
    m.LedBy limit i [] where
  increasing := .nil
  row_lt := hi
  leads _ _ ht := by cases ht
  unit _ _ ht := by cases ht
  rest := h

/-- **One row more**, above the others. -/
theorem LedBy.cons {pivots : List Nat} {c : Nat}
    (h : m.LedBy limit (i + 1) pivots)
    (hlead : m.leadingColumn? limit i = some c)
    (hunit : ∀ r, r < m.rows → m.entry r c = if r = i then 1 else 0)
    (hlt : ∀ c' ∈ pivots, c < c') : m.LedBy limit i (c :: pivots) where
  increasing := List.pairwise_cons.mpr ⟨hlt, h.increasing⟩
  row_lt := by
    have := h.row_lt
    rw [List.length_cons]
    omega
  leads t c' ht := by
    cases t with
    | zero =>
      cases ht
      exact hlead
    | succ t =>
      rw [← Nat.succ_add_eq_add_succ]
      exact h.leads t c' ht
  unit t c' ht := by
    cases t with
    | zero =>
      cases ht
      exact hunit
    | succ t =>
      rw [← Nat.succ_add_eq_add_succ]
      exact h.unit t c' ht
  rest r hr := h.rest r (by rw [List.length_cons] at hr; omega)

/-- Rows that are led by pivots down from the first one make an echelon form. -/
theorem LedBy.isEchelon {pivots : List Nat} (h : m.LedBy limit 0 pivots) :
    m.IsEchelon limit pivots := by
  have hlead : ∀ {t c}, pivots[t]? = some c →
      m.leadingColumn? limit t = some c := fun ht => by
    have := h.leads _ _ ht
    rwa [Nat.zero_add] at this
  refine
    { increasing := h.increasing
      lt_columns := fun c hc => ?_
      length_le := by simpa using h.row_lt
      unit := fun t c ht r hr => ?_
      zero_left := fun t c ht j hj => ?_
      zero_below := fun r hr j hj => ?_ }
  · obtain ⟨t, ht⟩ := List.mem_iff_getElem?.mp hc
    exact (leadingColumn?_eq_some_iff.mp (hlead ht)).1
  · rw [h.unit t c ht r hr, Nat.zero_add]
  · exact (leadingColumn?_eq_some_iff.mp (hlead ht)).2.2 j hj
  · exact leadingColumn?_eq_none_iff.mp
      (h.rest r (by rwa [Nat.zero_add])) j hj

/-- **The rows that pass the test** are led by their leading ones. These stand to
the right of the pivot before, and there are none below a zero row. -/
theorem ledBy_of_isReducedFrom (n : Nat) : ∀ {i : Nat} {last : Option Nat}
    {zeroSeen : Bool}, i + n = m.rows →
    m.isReducedFrom limit (List.range' i n) last zeroSeen = true →
    m.LedBy limit i ((List.range' i n).filterMap (m.leadingOne? limit))
      ∧ (∀ p ∈ last, ∀ c ∈ (List.range' i n).filterMap (m.leadingOne? limit),
        p < c)
      ∧ (zeroSeen = true →
        (List.range' i n).filterMap (m.leadingOne? limit) = []) := by
  -- on the rows that are left, for whatever was seen above them
  induction n with
  | zero =>
    intro i last zeroSeen hn _
    refine ⟨.of_none (Nat.le_of_eq hn) fun r hr => ?_,
      fun _ _ c hc => absurd hc List.not_mem_nil, fun _ => rfl⟩
    exact leadingColumn?_eq_none_iff.mpr fun j _ =>
      entry_eq_zero_of_rows_le (by omega) j
  | succ n ih =>
    intro i last zeroSeen hn h
    rw [List.range'_succ, isReducedFrom] at h
    rw [List.range'_succ]
    cases hlead : m.leadingColumn? limit i with
    | none =>
      rw [hlead] at h
      obtain ⟨hled, -, hnil⟩ := ih (by omega) h
      have hnone : m.leadingOne? limit i = none := by
        rw [leadingOne?, hlead]
        rfl
      rw [List.filterMap_cons_none hnone, hnil rfl]
      rw [hnil rfl] at hled
      refine ⟨.of_none (by omega) fun r hr => ?_,
        fun _ _ c hc => absurd hc List.not_mem_nil, fun _ => rfl⟩
      rcases Nat.eq_or_lt_of_le hr with rfl | hlt
      · exact hlead
      · exact hled.rest r hlt
    | some c =>
      rw [hlead] at h
      simp only [Bool.and_eq_true, Bool.not_eq_true', decide_eq_true_eq,
        List.all_eq_true, List.mem_range] at h
      obtain ⟨⟨⟨⟨hseen, hlast⟩, hone⟩, hcolumn⟩, h⟩ := h
      obtain ⟨hled, hlt, -⟩ := ih (by omega) h
      have hsome : m.leadingOne? limit i = some c := by
        rw [leadingOne?, hlead]
        exact if_pos (decide_eq_true hone)
      rw [List.filterMap_cons_some hsome]
      refine ⟨hled.cons hlead (fun r hr => ?_) (hlt c rfl), ?_, ?_⟩
      · split
        · next heq => rw [heq, hone]
        · next hne => exact hcolumn r hr hne
      · intro p hp c' hc'
        rcases List.mem_cons.mp hc' with rfl | hc'
        · exact hlast p hp
        · exact (hlast p hp).trans (hlt c rfl c' hc')
      · intro hzero
        rw [hseen] at hzero
        cases hzero

end Leading

/-- **What passes the test is in echelon form**, with the leading ones as
pivots. -/
theorem isEchelon_of_isRref {m : RatMatrix} {columns : Nat}
    (h : m.isRref columns = true) :
    m.IsEchelon (min columns m.cols) (m.pivotColumnsOf columns) := by
  rw [isRref, List.range_eq_range'] at h
  have hled := (ledBy_of_isReducedFrom m.rows (Nat.zero_add _) h).1
  rw [← List.range_eq_range'] at hled
  exact hled.isEchelon

/-! ## The pivots of an echelon form -/

theorem filterMap_getElem?_range {α : Type} (l : List α) (n : Nat) :
    (List.range n).filterMap (fun i => l[i]?) = l.take n := by
  induction n with
  | zero => rfl
  | succ n ih =>
    rw [List.range_succ, List.filterMap_append, ih, List.take_add_one]
    cases h : l[n]? <;> simp [h]

/-- **The pivots of an echelon form are its leading ones.** -/
theorem IsEchelon.pivotColumnsOf_eq {m : RatMatrix} {columns : Nat}
    {pivots : List Nat} (h : m.IsEchelon (min columns m.cols) pivots) :
    m.pivotColumnsOf columns = pivots := by
  have hlead : ∀ i, m.leadingOne? (min columns m.cols) i = pivots[i]? := by
    intro i
    unfold leadingOne?
    cases hi : pivots[i]? with
    | none =>
      rw [h.leadingColumn?_eq_none (List.getElem?_eq_none_iff.mp hi)]
      rfl
    | some c =>
      rw [h.leadingColumn?_eq_some hi]
      refine if_pos (decide_eq_true ?_)
      rw [h.unit i c hi i (h.row_lt hi), if_pos rfl]
  calc m.pivotColumnsOf columns
      = (List.range m.rows).filterMap fun i => pivots[i]? :=
        List.filterMap_congr fun i _ => hlead i
    _ = pivots := by
        rw [filterMap_getElem?_range, List.take_of_length_le h.length_le]

end RatMatrix

open RatMatrix

namespace Elimination

/-! ## A sweep with nothing to do -/

/-- A pivot that is installed already is installed without an operation. -/
theorem install_eq_self {s : Elimination} {top column : Nat}
    (hone : s.current.entry top column = 1)
    (hzero : ∀ i, i < s.current.rows → i ≠ top →
      s.current.entry i column = 0) : install top column top s = s := by
  have hup : bringUp top column top s = s := if_pos rfl
  have hnormal : normalize top column s = s := if_pos hone
  unfold install clearColumn
  rw [hup, hnormal]
  refine List.foldlRecOn (List.range s.current.rows) (clearRow top column)
    (motive := fun s' => s' = s) rfl fun s' hs' i hi => ?_
  rw [hs']
  exact if_pos ((Decidable.em (i = top)).imp_right
    (hzero i (List.mem_range.mp hi)))

section Idle

variable {m : RatMatrix} {columns : Nat} {pivots : List Nat}
  (h : m.IsEchelon columns pivots) {k : Nat} {s : Elimination}
  (hm : s.current = m)

include h hm

/-- A column whose pivot is in place only has it noted. -/
theorem sweepColumn_of_pivot (hk : pivots[s.pivots.length]? = some k) :
    s.sweepColumn k = { s with pivots := s.pivots ++ [k] } := by
  have hunit : ∀ r, r < s.current.rows →
      s.current.entry r k = if r = s.pivots.length then 1 else 0 := by
    rw [hm]
    exact h.unit _ k hk
  have htop : s.pivots.length < s.current.rows := hm ▸ h.row_lt hk
  have hone : s.current.entry s.pivots.length k = 1 := by
    rw [hunit _ htop, if_pos rfl]
  rcases s.sweepColumn_cases k with
    ⟨hfull, _⟩ | ⟨_, hzero, _⟩ | ⟨found, _, hlt, hne, heq⟩
  · exact absurd htop (Nat.not_lt.mpr hfull)
  · rw [hzero _ (Nat.le_refl _)] at hone
    exact absurd hone zero_ne_one
  · obtain rfl : found = s.pivots.length := by
      by_contra hother
      rw [hunit _ hlt, if_neg hother] at hne
      exact hne rfl
    rw [heq, install_eq_self hone fun r hr hne => by
      rw [hunit r hr, if_neg hne]]

/-- A column without pivot is passed over, with a remark or without. -/
theorem sweepColumn_of_free (hk : k < columns)
    (hright : ∀ i c, s.pivots.length ≤ i → pivots[i]? = some c → k < c) :
    s.sweepColumn k = s
      ∨ s.sweepColumn k
        = { s with moves := s.moves ++ [.skip k s.pivots.length] } := by
  rcases s.sweepColumn_cases k with
    ⟨_, heq⟩ | ⟨_, _, heq⟩ | ⟨found, hle, _, hne, _⟩
  · exact .inl heq
  · exact .inr heq
  · refine absurd ?_ hne
    rw [hm]
    cases hfound : pivots[found]? with
    | none =>
      exact h.zero_below found (List.getElem?_eq_none_iff.mp hfound) k hk
    | some c => exact h.zero_left found c hfound k (hright found c hle hfound)

end Idle

/-- **A sweep that has not touched its matrix** when the columns up to `k` are
done: it has found the given pivots as far as they lie in these columns, and only
remarked on others. -/
structure Idles (m : RatMatrix) (pivots : List Nat) (k : Nat)
    (s : Elimination) : Prop where
  current : s.current = m
  found : ∃ rest, pivots = s.pivots ++ rest ∧ (∀ c ∈ s.pivots, c < k)
    ∧ ∀ c ∈ rest, k ≤ c
  skips : ∀ move ∈ s.moves, ∃ column row, move = .skip column row
    ∧ column < k ∧ column ∉ pivots

/-- **One column more** leaves an echelon form as it is. -/
theorem Idles.sweepColumn {m : RatMatrix} {columns : Nat} {pivots : List Nat}
    (h : m.IsEchelon columns pivots) {k : Nat} (hk : k < columns)
    {s : Elimination} (hs : Idles m pivots k s) :
    Idles m pivots (k + 1) (s.sweepColumn k) := by
  obtain ⟨current, ⟨rest, hrest, hlt, hle⟩, skips⟩ := hs
  have hsorted : (s.pivots ++ rest).Pairwise (· < ·) := hrest ▸ h.increasing
  have hkeep : ∀ move ∈ s.moves, ∃ column row, move = .skip column row
      ∧ column < k + 1 ∧ column ∉ pivots := fun move hmove => by
    obtain ⟨column, row, rfl, hcolumn, hnot⟩ := skips move hmove
    exact ⟨column, row, rfl, Nat.lt_succ_of_lt hcolumn, hnot⟩
  by_cases hmem : k ∈ rest
  · -- the pivots that are left begin with the one of this column
    obtain ⟨before, rest, rfl⟩ := List.append_of_mem hmem
    have hbefore : before = [] := by
      refine List.eq_nil_iff_forall_not_mem.mpr fun c hc => ?_
      have hck := (List.pairwise_append.mp
        (List.pairwise_append.mp hsorted).2.1).2.2 c hc k List.mem_cons_self
      exact Nat.not_lt.mpr (hle c (List.mem_append_left _ hc)) hck
    rw [hbefore, List.nil_append] at hrest hsorted
    have hpivot : pivots[s.pivots.length]? = some k := by
      rw [hrest]
      exact List.getElem?_append_right (Nat.le_refl _) |>.trans (by simp)
    rw [sweepColumn_of_pivot h current hpivot]
    refine ⟨current, ⟨rest, by rw [hrest, List.append_cons], fun c hc => ?_,
      fun c hc => ?_⟩, hkeep⟩
    · rcases List.mem_append.mp hc with hc | hc
      · exact Nat.lt_succ_of_lt (hlt c hc)
      · exact Nat.lt_succ_of_le (Nat.le_of_eq (List.mem_singleton.mp hc))
    · exact (List.pairwise_cons.mp (List.pairwise_append.mp hsorted).2.1).1 c hc
  · have hnot : k ∉ pivots := by
      rw [hrest, List.mem_append, not_or]
      exact ⟨fun hk => Nat.lt_irrefl k (hlt k hk), hmem⟩
    have hright : ∀ c ∈ rest, k < c := fun c hc =>
      Nat.lt_of_le_of_ne (hle c hc) fun heq => hmem (heq ▸ hc)
    have hfound : ∃ rest, pivots = s.pivots ++ rest
        ∧ (∀ c ∈ s.pivots, c < k + 1) ∧ ∀ c ∈ rest, k + 1 ≤ c :=
      ⟨rest, hrest, fun c hc => Nat.lt_succ_of_lt (hlt c hc), hright⟩
    rcases sweepColumn_of_free h current hk fun i c hi hc => by
        rw [hrest, List.getElem?_append_right hi] at hc
        exact hright c (List.mem_of_getElem? hc) with heq | heq
    · rw [heq]
      exact ⟨current, hfound, hkeep⟩
    · rw [heq]
      refine ⟨current, hfound, fun move hmove => ?_⟩
      rcases List.mem_append.mp hmove with hmove | hmove
      · exact hkeep move hmove
      · exact ⟨k, _, List.mem_singleton.mp hmove, Nat.lt_succ_self k, hnot⟩

/-- **A sweep over an echelon form** makes no operation, by induction on the
columns. -/
theorem idles_sweep {m : RatMatrix} {columns : Nat} {pivots : List Nat}
    (h : m.IsEchelon columns pivots) {k : Nat} (hk : k ≤ columns) :
    Idles m pivots k (sweep m k) := by
  induction k with
  | zero =>
    exact ⟨rfl, ⟨pivots, rfl, fun _ hc => absurd hc List.not_mem_nil,
      fun _ _ => Nat.zero_le _⟩, fun _ hmove => absurd hmove List.not_mem_nil⟩
  | succ k ih =>
    rw [sweep_succ]
    exact (ih (Nat.le_of_succ_le hk)).sweepColumn h hk

/-- When all columns are done, all pivots have been found. -/
theorem Idles.pivots_eq {m : RatMatrix} {columns : Nat} {pivots : List Nat}
    (h : m.IsEchelon columns pivots) {s : Elimination}
    (hs : Idles m pivots columns s) : s.pivots = pivots := by
  obtain ⟨rest, hrest, -, hle⟩ := hs.found
  have hnil : rest = [] := by
    refine List.eq_nil_iff_forall_not_mem.mpr fun c hc => ?_
    have hlt := h.lt_columns c (hrest ▸ List.mem_append_right _ hc)
    exact Nat.not_lt.mpr (hle c hc) hlt
  rw [hrest, hnil, List.append_nil]

end Elimination

namespace RatMatrix

/-! ## Fixed points -/

section Fixed

variable {m : RatMatrix} {columns : Nat} {pivots : List Nat}
  (h : m.IsEchelon (min columns m.cols) pivots)

include h

theorem idles_eliminate :
    Elimination.Idles m pivots (min columns m.cols) (m.eliminate columns) :=
  Elimination.idles_sweep h (Nat.le_refl _)

/-- **An echelon form is left alone** by reduction. -/
theorem IsEchelon.rref_eq : (m.reduceColumns columns).rref = m :=
  (idles_eliminate h).current

/-- Its pivots are found again. -/
theorem IsEchelon.pivots_eq : (m.reduceColumns columns).pivots = pivots :=
  (idles_eliminate h).pivots_eq h

/-- **The account of a reduction with nothing to do**: between the first step and
the last there are only remarks on columns without pivot. -/
theorem IsEchelon.trace_eq :
    ∃ notes, (m.reduceColumns columns).trace
        = m.initialStep :: notes ++ [m.closingStep pivots]
      ∧ ∀ step ∈ notes, step.operation? = none ∧ step.snapshot = .none
        ∧ ∃ column, column < min columns m.cols ∧ column ∉ pivots
          ∧ step.label = noPivotLabel column := by
  refine ⟨(m.eliminate columns).moves.map Move.toStep, ?_, fun step hstep => ?_⟩
  · show m.initialStep :: _ ++ [closingStep (m.reduceColumns columns).rref
      (m.reduceColumns columns).pivots] = _
    rw [h.rref_eq, h.pivots_eq]
  · obtain ⟨move, hmove, rfl⟩ := List.mem_map.mp hstep
    obtain ⟨column, row, rfl, hlt, hnot⟩ := (idles_eliminate h).skips move hmove
    exact ⟨Move.operation?_toStep_skip column row, rfl, column, hlt, hnot, rfl⟩

end Fixed

/-- An echelon form passes the test, also when more columns are asked for than
there are. -/
theorem IsEchelon.isRref_of_min {m : RatMatrix} {columns : Nat}
    {pivots : List Nat} (h : m.IsEchelon (min columns m.cols) pivots) :
    m.isRref columns = true := by
  have hmin := h.isRref (Nat.min_le_right _ _)
  rwa [RatMatrix.isRref, Nat.min_assoc, Nat.min_self] at hmin

/-- What reduction gives is in echelon form, over the columns that it has. -/
theorem isEchelon_rref (m : RatMatrix) (columns : Nat) :
    (m.reduceColumns columns).rref.IsEchelon
      (min columns (m.reduceColumns columns).rref.cols)
      (m.reduceColumns columns).pivots := by
  rw [cols_rref]
  exact isEchelon_reduceColumns m columns

/-- **The test for reduced form accepts exactly the fixed points of reduction.**
Of these the pivots can be told from the matrix, and their account has no
operations. So what reduction gives is left alone when it is reduced again, and
reading off its solutions gives the same with the pivots told from the matrix as
with those that were reported. -/
theorem reduceColumns_fixed_points (m : RatMatrix) (columns : Nat) :
    (m.isRref columns = true ↔ (m.reduceColumns columns).rref = m)
      ∧ (m.isRref columns = true →
        m.pivotColumnsOf columns = (m.reduceColumns columns).pivots
          ∧ (m.reduceColumns columns).trace.operations = []
          ∧ (∃ notes, (m.reduceColumns columns).trace
              = m.initialStep :: notes
                ++ [m.closingStep (m.reduceColumns columns).pivots]
            ∧ ∀ step ∈ notes, step.operation? = none ∧ step.snapshot = .none
              ∧ ∃ column, column < min columns m.cols
                ∧ column ∉ (m.reduceColumns columns).pivots
                ∧ step.label = noPivotLabel column)
          ∧ ∀ homogeneous, m.classify (m.pivotColumnsOf columns) homogeneous
            = m.classify (m.reduceColumns columns).pivots homogeneous)
      ∧ (let r := m.reduceColumns columns
        (r.rref.reduceColumns columns).rref = r.rref
          ∧ (r.rref.reduceColumns columns).pivots = r.pivots
          ∧ ∀ homogeneous,
            r.rref.classify (r.rref.pivotColumnsOf columns) homogeneous
              = r.rref.classify r.pivots homogeneous) := by
  refine ⟨⟨fun h => (isEchelon_of_isRref h).rref_eq, fun h => ?_⟩,
    fun h => ?_, ?_⟩
  · have hechelon := isEchelon_rref m columns
    rw [h] at hechelon
    exact hechelon.isRref_of_min
  · have hechelon := isEchelon_of_isRref h
    have hpivots := hechelon.pivots_eq
    obtain ⟨notes, htrace, hnotes⟩ := hechelon.trace_eq
    rw [hpivots]
    refine ⟨rfl, ?_, ⟨notes, htrace, hnotes⟩, fun _ => rfl⟩
    rw [htrace, Trace.operations, List.cons_append,
      List.filterMap_cons_none (operation?_initialStep m),
      List.filterMap_append,
      List.filterMap_cons_none (operation?_closingStep m _),
      List.filterMap_nil, List.append_nil, List.filterMap_eq_nil_iff]
    exact fun step hstep => (hnotes step hstep).1
  · intro r
    have hechelon := isEchelon_rref m columns
    refine ⟨hechelon.rref_eq, hechelon.pivots_eq, fun homogeneous => ?_⟩
    rw [hechelon.pivotColumnsOf_eq]

/-- A matrix of two rows whose second variable is free, reduced over more columns
than it has. -/
theorem reduceColumns_fixed_two_by_three :
    let m : RatMatrix := ⟨2, 3, #[1, 2, 0, 0, 0, 1], rfl⟩
    m.isRref 5 = true ∧ (m.reduceColumns 5).rref = m
      ∧ m.pivotColumnsOf 5 = (m.reduceColumns 5).pivots
      ∧ m.pivotColumnsOf 5 = [0, 2]
      ∧ (m.reduceColumns 5).trace.operations = [] := by
  intro m
  have hrref : m.isRref 5 = true := by decide +kernel
  obtain ⟨hfixed, hreduced, -⟩ := reduceColumns_fixed_points m 5
  obtain ⟨hpivots, hoperations, -⟩ := hreduced hrref
  exact ⟨hrref, hfixed.mp hrref, hpivots, by decide +kernel, hoperations⟩

end RatMatrix

end Stepwise
