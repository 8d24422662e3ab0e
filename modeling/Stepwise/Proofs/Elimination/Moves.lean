import Stepwise.Proofs.Elimination.Echelon

/-!
# The moves of a sweep

The moves recorded by a sweep are an account of it: each was made on the matrix
that the moves before it led to, and each operation fits its column
(`Elimination.Leads`). Hence the reduced matrix is what the operations make of
the first one.

Which moves are made depends on the columns that may hold a pivot only. This is
an equation: dropping the other columns from a state, `Elimination.restrict`,
commutes with each step, so that the sweep of a part is the part of a sweep
(`Elimination.restrict_sweep`).
-/

namespace Stepwise

open RatMatrix

/-- The row operation of a move, if it is one. -/
def Move.op? : Move → Option RowOp
  | .skip _ _ => none
  | .operate _ op _ => some op

/-- The row operations among moves, in order. -/
def Move.operations (moves : List Move) : List RowOp :=
  moves.filterMap Move.op?

theorem Move.operations_append (moves moves' : List Move) :
    operations (moves ++ moves') = operations moves ++ operations moves' :=
  List.filterMap_append

namespace Elimination

/-! ## Where the moves lead -/

/-- **Moves that lead from a matrix to another**, each operation being made on
the matrix that the moves before it led to. -/
inductive Leads (m : RatMatrix) : List Move → RatMatrix → Prop where
  | start : Leads m [] m
  | skip {moves : List Move} {m' : RatMatrix} (column row : Nat)
      (before : Leads m moves m') : Leads m (moves ++ [.skip column row]) m'
  | operate {moves : List Move} {m' : RatMatrix} {column : Nat} {op : RowOp}
      (before : Leads m moves m') (fits : op.Fits m' column) :
      Leads m (moves ++ [.operate column op m']) (op.apply m')

/-- The matrix that moves lead to is what their operations make of the first
one. -/
theorem Leads.eq_applyAll {m m' : RatMatrix} {moves : List Move}
    (h : Leads m moves m') :
    m' = RowOp.applyAll (Move.operations moves) m := by
  induction h with
  | start => rfl
  | skip column row _ ih => rwa [Move.operations_append, RowOp.applyAll_append]
  | operate _ _ ih =>
    rw [Move.operations_append, RowOp.applyAll_append, ← ih]
    rfl

/-- Each operation among the moves can be undone. -/
theorem Leads.isElementary {m m' : RatMatrix} {moves : List Move}
    (h : Leads m moves m') :
    ∀ op ∈ Move.operations moves, op.IsElementary m.rows := by
  induction h with
  | start => exact fun op hop => absurd hop List.not_mem_nil
  | skip column row _ ih =>
    rw [Move.operations_append]
    exact fun op hop => ih op ((List.mem_append.mp hop).resolve_right
      List.not_mem_nil)
  | @operate moves m' column op before fits ih =>
    rw [Move.operations_append]
    intro o ho
    rcases List.mem_append.mp ho with ho | ho
    · exact ih o ho
    · have hrows : m'.rows = m.rows :=
        before.eq_applyAll ▸ RowOp.rows_applyAll _ m
      rw [List.mem_singleton.mp ho, ← hrows]
      exact fits.isElementary

theorem Operates.leads {m : RatMatrix} {column : Nat} {s s' : Elimination}
    (h : Operates column s s') (hs : Leads m s.moves s.current) :
    Leads m s'.moves s'.current := by
  induction h with
  | refl => exact hs
  | step _ fits ih => exact ih.operate fits

/-- **The moves of a sweep lead to its matrix.** -/
theorem leads_sweep (m : RatMatrix) (k : Nat) :
    Leads m (sweep m k).moves (sweep m k).current := by
  refine sweep_induction (P := fun _ s => Leads m s.moves s.current) .start
    (fun k s hs => ?_) k
  rcases s.sweepColumn_cases k with
    ⟨_, heq⟩ | ⟨_, _, heq⟩ | ⟨found, hle, hlt, hne, heq⟩
  · rw [heq]
    exact hs
  · rw [heq]
    exact hs.skip k s.pivots.length
  · rw [heq]
    exact (operates_install (Nat.lt_of_le_of_lt hle hlt) hlt hne).leads hs

end Elimination

/-! ## Dropping the carried columns -/

/-- A move as it would be made on the first `k` columns alone. -/
def Move.restrict (k : Nat) : Move → Move
  | .skip column row => .skip column row
  | .operate column op before => .operate column op (before.leftColumns k)

/-- The operations of a move do not depend on what it was made on. -/
theorem Move.operations_restrict (k : Nat) (moves : List Move) :
    operations (moves.map (Move.restrict k)) = operations moves := by
  unfold operations
  rw [List.filterMap_map]
  refine List.filterMap_congr fun move _ => ?_
  cases move <;> rfl

namespace Elimination

/-- **The part of a state** that concerns the first `k` columns. -/
def restrict (k : Nat) (s : Elimination) : Elimination where
  current := s.current.leftColumns k
  pivots := s.pivots
  moves := s.moves.map (Move.restrict k)

theorem restrict_operate (k : Nat) (s : Elimination) (column : Nat)
    (op : RowOp) :
    (s.operate column op).restrict k = (s.restrict k).operate column op := by
  unfold restrict operate
  rw [List.map_append, ← RowOp.apply_leftColumns]
  rfl

theorem restrict_bringUp (k : Nat) (s : Elimination)
    (top column found : Nat) :
    (bringUp top column found s).restrict k
      = bringUp top column found (s.restrict k) := by
  unfold bringUp
  split
  · rfl
  · exact restrict_operate k s column _

section Column

variable {k column : Nat} (hc : column < k) (s : Elimination)

include hc

theorem entry_restrict (i : Nat) :
    (s.restrict k).current.entry i column = s.current.entry i column :=
  entry_leftColumns_of_lt s.current hc i

theorem restrict_normalize (top : Nat) :
    (normalize top column s).restrict k
      = normalize top column (s.restrict k) := by
  simp only [normalize, entry_restrict hc]
  split
  · rfl
  · exact restrict_operate k s column _

theorem restrict_clearRow (top i : Nat) :
    (clearRow top column s i).restrict k
      = clearRow top column (s.restrict k) i := by
  simp only [clearRow, entry_restrict hc]
  split
  · rfl
  · exact restrict_operate k s column _

theorem restrict_clearColumn (top : Nat) :
    (clearColumn top column s).restrict k
      = clearColumn top column (s.restrict k) := by
  have hrows : (s.restrict k).current.rows = s.current.rows := rfl
  unfold clearColumn
  rw [hrows]
  -- the rows are listed once, while the state changes with each of them
  generalize List.range s.current.rows = rows
  induction rows generalizing s with
  | nil => rfl
  | cons i rows ih =>
    rw [List.foldl_cons, List.foldl_cons, ← restrict_clearRow hc]
    exact ih _ rfl

theorem restrict_install (top found : Nat) :
    (install top column found s).restrict k
      = install top column found (s.restrict k) := by
  unfold install
  rw [restrict_clearColumn hc, restrict_normalize hc, restrict_bringUp]

theorem findPivot?_restrict (top : Nat) :
    findPivot? (s.restrict k).current top column
      = findPivot? s.current top column := by
  have hrows : (s.restrict k).current.rows = s.current.rows := rfl
  unfold findPivot?
  rw [hrows]
  simp only [entry_restrict hc]

/-- **A column of the sweep does not look at the carried columns.** -/
theorem restrict_sweepColumn :
    (s.sweepColumn column).restrict k = (s.restrict k).sweepColumn column := by
  have hrows : (s.restrict k).current.rows = s.current.rows := rfl
  have hpivots : (s.restrict k).pivots = s.pivots := rfl
  simp only [sweepColumn, hrows, hpivots, findPivot?_restrict hc]
  split
  · rfl
  · cases findPivot? s.current s.pivots.length column with
    | none =>
      simp only [restrict, List.map_append]
      rfl
    | some found =>
      have hi := restrict_install hc s s.pivots.length found
      unfold install at hi
      simp only [← hi]
      rfl

end Column

/-- **The sweep of a part is the part of a sweep.** -/
theorem restrict_sweep (m : RatMatrix) {limit k : Nat} (h : limit ≤ k) :
    (sweep m limit).restrict k = sweep (m.leftColumns k) limit := by
  induction limit with
  | zero => rfl
  | succ limit ih =>
    rw [sweep_succ, sweep_succ, restrict_sweepColumn h, ih (Nat.le_of_succ_le h)]

end Elimination

end Stepwise
