import Stepwise.Proofs.Elimination.RowEquivalence
import Stepwise.Proofs.RatMatrix.Label

/-!
# A trace replays its elimination

The steps of a trace are read as they stand: the operation of a step is the one
that its label names, its matrix is the one that it shows. `Trace.Replays` says
that steps account for the way from one matrix to another: each either names an
operation and shows what the operation makes of the matrix shown before, or is a
remark on a column without pivot, and shows nothing.

Why an operation is made is told from the pivots that were found in the end: it
works in the column of a pivot, where it brings up an entry that is not zero,
makes it one, or clears another (`RowOp.Serves`). A sweep makes no other
operations, which follows from what it does in a single column
(`Elimination.forall_moves_install`).
-/

namespace Stepwise

open RatMatrix

/-! ## Reading a trace -/

/-- The operation that the label of a step names, if it names one. -/
def Step.operation? (step : Step) : Option RowOp :=
  RowOp.ofLabel? step.label

/-- The matrix that a step shows, if it shows one. -/
def Step.matrix? (step : Step) : Option RatMatrix :=
  match step.snapshot with
  | .matrix value => some value
  | _ => none

/-- The matrices that a trace shows, in order. -/
def Trace.matrices (trace : Trace) : List RatMatrix :=
  trace.filterMap Step.matrix?

/-- The operations that a trace names, in order. -/
def Trace.operations (trace : Trace) : List RowOp :=
  trace.filterMap Step.operation?

theorem Step.matrix?_of_snapshot {step : Step} {value : RatMatrix}
    (h : step.snapshot = .matrix value) : step.matrix? = some value := by
  rw [Step.matrix?, h]

/-- **An operation that serves a pivot.** It is made in the column of a pivot,
for the row of that pivot: an exchange brings an entry up to it that is not
zero, a division makes its entry one, and a subtraction clears the entry of
another row. -/
def RowOp.Serves (pivots : List Nat) (m : RatMatrix) (column : Nat)
    (op : RowOp) : Prop :=
  match op with
  | .swap top found => pivots[top]? = some column ∧ top < found
      ∧ (op.apply m).entry top column ≠ 0
  | .divide top _ =>
    pivots[top]? = some column ∧ (op.apply m).entry top column = 1
  | .subtract target top _ =>
    pivots[top]? = some column ∧ (op.apply m).entry target column = 0

/-- The label of the remark on a column without pivot. -/
def noPivotLabel (column : Nat) : String :=
  s!"Column {column + 1} has no pivot"

/-- **Steps that lead from a matrix to another.** A step that names an
operation shows what it makes of the matrix reached before; it fits a column and
serves one of the given pivots. Any other step is the remark on a column without
pivot. It shows no matrix. -/
inductive Trace.Replays (pivots : List Nat) (m : RatMatrix) :
    Trace → RatMatrix → Prop where
  | start : Replays pivots m [] m
  | remark {trace : Trace} {m' : RatMatrix} {step : Step} {column : Nat}
      (before : Replays pivots m trace m')
      (label : step.label = noPivotLabel column) (free : column ∉ pivots)
      (names : step.operation? = none) (shows : step.snapshot = .none) :
      Replays pivots m (trace ++ [step]) m'
  | operation {trace : Trace} {m' : RatMatrix} {step : Step} {op : RowOp}
      {column : Nat} (before : Replays pivots m trace m')
      (names : step.operation? = some op) (fits : op.Fits m' column)
      (serves : op.Serves pivots m' column)
      (shows : step.snapshot = .matrix (op.apply m')) :
      Replays pivots m (trace ++ [step]) (op.apply m')

/-- **The last matrix shown is the one reached**, the first one counting as
shown. -/
theorem Trace.Replays.getLast?_matrices {pivots : List Nat}
    {m m' : RatMatrix} {trace : Trace} (h : Replays pivots m trace m') :
    (m :: trace.matrices).getLast? = some m' := by
  induction h with
  | start => rfl
  | @remark trace m' step column before label free names shows ih =>
    have hnone : step.matrix? = none := by
      rw [Step.matrix?, shows]
    rw [Trace.matrices, List.filterMap_append, List.filterMap_cons_none hnone,
      List.filterMap_nil, List.append_nil]
    exact ih
  | @operation trace m' step op column before names fits serves shows ih =>
    rw [Trace.matrices, List.filterMap_append,
      List.filterMap_cons_some (Step.matrix?_of_snapshot shows),
      List.filterMap_nil, ← List.cons_append, List.getLast?_concat]

namespace Elimination

/-! ## The moves of a pivot -/

section Install

variable {P : Move → Prop} {s : Elimination} {column : Nat}

theorem forall_moves_operate {op : RowOp} (hs : ∀ move ∈ s.moves, P move)
    (hop : P (.operate column op s.current)) :
    ∀ move ∈ (s.operate column op).moves, P move := by
  intro move hmove
  rcases List.mem_append.mp hmove with hmove | hmove
  · exact hs move hmove
  · rw [List.mem_singleton.mp hmove]
    exact hop

variable {top found : Nat}
  (htop : top < s.current.rows) (hfound : found < s.current.rows)
  (hne : s.current.entry found column ≠ 0)
  (hs : ∀ move ∈ s.moves, P move)

include htop hfound hne hs

/-- **The moves that install a pivot**: an exchange that brings up an entry of
the column, unless it is up already, the division by it, and the subtractions
that clear the column, made when the entry is one. -/
theorem forall_moves_install
    (hswap : ∀ m : RatMatrix, top < m.rows → found ≠ top →
      m.entry found column ≠ 0 → P (.operate column (.swap top found) m))
    (hdivide : ∀ m : RatMatrix, m.entry top column ≠ 0 →
      P (.operate column (.divide top (m.entry top column)) m))
    (hsubtract : ∀ (m : RatMatrix) i, i < m.rows → m.entry top column = 1 →
      P (.operate column (.subtract i top (m.entry i column)) m)) :
    ∀ move ∈ (install top column found s).moves, P move := by
  have hup : ∀ move ∈ (bringUp top column found s).moves, P move := by
    unfold bringUp
    split
    · exact hs
    · exact forall_moves_operate hs (hswap s.current htop ‹_› hne)
  have hone : ∀ move ∈ (normalize top column
      (bringUp top column found s)).moves, P move := by
    simp only [normalize]
    split
    · exact hup
    · refine forall_moves_operate hup (hdivide _ ?_)
      rwa [entry_bringUp s htop, Equiv.swap_apply_left]
  have hop := operates_normalize_bringUp htop hfound hne
  -- the pivot row keeps its entry while the others are cleared
  unfold install clearColumn
  refine (List.foldlRecOn (List.range _) (clearRow top column)
    (motive := fun s' => s'.current.rows = s.current.rows
      ∧ s'.current.entry top column = 1 ∧ ∀ move ∈ s'.moves, P move)
    ⟨hop.rows_eq, ?_, hone⟩ fun s' hs' i hi => ?_).2.2
  · rw [entry_normalize_bringUp htop htop, if_pos rfl, mul_inv_cancel₀ hne]
  · obtain ⟨hrows, hentry, hmoves⟩ := hs'
    have hi' : i < s'.current.rows := by
      rw [hrows, ← hop.rows_eq]
      exact List.mem_range.mp hi
    have htop' : top < s'.current.rows := hrows ▸ htop
    refine ⟨(operates_clearRow column htop' hi').rows_eq.trans hrows, ?_, ?_⟩
    · rw [entry_clearRow s' htop', if_neg fun h => h.2 rfl, hentry]
    · simp only [clearRow]
      split
      · exact hmoves
      · exact forall_moves_operate hmoves (hsubtract _ i hi' hentry)

end Install

end Elimination

/-- The column in which a move was made. -/
def Move.column : Move → Nat
  | .skip column _ => column
  | .operate column _ _ => column

/-- **A move that serves the given pivots**: an operation that serves one of
them, or a remark on a column without. -/
def Move.Serves (pivots : List Nat) : Move → Prop
  | .skip column _ => column ∉ pivots
  | .operate column op before => op.Serves pivots before column

/-- A pivot found later, in a column not reached yet, changes nothing about the
moves made before. -/
theorem Move.Serves.append {pivots : List Nat} {move : Move} {k : Nat}
    (h : move.Serves pivots) (hk : move.column < k) :
    move.Serves (pivots ++ [k]) := by
  have hget : ∀ {top column : Nat}, pivots[top]? = some column →
      (pivots ++ [k])[top]? = some column := by
    intro top column htop
    rw [List.getElem?_append_left (List.getElem?_eq_some_iff.mp htop).1, htop]
  cases move with
  | skip column row =>
    have hfree : column ∉ pivots := h
    have hlt : column < k := hk
    show column ∉ pivots ++ [k]
    rw [List.mem_append, List.mem_singleton, not_or]
    exact ⟨hfree, Nat.ne_of_lt hlt⟩
  | operate column op before =>
    cases op with
    | swap top found => exact ⟨hget h.1, h.2⟩
    | divide top divisor => exact ⟨hget h.1, h.2⟩
    | subtract target top factor => exact ⟨hget h.1, h.2⟩

namespace Elimination

/-- The moves that install a pivot serve it. -/
theorem serves_install {s : Elimination} {k found : Nat}
    {pivots : List Nat} (hpivot : pivots[s.pivots.length]? = some k)
    (hle : s.pivots.length ≤ found) (hfound : found < s.current.rows)
    (hne : s.current.entry found k ≠ 0)
    (hs : ∀ move ∈ s.moves, move.column < k + 1 ∧ move.Serves pivots) :
    ∀ move ∈ (install s.pivots.length k found s).moves,
      move.column < k + 1 ∧ move.Serves pivots := by
  refine forall_moves_install (Nat.lt_of_le_of_lt hle hfound) hfound hne hs
    (fun m htop hmoved hentry => ?_) (fun m hentry => ?_)
    fun m i hi hentry => ?_
  · refine ⟨Nat.lt_succ_self k, hpivot,
      Nat.lt_of_le_of_ne hle (Ne.symm hmoved), ?_⟩
    show (m.swapRows s.pivots.length found).entry s.pivots.length k ≠ 0
    rwa [entry_swapRows htop, Equiv.swap_apply_left]
  · refine ⟨Nat.lt_succ_self k, hpivot, ?_⟩
    show (m.scaleRow s.pivots.length _).entry s.pivots.length k = 1
    rw [entry_scaleRow, if_pos rfl, mul_inv_cancel₀ hentry]
  · refine ⟨Nat.lt_succ_self k, hpivot, ?_⟩
    show (m.subtractScaledRow i s.pivots.length _).entry i k = 0
    rw [entry_subtractScaledRow hi, if_pos rfl, hentry, one_mul, sub_self]

/-- **Every move of a sweep serves the pivots** found in the end, by induction
on the columns. -/
theorem serves_sweep (m : RatMatrix) (k : Nat) :
    ∀ move ∈ (sweep m k).moves,
      move.column < k ∧ move.Serves (sweep m k).pivots := by
  induction k with
  | zero => exact fun move hmove => absurd hmove List.not_mem_nil
  | succ k ih =>
    have hkeep : ∀ move ∈ (sweep m k).moves,
        move.column < k + 1 ∧ move.Serves (sweep m k).pivots :=
      fun move hmove => ⟨Nat.lt_succ_of_lt (ih move hmove).1,
        (ih move hmove).2⟩
    rw [sweep_succ]
    rcases (sweep m k).sweepColumn_cases k with
      ⟨_, heq⟩ | ⟨_, _, heq⟩ | ⟨found, hle, hlt, hne, heq⟩
    · rw [heq]
      exact hkeep
    · rw [heq]
      intro move hmove
      rcases List.mem_append.mp hmove with hmove | hmove
      · exact hkeep move hmove
      · rw [List.mem_singleton.mp hmove]
        -- a column just reached is no pivot yet
        exact ⟨Nat.lt_succ_self k, fun hk =>
          Nat.lt_irrefl k ((isEchelon_sweep m k).lt_columns k hk)⟩
    · rw [heq]
      refine serves_install List.getElem?_concat_length hle hlt hne
        fun move hmove => ⟨(hkeep move hmove).1, ?_⟩
      exact (ih move hmove).2.append (ih move hmove).1

end Elimination

/-! ## The steps of the moves -/

namespace Move

theorem operation?_toStep_skip (column row : Nat) :
    (skip column row).toStep.operation? = none := by
  refine RowOp.ofLabel?_eq_none ?_
  show ("Column " ++ toString (column + 1) ++ " has no pivot").toList.head?
    ≠ some 'R'
  simp

/-- **The step of a move names its operation.** -/
theorem operation?_toStep (move : Move) :
    move.toStep.operation? = move.op? := by
  cases move with
  | skip column row => exact operation?_toStep_skip column row
  | operate column op before => exact RowOp.ofLabel?_label op

end Move

/-- **The steps of moves replay them**, when the moves lead to a matrix and
serve the pivots. -/
theorem Elimination.Leads.replays {m m' : RatMatrix} {moves : List Move}
    {pivots : List Nat} (h : Leads m moves m')
    (hserves : ∀ move ∈ moves, move.Serves pivots) :
    Trace.Replays pivots m (moves.map Move.toStep) m' := by
  induction h with
  | start => exact .start
  | skip column row before ih =>
    rw [List.map_append]
    refine .remark (ih fun move hmove => hserves move
      (List.mem_append_left _ hmove)) rfl (hserves (.skip column row)
        (List.mem_append_right _ List.mem_cons_self)) ?_ rfl
    exact Move.operation?_toStep_skip column row
  | @operate moves m' column op before fits ih =>
    rw [List.map_append]
    refine .operation (ih fun move hmove => hserves move
      (List.mem_append_left _ hmove)) ?_ fits (hserves (.operate column op m')
        (List.mem_append_right _ List.mem_cons_self)) rfl
    exact RowOp.ofLabel?_label op

namespace RatMatrix

/-- The first step of the account of a reduction. -/
def initialStep (m : RatMatrix) : Step :=
  Step.matrix "Initial matrix" m

/-- The last step of the account of a reduction. -/
def closingStep (rref : RatMatrix) (pivots : List Nat) : Step :=
  (Step.matrix "Reduced row-echelon form" rref).because (pivotSummary pivots)

theorem operation?_initialStep (m : RatMatrix) :
    m.initialStep.operation? = none := by
  show RowOp.ofLabel? "Initial matrix" = none
  decide +kernel

theorem operation?_closingStep (rref : RatMatrix) (pivots : List Nat) :
    (rref.closingStep pivots).operation? = none := by
  show RowOp.ofLabel? "Reduced row-echelon form" = none
  decide +kernel

/-- The operations that the trace of a reduction names are those of its
elimination. -/
theorem operations_trace (m : RatMatrix) (limit : Nat) :
    (m.reduceColumns limit).trace.operations = m.rowOperations limit := by
  show (m.initialStep :: ((m.eliminate limit).moves.map Move.toStep
    ++ [closingStep _ _])).filterMap Step.operation? = _
  rw [List.filterMap_cons_none (operation?_initialStep m),
    List.filterMap_append,
    List.filterMap_cons_none (operation?_closingStep _ _),
    List.filterMap_nil, List.append_nil, List.filterMap_map]
  exact List.filterMap_congr fun move _ => Move.operation?_toStep move

/-- **A trace replays its elimination.** The trace of a reduction begins with
the matrix and ends with the reduced one, and the steps between lead from the
one to the other, serving the pivots reported. The matrix shown last before the
closing step is the reduced one as well; it is the matrix itself if no operation
was made. -/
theorem reduceColumns_trace_replays (m : RatMatrix) (limit : Nat) :
    let r := m.reduceColumns limit
    ∃ (first : Step) (steps : Trace) (last : Step),
      r.trace = first :: steps ++ [last]
        ∧ first.snapshot = .matrix m ∧ first.operation? = none
        ∧ last.snapshot = .matrix r.rref ∧ last.operation? = none
        ∧ Trace.Replays r.pivots m steps r.rref
        ∧ r.trace.matrices = m :: steps.matrices ++ [r.rref]
        ∧ (m :: steps.matrices).getLast? = some r.rref := by
  intro r
  have hreplays : Trace.Replays r.pivots m
      ((m.eliminate limit).moves.map Move.toStep) r.rref :=
    (Elimination.leads_sweep m (min limit m.cols)).replays fun move hmove =>
      (Elimination.serves_sweep m (min limit m.cols) move hmove).2
  refine ⟨m.initialStep, (m.eliminate limit).moves.map Move.toStep,
    r.rref.closingStep r.pivots, rfl, rfl, operation?_initialStep m, rfl,
    operation?_closingStep _ _, hreplays, ?_, hreplays.getLast?_matrices⟩
  show (m.initialStep :: ((m.eliminate limit).moves.map Move.toStep
    ++ [r.rref.closingStep r.pivots])).filterMap Step.matrix? = _
  rw [List.filterMap_cons_some (Step.matrix?_of_snapshot rfl),
    List.filterMap_append,
    List.filterMap_cons_some (Step.matrix?_of_snapshot rfl),
    List.filterMap_nil]
  rfl

/-- The account of a reduction in which a column has no pivot, two rows change
places, two are divided and one is cleared. -/
theorem reduceColumns_trace_replays_free :
    let m : RatMatrix := ⟨2, 3, #[0, 0, 2, 0, 3, 6], rfl⟩
    let r := m.reduceColumns 3
    r.trace.map Step.label
        = ["Initial matrix", "Column 1 has no pivot", "R1 <-> R2",
          "R1 -> R1 / 3", "R2 -> R2 / 2", "R1 -> R1 - 2R2",
          "Reduced row-echelon form"]
      ∧ r.trace.matrices
        = [m, ⟨2, 3, #[0, 3, 6, 0, 0, 2], rfl⟩, ⟨2, 3, #[0, 1, 2, 0, 0, 2], rfl⟩,
          ⟨2, 3, #[0, 1, 2, 0, 0, 1], rfl⟩, ⟨2, 3, #[0, 1, 0, 0, 0, 1], rfl⟩,
          ⟨2, 3, #[0, 1, 0, 0, 0, 1], rfl⟩]
      ∧ ∃ (first : Step) (steps : Trace) (last : Step),
        r.trace = first :: steps ++ [last]
          ∧ Trace.Replays [1, 2] m steps ⟨2, 3, #[0, 1, 0, 0, 0, 1], rfl⟩ := by
  intro m r
  have hpivots : r.pivots = [1, 2] := by decide +kernel
  have hrref : r.rref = ⟨2, 3, #[0, 1, 0, 0, 0, 1], rfl⟩ := by decide +kernel
  obtain ⟨first, steps, last, htrace, -, -, -, -, hreplays, -⟩ :=
    reduceColumns_trace_replays m 3
  refine ⟨by decide +kernel, by decide +kernel, first, steps, last, htrace, ?_⟩
  rw [← hpivots, ← hrref]
  exact hreplays

end RatMatrix

end Stepwise
