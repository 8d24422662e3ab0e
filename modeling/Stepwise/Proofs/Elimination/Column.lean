import Stepwise.Linear.Elimination
import Stepwise.Proofs.RatMatrix.RowOp

/-!
# One column of a sweep

What `Elimination.sweepColumn` can do is said once, by
`Elimination.sweepColumn_cases`: nothing, since every row has its pivot; a
remark, since the column is zero from the next pivot row down; or a pivot. In
the last case the state is that of `Elimination.install`. It is known in two
ways. It is reached by row operations that fit the column
(`Elimination.operates_install`), which says how the moves grow, and its entries
are those of a pivot step (`Elimination.entry_install`), which is what echelon
forms rest on.
-/

namespace Stepwise

open RatMatrix

/-- **A row operation that fits a column**: it swaps two different rows, or
divides a row by its entry in the column, that entry being neither zero nor
one, or clears an entry of the column that is not zero yet with the help of
another row. -/
def RowOp.Fits (m : RatMatrix) (column : Nat) : RowOp → Prop
  | .swap a b => a < m.rows ∧ b < m.rows ∧ a ≠ b
  | .divide i divisor =>
    i < m.rows ∧ divisor = m.entry i column ∧ divisor ≠ 0 ∧ divisor ≠ 1
  | .subtract target source factor =>
    target < m.rows ∧ source < m.rows ∧ target ≠ source
      ∧ factor = m.entry target column ∧ factor ≠ 0

theorem RowOp.Fits.isElementary {m : RatMatrix} {column : Nat} {op : RowOp}
    (h : op.Fits m column) : op.IsElementary m.rows := by
  cases op with
  | swap a b => exact h
  | divide i d => exact ⟨h.1, h.2.2.1⟩
  | subtract t s f => exact ⟨h.1, h.2.1, h.2.2.1⟩

namespace Elimination

/-! ## Row operations in a column -/

/-- **A state reached by row operations** that fit a column, one after the
other. -/
inductive Operates (column : Nat) (s : Elimination) : Elimination → Prop where
  | refl : Operates column s s
  | step {s' : Elimination} {op : RowOp} (reached : Operates column s s')
      (fits : op.Fits s'.current column) :
      Operates column s (s'.operate column op)

namespace Operates

variable {column : Nat} {s s' s'' : Elimination}

theorem trans (h : Operates column s s') (h' : Operates column s' s'') :
    Operates column s s'' := by
  induction h' with
  | refl => exact h
  | step _ fits ih => exact ih.step fits

theorem rows_eq (h : Operates column s s') :
    s'.current.rows = s.current.rows := by
  induction h with
  | refl => rfl
  | step _ _ ih => exact (RowOp.rows_apply _ _).trans ih

theorem cols_eq (h : Operates column s s') :
    s'.current.cols = s.current.cols := by
  induction h with
  | refl => rfl
  | step _ _ ih => exact (RowOp.cols_apply _ _).trans ih

/-- Row operations find no pivots. -/
theorem pivots_eq (h : Operates column s s') : s'.pivots = s.pivots := by
  induction h with
  | refl => rfl
  | step _ _ ih => exact ih

end Operates

theorem operates_bringUp {s : Elimination} {top column found : Nat}
    (htop : top < s.current.rows) (hfound : found < s.current.rows) :
    Operates column s (bringUp top column found s) := by
  unfold bringUp
  split
  · exact .refl
  · exact .step .refl ⟨htop, hfound, fun h => ‹¬found = top› h.symm⟩

theorem operates_normalize {s : Elimination} {top column : Nat}
    (htop : top < s.current.rows) (hne : s.current.entry top column ≠ 0) :
    Operates column s (normalize top column s) := by
  simp only [normalize]
  split
  · exact .refl
  · exact .step .refl ⟨htop, rfl, hne, ‹_›⟩

theorem operates_clearRow {s : Elimination} {top i : Nat} (column : Nat)
    (htop : top < s.current.rows) (hi : i < s.current.rows) :
    Operates column s (clearRow top column s i) := by
  simp only [clearRow]
  split
  · exact .refl
  · rename_i h
    exact .step .refl
      ⟨hi, htop, fun hit => h (.inl hit), rfl, fun hz => h (.inr hz)⟩

theorem operates_clearRows {s : Elimination} {top : Nat} {rows : List Nat}
    (column : Nat) (htop : top < s.current.rows)
    (hrows : ∀ i ∈ rows, i < s.current.rows) :
    Operates column s (rows.foldl (clearRow top column) s) := by
  refine List.foldlRecOn rows (clearRow top column)
    (motive := Operates column s) .refl fun s' hs' i hi => hs'.trans ?_
  exact operates_clearRow column (hs'.rows_eq ▸ htop)
    (hs'.rows_eq ▸ hrows i hi)

/-! ## The entries after each step -/

theorem entry_bringUp (s : Elimination) {i : Nat} (hi : i < s.current.rows)
    (top column found j : Nat) :
    (bringUp top column found s).current.entry i j
      = s.current.entry (Equiv.swap top found i) j := by
  unfold bringUp
  split
  · rw [‹found = top›, Equiv.swap_self]
    rfl
  · exact entry_swapRows hi top found j

theorem entry_normalize (s : Elimination) (top column i j : Nat) :
    (normalize top column s).current.entry i j
      = if i = top then s.current.entry i j * (s.current.entry top column)⁻¹
        else s.current.entry i j := by
  simp only [normalize]
  split
  · rw [‹s.current.entry top column = 1›, inv_one, mul_one, ite_self]
  · exact entry_scaleRow s.current top _ i j

theorem entry_clearRow (s : Elimination) {i : Nat} (hi : i < s.current.rows)
    (top column r j : Nat) :
    (clearRow top column s r).current.entry i j
      = if i = r ∧ i ≠ top then
          s.current.entry i j - s.current.entry top j * s.current.entry i column
        else s.current.entry i j := by
  simp only [clearRow]
  by_cases hr : r = top ∨ s.current.entry r column = 0
  · rw [if_pos hr]
    split
    · rename_i h
      obtain ⟨rfl, hne⟩ := h
      rw [hr.resolve_left hne, mul_zero, sub_zero]
    · rfl
  · rw [if_neg hr]
    show (s.current.subtractScaledRow r top _).entry i j = _
    rw [entry_subtractScaledRow hi]
    by_cases hir : i = r
    · subst hir
      rw [if_pos rfl, if_pos ⟨rfl, fun h => hr (.inl h)⟩]
    · rw [if_neg hir, if_neg fun h => hir h.1]

/-- **Clearing several rows** subtracts from each of them, the pivot row
excepted, its multiple of the pivot row. -/
theorem entry_clearRows {rows : List Nat} (hnd : rows.Nodup) :
    ∀ {s : Elimination} {top : Nat}, top < s.current.rows →
      (∀ i ∈ rows, i < s.current.rows) → ∀ {i : Nat}, i < s.current.rows →
      ∀ column j,
      (rows.foldl (clearRow top column) s).current.entry i j
        = if i ∈ rows ∧ i ≠ top then s.current.entry i j
            - s.current.entry top j * s.current.entry i column
          else s.current.entry i j := by
  induction rows with
  | nil =>
    intro s top _ _ i _ column j
    rw [if_neg fun h => absurd h.1 List.not_mem_nil]
    rfl
  | cons r rows ih =>
    intro s top htop hrows i hi column j
    obtain ⟨hr, hnd⟩ := List.nodup_cons.mp hnd
    have hop := operates_clearRow column htop (hrows r List.mem_cons_self)
    -- the pivot row stays, so every row loses a multiple of the same row
    have hkeep : ∀ c, (clearRow top column s r).current.entry top c
        = s.current.entry top c := fun c => by
      rw [entry_clearRow s htop, if_neg fun h => h.2 rfl]
    rw [List.foldl_cons, ih hnd (hop.rows_eq ▸ htop)
      (fun k hk => hop.rows_eq ▸ hrows k (List.mem_cons_of_mem r hk))
      (hop.rows_eq ▸ hi), hkeep, entry_clearRow s hi, entry_clearRow s hi]
    by_cases hir : i = r
    · subst hir
      rw [if_neg fun h => hr h.1]
      by_cases hit : i = top
      · rw [if_neg fun h => h.2 hit, if_neg fun h => h.2 hit]
      · rw [if_pos ⟨rfl, hit⟩, if_pos ⟨List.mem_cons_self, hit⟩]
    · simp only [hir, false_and, if_false, List.mem_cons, false_or]

/-! ## A pivot -/

/-- **Row `found` made the pivot row of a column**, as row `top`. -/
def install (top column found : Nat) (s : Elimination) : Elimination :=
  clearColumn top column (normalize top column (bringUp top column found s))

section Install

variable {s : Elimination} {top column found : Nat}
  (htop : top < s.current.rows) (hfound : found < s.current.rows)
  (hne : s.current.entry found column ≠ 0)

include htop in
/-- The pivot row before the column is cleared: the row found, divided by its
entry in the column. -/
theorem entry_normalize_bringUp {i : Nat} (hi : i < s.current.rows) (j : Nat) :
    (normalize top column (bringUp top column found s)).current.entry i j
      = if i = top then
          s.current.entry found j * (s.current.entry found column)⁻¹
        else s.current.entry (Equiv.swap top found i) j := by
  rw [entry_normalize, entry_bringUp s hi, entry_bringUp s htop,
    Equiv.swap_apply_left]
  split
  · rw [‹i = top›, Equiv.swap_apply_left]
  · rfl

include htop hfound hne

theorem operates_normalize_bringUp :
    Operates column s (normalize top column (bringUp top column found s)) := by
  have hop : Operates column s (bringUp top column found s) :=
    operates_bringUp htop hfound
  refine hop.trans (operates_normalize (hop.rows_eq ▸ htop) ?_)
  rwa [entry_bringUp s htop, Equiv.swap_apply_left]

/-- **A pivot is installed by fitting row operations.** -/
theorem operates_install : Operates column s (install top column found s) := by
  have hop := operates_normalize_bringUp htop hfound hne
  exact hop.trans (operates_clearRows column (hop.rows_eq ▸ htop)
    fun i hi => List.mem_range.mp hi)

/-- **The entries after a pivot step.** The pivot row is the row found, divided
by its entry in the column; every other row, after the exchange, is less its
multiple of the pivot row. -/
theorem entry_install {i : Nat} (hi : i < s.current.rows) (j : Nat) :
    (install top column found s).current.entry i j
      = if i = top then
          s.current.entry found j * (s.current.entry found column)⁻¹
        else s.current.entry (Equiv.swap top found i) j
          - s.current.entry found j * (s.current.entry found column)⁻¹
            * s.current.entry (Equiv.swap top found i) column := by
  have hop := operates_normalize_bringUp htop hfound hne
  unfold install clearColumn
  rw [entry_clearRows List.nodup_range (hop.rows_eq ▸ htop)
      (fun k hk => List.mem_range.mp hk) (hop.rows_eq ▸ hi),
    entry_normalize_bringUp htop hi,
    entry_normalize_bringUp htop hi,
    entry_normalize_bringUp htop htop, if_pos rfl]
  by_cases hit : i = top
  · rw [if_neg fun h => h.2 hit, if_pos hit, if_pos hit]
  · rw [if_pos ⟨List.mem_range.mpr (hop.rows_eq ▸ hi), hit⟩, if_neg hit,
      if_neg hit, if_neg hit]

end Install

/-! ## The column as a whole -/

/-- A row that the search finds lies in the matrix, not above the row the
search started from, and its entry is not zero. -/
theorem of_findPivot?_eq_some {m : RatMatrix} {top column found : Nat}
    (h : findPivot? m top column = some found) :
    top ≤ found ∧ found < m.rows ∧ m.entry found column ≠ 0 := by
  have hmem : found < m.rows :=
    List.mem_range.mp (List.mem_of_find?_eq_some h)
  have hp := List.find?_some h
  rw [decide_eq_true_eq] at hp
  exact ⟨hp.1, hmem, hp.2⟩

/-- The search fails only when the column is zero from the top row down. -/
theorem of_findPivot?_eq_none {m : RatMatrix} {top column : Nat}
    (h : findPivot? m top column = none) {i : Nat} (hi : top ≤ i) :
    m.entry i column = 0 := by
  by_cases hr : i < m.rows
  · have hn := List.find?_eq_none.mp h i (List.mem_range.mpr hr)
    rw [decide_eq_true_eq, not_and_not_right] at hn
    exact hn hi
  · exact entry_eq_zero_of_rows_le (Nat.not_lt.mp hr) column

/-- **What a column of the sweep can do**: nothing once every row has its
pivot, a remark when the column is zero from the next pivot row down, and
otherwise a pivot. -/
theorem sweepColumn_cases (s : Elimination) (column : Nat) :
    (s.current.rows ≤ s.pivots.length ∧ s.sweepColumn column = s)
      ∨ (s.pivots.length < s.current.rows
        ∧ (∀ i, s.pivots.length ≤ i → s.current.entry i column = 0)
        ∧ s.sweepColumn column
          = { s with moves := s.moves ++ [.skip column s.pivots.length] })
      ∨ ∃ found, s.pivots.length ≤ found ∧ found < s.current.rows
        ∧ s.current.entry found column ≠ 0
        ∧ s.sweepColumn column
          = { install s.pivots.length column found s with
              pivots := s.pivots ++ [column] } := by
  unfold sweepColumn
  by_cases htop : s.current.rows ≤ s.pivots.length
  · exact .inl ⟨htop, by simp only [if_pos htop]⟩
  · refine .inr ?_
    simp only [if_neg htop]
    cases hf : findPivot? s.current s.pivots.length column with
    | none =>
      exact .inl ⟨Nat.not_le.mp htop, fun i hi => of_findPivot?_eq_none hf hi,
        rfl⟩
    | some found =>
      obtain ⟨hle, hlt, hne⟩ := of_findPivot?_eq_some hf
      have hp := (operates_install (Nat.not_le.mp htop) hlt hne).pivots_eq
      refine .inr ⟨found, hle, hlt, hne, ?_⟩
      unfold install at hp ⊢
      simp only [hp]

end Elimination

end Stepwise
