import Stepwise.Proofs.RatMatrix.Edit
import Stepwise.RatMatrix.Flat

/-!
# Formulas and loops

The list of cells of a matrix is its rows, one after the other
(`RatMatrix.flat_eq`). So a place in the list is a row and a column
(`RatMatrix.getElem?_cells_flat`), and a row is a piece of the list
(`RatMatrix.row_flat`).

With this each operation is followed through its loop. A loop that writes cells
is described by the places it writes, in whatever order it comes to them
(`RatMatrix.foldlM_set_flat`, `RatMatrix.foldlM_fill`), one that puts rows
together by the rows it makes, and an edit pass by pass
(`RatMatrix.foldlM_edit_flat`). The lemma `RatMatrix.transpose_flat`, and
likewise for each operation, says that the loop makes of a matrix as it is kept
what the formula makes of the matrix. It refuses what the formula refuses, for
the same reason, and in range it never stops.
-/

namespace Stepwise

namespace FlatMatrix

theorem mem_places {rows cols : List Nat} {p : Nat × Nat} :
    p ∈ places rows cols ↔ p.1 ∈ rows ∧ p.2 ∈ cols := by
  obtain ⟨i, j⟩ := p
  simp [places]

/-- The values of a formula, row by row. -/
theorem map_places (rows cols : List Nat) (f : Nat → Nat → Rat) :
    (places rows cols).map (fun p => f p.1 p.2)
      = rows.flatMap fun i => cols.map (f i) := by
  unfold places
  rw [List.map_flatMap]
  refine List.flatMap_congr fun i _ => ?_
  rw [List.map_map]
  rfl

end FlatMatrix

namespace RatMatrix

open FlatMatrix

variable {m : RatMatrix}

/-! ## Cells and places -/

theorem place_eq_iff {c i j place : Nat} (hj : j < c) :
    i * c + j = place ↔ place / c = i ∧ place % c = j := by
  constructor
  · rintro rfl
    exact ⟨place_div hj, place_mod hj⟩
  · rintro ⟨rfl, rfl⟩
    exact Nat.div_add_mod' place c

@[simp] theorem rows_flat (m : RatMatrix) : m.flat.rows = m.rows := rfl

@[simp] theorem cols_flat (m : RatMatrix) : m.flat.cols = m.cols := rfl

@[simp] theorem length_cells_flat (m : RatMatrix) :
    m.flat.cells.length = m.rows * m.cols :=
  m.size_cells

/-- **The cells of a matrix given by a formula**, row by row. -/
theorem flat_ofFn (r c : Nat) (f : Nat → Nat → Rat) :
    (ofFn r c f).flat
      = ⟨r, c, (List.range r).flatMap fun i => (List.range c).map (f i)⟩ := by
  have hcells : (ofFn r c f).cells.toList
      = (List.range (r * c)).map fun place => f (place / c) (place % c) :=
    List.ext_getElem (by simp [ofFn]) fun place _ _ => by simp [ofFn]
  rw [flat, hcells]
  refine congrArg (FlatMatrix.mk r c) ?_
  clear hcells
  induction r with
  | zero => rw [Nat.zero_mul]; rfl
  | succ r ih =>
    rw [Nat.succ_mul, List.range_add, List.map_append, ih, List.range_succ,
      List.flatMap_append, List.flatMap_singleton, List.map_map]
    refine congrArg _ (List.map_congr_left fun j hj => ?_)
    have hj' : j < c := List.mem_range.mp hj
    rw [Function.comp_apply, place_div hj', place_mod hj']

/-- The cells of a matrix are its rows, one after the other. -/
theorem flat_eq (m : RatMatrix) :
    m.flat = ⟨m.rows, m.cols, (List.range m.rows).flatMap m.row⟩ := by
  have h := flat_ofFn m.rows m.cols m.entry
  rwa [ofFn_entry] at h

/-- So a matrix is known as it is kept once its rows are known. -/
theorem flat_eq_of_row {rows : Nat → List Rat}
    (h : ∀ i, i < m.rows → m.row i = rows i) :
    m.flat = ⟨m.rows, m.cols, (List.range m.rows).flatMap rows⟩ := by
  rw [flat_eq]
  exact congrArg (FlatMatrix.mk m.rows m.cols)
    (List.flatMap_congr fun i hi => h i (List.mem_range.mp hi))

/-- The cell at a place, whichever row and column it is in. -/
theorem getElem?_cells_flat (m : RatMatrix) (place : Nat) :
    m.flat.cells[place]?
      = if place < m.rows * m.cols then
          some (m.entry (place / m.cols) (place % m.cols))
        else none := by
  have hsize : m.cells.size = m.rows * m.cols := m.size_cells
  show m.cells.toList[place]? = _
  rw [Array.getElem?_toList]
  split
  · have hc : 0 < m.cols :=
      Nat.pos_of_ne_zero fun h0 => by simp [h0] at *
    have hrow : place / m.cols < m.rows :=
      (Nat.div_lt_iff_lt_mul hc).mpr ‹_›
    rw [← get?_eq_some hrow (Nat.mod_lt place hc), get?,
      if_pos ⟨hrow, Nat.mod_lt place hc⟩, Nat.div_add_mod']
  · exact Array.getElem?_eq_none (by omega)

/-- **The cell in row `i` and column `j`** is at place `i * cols + j`. -/
theorem getElem?_cells_flat_place {j : Nat} (hj : j < m.cols) (i : Nat) :
    m.flat.cells[i * m.cols + j]? = m.get? i j := by
  rw [getElem?_cells_flat, place_div hj, place_mod hj]
  by_cases hi : i < m.rows
  · rw [if_pos (place_lt hi hj), get?_eq_some hi hj]
  · have hle : m.rows * m.cols ≤ i * m.cols :=
      Nat.mul_le_mul_right _ (Nat.not_lt.mp hi)
    rw [if_neg (by omega), get?, if_neg fun h => hi h.1]

theorem get_flat {i j : Nat} (hi : i < m.rows) (hj : j < m.cols) :
    m.flat.get i j = .ok (m.entry i j) := by
  unfold FlatMatrix.get
  rw [rows_flat, cols_flat, if_pos ⟨hi, hj⟩, getElem?_cells_flat_place hj,
    get?_eq_some hi hj]

theorem get_flat_of_le {i j : Nat} (h : m.rows ≤ i ∨ m.cols ≤ j) :
    m.flat.get i j = .error .outside :=
  if_neg fun hlt => h.elim (Nat.not_le.mpr hlt.1) (Nat.not_le.mpr hlt.2)

/-- A row is found between the places where it starts and ends. -/
theorem row_flat_eq_take {i : Nat} (hi : i < m.rows) :
    m.flat.row i = .ok ((m.flat.cells.drop (i * m.cols)).take m.cols) := by
  obtain ⟨hstart, hstop⟩ := wordPlace_eq_of_lt_rows hi
  have hslice : i * m.cols ≤ (i + 1) * m.cols
      ∧ (i + 1) * m.cols ≤ m.rows * m.cols :=
    ⟨Nat.mul_le_mul_right m.cols (Nat.le_succ i),
      Nat.mul_le_mul_right m.cols hi⟩
  rw [FlatMatrix.row, rows_flat, cols_flat, hstart, hstop, FlatMatrix.slice,
    length_cells_flat, if_pos hslice, Nat.succ_mul, Nat.add_sub_cancel_left]

theorem row_flat {i : Nat} (hi : i < m.rows) :
    m.flat.row i = .ok (m.row i) := by
  rw [row_flat_eq_take hi]
  refine congrArg Except.ok (List.ext_getElem? fun j => ?_)
  rw [List.getElem?_take, List.getElem?_drop]
  split
  · rw [getElem?_cells_flat_place ‹_›, get?_eq_some hi ‹_›, RatMatrix.row,
      List.getElem?_map, List.getElem?_range ‹_›]
    rfl
  · rw [List.getElem?_eq_none (by rw [length_row]; omega)]

/-- Writing a cell of the list is writing the cell of the matrix. -/
theorem cells_flat_set {i j : Nat} (hi : i < m.rows) (hj : j < m.cols)
    (value : Rat) :
    (m.set i j value).flat.cells
      = m.flat.cells.set (i * m.cols + j) value := by
  refine List.ext_getElem? fun place => ?_
  rw [List.getElem?_set, getElem?_cells_flat, getElem?_cells_flat,
    length_cells_flat, if_pos (place_lt hi hj), entry_set hi hj]
  by_cases hplace : i * m.cols + j = place
  · rw [if_pos hplace, ← hplace]
    exact (if_pos (place_lt hi hj)).trans
      (congrArg some (if_pos ⟨place_div hj, place_mod hj⟩))
  · rw [if_neg hplace]
    exact if_congr Iff.rfl
      (congrArg some (if_neg fun h => hplace ((place_eq_iff hj).mpr h))) rfl

theorem set_flat (m : RatMatrix) (i j : Nat) (value : Rat) :
    m.flat.set i j value
      = if i < m.rows ∧ j < m.cols then .ok (m.set i j value).flat
        else .error .outside := by
  unfold FlatMatrix.set
  rw [rows_flat, cols_flat, length_cells_flat]
  by_cases h : i < m.rows ∧ j < m.cols
  · rw [if_pos h, if_pos ⟨h.1, h.2, place_lt h.1 h.2⟩,
      ← cells_flat_set h.1 h.2]
    rfl
  · rw [if_neg h, if_neg fun h' => h ⟨h'.1, h'.2.1⟩]

/-! ## Loops -/

/-- A loop over a list in which nothing fails. -/
theorem mapM_eq_ok {α β : Type} {l : List α} {f : α → Except FlatFailure β}
    {g : α → β} (h : ∀ x ∈ l, f x = .ok (g x)) :
    l.mapM f = .ok (l.map g) := by
  induction l with
  | nil => rfl
  | cons x l ih =>
    rw [List.mapM_cons, h x List.mem_cons_self,
      ih fun y hy => h y (List.mem_cons_of_mem x hy)]
    rfl

/-- A loop with a running value in which nothing fails. -/
theorem foldlM_eq_ok {α β : Type} {l : List α}
    {f : β → α → Except FlatFailure β} {g : β → α → β}
    (h : ∀ acc, ∀ x ∈ l, f acc x = .ok (g acc x)) (start : β) :
    l.foldlM f start = .ok (l.foldl g start) := by
  induction l generalizing start with
  | nil => rfl
  | cons x l ih =>
    rw [List.foldlM_cons, h start x List.mem_cons_self]
    exact ih (fun acc y hy => h acc y (List.mem_cons_of_mem x hy)) _

/-- **A loop that writes cells** of the matrix makes the matrix in which these
cells have their new values. -/
theorem foldlM_set_flat {β : Type} (m : RatMatrix) {items : List β}
    (place : β → Nat × Nat) (value : Nat → Nat → Rat)
    {step : FlatMatrix → β → Except FlatFailure FlatMatrix}
    (hplace : ∀ b ∈ items, (place b).1 < m.rows ∧ (place b).2 < m.cols)
    (hstep : ∀ b ∈ items, ∀ out, step out b
      = out.set (place b).1 (place b).2 (value (place b).1 (place b).2)) :
    items.foldlM step m.flat
      = .ok (ofFn m.rows m.cols fun i j =>
          if (i, j) ∈ items.map place then value i j else m.entry i j).flat := by
  induction items generalizing m with
  | nil =>
    have hnone : (fun i j => if (i, j) ∈ ([] : List β).map place
        then value i j else m.entry i j) = m.entry := by
      funext i j
      exact if_neg List.not_mem_nil
    rw [hnone, ofFn_entry]
    rfl
  | cons b items ih =>
    have hb := hplace b List.mem_cons_self
    rw [List.foldlM_cons, hstep b List.mem_cons_self, set_flat, if_pos hb]
    refine (ih (m.set _ _ _)
      (fun b hb => hplace b (List.mem_cons_of_mem _ hb))
      (fun b hb => hstep b (List.mem_cons_of_mem _ hb))).trans ?_
    refine congrArg (fun m' : RatMatrix => Except.ok m'.flat)
      (ofFn_congr fun i j _ _ => ?_)
    rw [List.map_cons, entry_set hb.1 hb.2]
    by_cases hlater : (i, j) ∈ items.map place
    · rw [if_pos hlater, if_pos (List.mem_cons_of_mem _ hlater)]
    · rw [if_neg hlater]
      by_cases hnow : (i, j) = place b
      · rw [if_pos (List.mem_cons.mpr (.inl hnow)), ← hnow, if_pos ⟨rfl, rfl⟩]
      · rw [if_neg fun h => hnow (Prod.ext h.1 h.2),
          if_neg fun h => (List.mem_cons.mp h).elim hnow hlater]

/-- **A loop that writes every cell** makes the matrix of the values. -/
theorem foldlM_fill {β : Type} (m : RatMatrix) {items : List β}
    (place : β → Nat × Nat) (value : Nat → Nat → Rat)
    {step : FlatMatrix → β → Except FlatFailure FlatMatrix}
    (hplace : ∀ i j, (i, j) ∈ items.map place ↔ i < m.rows ∧ j < m.cols)
    (hstep : ∀ b ∈ items, ∀ out, step out b
      = out.set (place b).1 (place b).2 (value (place b).1 (place b).2)) :
    items.foldlM step m.flat = .ok (ofFn m.rows m.cols value).flat := by
  rw [foldlM_set_flat m place value
    (fun b hb => (hplace _ _).mp (List.mem_map_of_mem hb)) hstep]
  exact congrArg (fun m' : RatMatrix => Except.ok m'.flat)
    (ofFn_congr fun i j hi hj => if_pos ((hplace i j).mpr ⟨hi, hj⟩))

/-! ## Building -/

theorem zeros_flat (r c : Nat) : FlatMatrix.zeros r c = (zeros r c).flat := by
  refine congrArg (FlatMatrix.mk r c) (Eq.symm ?_)
  rw [show (zeros r c).cells.toList = (zeros r c).flat.cells from rfl]
  refine List.eq_replicate_iff.mpr ⟨length_cells_flat _, fun value h => ?_⟩
  rw [zeros, flat_ofFn] at h
  obtain ⟨i, _, h⟩ := List.mem_flatMap.mp h
  obtain ⟨j, _, rfl⟩ := List.mem_map.mp h
  rfl

theorem identity_flat (n : Nat) :
    FlatMatrix.identity n = .ok (identity n).flat := by
  unfold FlatMatrix.identity
  rw [zeros_flat]
  have hplace : ∀ i ∈ List.range n,
      i < (zeros n n).rows ∧ i < (zeros n n).cols := fun i hi =>
    ⟨List.mem_range.mp hi, List.mem_range.mp hi⟩
  refine (foldlM_set_flat (zeros n n) (fun i => (i, i)) (fun _ _ => 1) hplace
    fun _ _ _ => rfl).trans ?_
  refine congrArg (fun m' : RatMatrix => Except.ok m'.flat)
    (ofFn_congr fun i j hi hj => ?_)
  refine if_congr ?_ rfl (entry_ofFn_of_lt _ hi hj)
  rw [List.mem_map]
  constructor
  · rintro ⟨k, _, hk⟩
    obtain ⟨rfl, rfl⟩ := Prod.mk.inj hk
    rfl
  · rintro rfl
    exact ⟨i, List.mem_range.mpr hi, rfl⟩

/-- A row without its indices is the row given by them. -/
theorem map_getD_range {α : Type} (l : List α) (d : α) :
    (List.range l.length).map (l.getD · d) = l := by
  refine List.ext_getElem (by simp) fun i _ h => ?_
  simp [h]

/-- A table without its indices is the table given by them. -/
theorem map_getD_getD_range {rows : List (List Rat)} {cols : Nat}
    (hwidth : ∀ row ∈ rows, row.length = cols) :
    ((List.range rows.length).map fun i =>
      (List.range cols).map fun j => (rows.getD i []).getD j 0) = rows := by
  refine (List.map_congr_left fun i hi => ?_).trans (map_getD_range rows [])
  have hi' : i < rows.length := List.mem_range.mp hi
  have hrow : (rows.getD i []).length = cols := by
    rw [List.getD_eq_getElem _ _ hi']
    exact hwidth _ (List.getElem_mem hi')
  rw [← hrow, map_getD_range]

theorem ofRows_flat (rows : List (List Rat)) :
    FlatMatrix.ofRows rows
      = ((ofRows rows).mapError .refused).map flat := by
  cases rows with
  | nil => rfl
  | cons first rest =>
    unfold FlatMatrix.ofRows RatMatrix.ofRows
    simp only
    split
    · rfl
    · cases hragged : (first :: rest).findIdx?
        fun row => row.length ≠ first.length with
      | some index => rfl
      | none =>
        have hwidth : ∀ row ∈ first :: rest, row.length = first.length := by
          intro row hrow
          have h := List.findIdx?_eq_none_iff.mp hragged row hrow
          exact not_not.mp (of_decide_eq_false h)
        refine congrArg Except.ok ?_
        rw [flat_ofFn, List.flatMap_def, map_getD_getD_range hwidth]

theorem ofIntegers_flat (rows : List (List Int)) :
    FlatMatrix.ofIntegers rows
      = ((ofIntegers rows).mapError .refused).map flat :=
  ofRows_flat _

theorem parse_flat (grid : List (List String)) :
    FlatMatrix.parse grid = ((parse grid).mapError .refused).map flat := by
  unfold FlatMatrix.parse RatMatrix.parse
  cases grid.mapM parseVector with
  | error e => rfl
  | ok rows => exact ofRows_flat rows

/-! ## Algebra -/

theorem transpose_flat (m : RatMatrix) :
    m.flat.transpose = .ok m.transpose.flat := by
  unfold FlatMatrix.transpose
  rw [cols_flat, rows_flat, zeros_flat]
  refine foldlM_fill (zeros m.cols m.rows) (fun p => (p.2, p.1))
    (fun i j => m.entry j i) (fun i j => ?_) fun p hp out => ?_
  · show _ ↔ i < m.cols ∧ j < m.rows
    rw [List.mem_map]
    constructor
    · rintro ⟨⟨i', j'⟩, hp, heq⟩
      obtain ⟨rfl, rfl⟩ := Prod.mk.inj heq
      obtain ⟨hj, hi⟩ := mem_places.mp hp
      exact ⟨List.mem_range.mp hi, List.mem_range.mp hj⟩
    · rintro ⟨hi, hj⟩
      exact ⟨(j, i), mem_places.mpr
        ⟨List.mem_range.mpr hj, List.mem_range.mpr hi⟩, rfl⟩
  · obtain ⟨hi, hj⟩ := mem_places.mp hp
    show (do out.set p.2 p.1 (← m.flat.get p.1 p.2)) = _
    rw [get_flat (List.mem_range.mp hi) (List.mem_range.mp hj)]
    rfl

theorem scale_flat (m : RatMatrix) (factor : Rat) :
    m.flat.scale factor = (m.scale factor).flat := by
  unfold FlatMatrix.scale RatMatrix.scale
  rw [flat_ofFn, flat_eq]
  refine congrArg (FlatMatrix.mk m.rows m.cols) ?_
  rw [List.map_flatMap]
  refine List.flatMap_congr fun i _ => ?_
  rw [RatMatrix.row, List.map_map]
  rfl

/-- The running sum of a row against a column. -/
theorem dot_flat {a b : RatMatrix} (h : a.cols = b.rows) {i j : Nat}
    (hi : i < a.rows) (hj : j < b.cols) :
    a.flat.dot b.flat i j
      = .ok (sumRange a.cols fun k => a.entry i k * b.entry k j) := by
  refine foldlM_eq_ok (fun sum k hk => ?_) 0
  have hk' : k < a.cols := List.mem_range.mp hk
  rw [get_flat hi hk', get_flat (h ▸ hk') hj]
  rfl

theorem product_flat (a b : RatMatrix) :
    a.flat.product b.flat = ((a.product b).mapError .refused).map flat := by
  unfold FlatMatrix.product RatMatrix.product
  rw [cols_flat, rows_flat, rows_flat, cols_flat]
  by_cases h : a.cols = b.rows
  · rw [if_pos h, if_pos h, zeros_flat]
    refine foldlM_fill (zeros a.rows b.cols) (fun p => p)
      (fun i j => sumRange a.cols fun k => a.entry i k * b.entry k j)
      (fun i j => ?_) fun p hp out => ?_
    · rw [List.map_id', mem_places, List.mem_range, List.mem_range]
      rfl
    · obtain ⟨hi, hj⟩ := mem_places.mp hp
      show (do out.set p.1 p.2 (← a.flat.dot b.flat p.1 p.2)) = _
      rw [dot_flat h (List.mem_range.mp hi) (List.mem_range.mp hj)]
      rfl
  · rw [if_neg h, if_neg h]
    rfl

/-- The running sum of a row against a vector. -/
theorem foldl_zip_row (m : RatMatrix) {v : List Rat} (h : v.length = m.cols)
    (i : Nat) :
    ((m.row i).zip v).foldl (fun sum (a, b) => sum + a * b) 0
      = sumRange m.cols fun j => m.entry i j * v.getD j 0 := by
  rw [RatMatrix.row, ← map_getD_range v 0, h, List.zip_map', List.foldl_map,
    sumRange, ← h, map_getD_range]

theorem mulVector_flat (m : RatMatrix) (v : List Rat) :
    m.flat.mulVector v = (m.mulVector v).mapError .refused := by
  unfold FlatMatrix.mulVector RatMatrix.mulVector
  rw [cols_flat, rows_flat]
  by_cases h : v.length = m.cols
  · rw [if_pos h, if_pos h]
    refine mapM_eq_ok fun i hi => ?_
    rw [row_flat (List.mem_range.mp hi)]
    exact congrArg Except.ok (foldl_zip_row m h i)
  · rw [if_neg h, if_neg h]
    rfl

/-! ## Side by side -/

theorem row_beside {a b : RatMatrix} (h : b.rows = a.rows) (i : Nat) :
    (a.beside b).row i = a.row i ++ b.row i := by
  unfold RatMatrix.row
  rw [cols_beside, List.range_add, List.map_append, List.map_map]
  refine congrArg₂ _ (List.map_congr_left fun j hj => ?_)
    (List.map_congr_left fun j _ => ?_)
  · rw [entry_beside h, if_pos (List.mem_range.mp hj)]
  · rw [Function.comp_apply, entry_beside h, if_neg (by omega),
      Nat.add_sub_cancel_left]

theorem row_besideColumn {a : RatMatrix} {i : Nat} (hi : i < a.rows)
    (v : List Rat) :
    (a.besideColumn v).row i = a.row i ++ [v.getD i 0] := by
  unfold RatMatrix.row
  rw [cols_besideColumn, List.range_succ, List.map_append]
  refine congrArg₂ _ (List.map_congr_left fun j hj => ?_) ?_
  · have hj' : j < a.cols := List.mem_range.mp hj
    rw [entry_besideColumn hi (Nat.le_of_lt hj'), if_pos hj']
  · rw [List.map_singleton, entry_besideColumn hi (Nat.le_refl _),
      if_neg (Nat.lt_irrefl _)]

theorem row_leftColumns {k : Nat} (hk : k ≤ m.cols) (i : Nat) :
    (m.leftColumns k).row i = (m.row i).take k := by
  unfold RatMatrix.row
  rw [cols_leftColumns, ← List.map_take, List.take_range,
    Nat.min_eq_left hk]
  refine List.map_congr_left fun j hj => ?_
  rw [entry_leftColumns_of_lt m (List.mem_range.mp hj)]

theorem row_rightColumns {i : Nat} (hi : i < m.rows) (k : Nat) :
    (m.rightColumns k).row i = (m.row i).drop k := by
  unfold RatMatrix.row
  refine List.ext_getElem (by simp [rightColumns]) fun j hj _ => ?_
  have hj' : j < m.cols - k := by simpa [rightColumns] using hj
  rw [List.getElem_drop, List.getElem_map, List.getElem_map,
    List.getElem_range, List.getElem_range, rightColumns,
    entry_ofFn_of_lt _ hi hj']

theorem augment_flat (a b : RatMatrix) :
    a.flat.augment b.flat = ((a.augment b).mapError .refused).map flat := by
  unfold FlatMatrix.augment RatMatrix.augment
  rw [rows_flat, rows_flat]
  by_cases h : b.rows = a.rows
  · rw [if_pos h, if_pos h, mapM_eq_ok (g := fun i => a.row i ++ b.row i)]
    · refine congrArg Except.ok (Eq.trans ?_
        (flat_eq_of_row fun i _ => row_beside h i).symm)
      rw [List.flatMap_def]
      rfl
    · intro i hi
      have hi' : i < a.rows := List.mem_range.mp hi
      rw [row_flat hi', row_flat (h.symm ▸ hi')]
      rfl
  · rw [if_neg h, if_neg h]
    rfl

/-- The entries of a vector with their indices. -/
theorem zipIdx_eq (v : List Rat) :
    v.zipIdx = (List.range v.length).map fun i => (v.getD i 0, i) := by
  refine List.ext_getElem (by simp) fun i h _ => ?_
  have hi : i < v.length := by simpa using h
  simp [hi]

theorem augmentColumn_flat (a : RatMatrix) (b : List Rat) :
    a.flat.augmentColumn b
      = ((a.augmentColumn b).mapError .refused).map flat := by
  unfold FlatMatrix.augmentColumn RatMatrix.augmentColumn
  rw [rows_flat]
  by_cases h : b.length = a.rows
  · rw [if_pos h, if_pos h, zipIdx_eq, h, List.mapM_map,
      mapM_eq_ok (g := fun i => a.row i ++ [b.getD i 0])]
    · refine congrArg Except.ok (Eq.trans ?_
        (flat_eq_of_row (m := a.besideColumn b) fun i hi =>
          row_besideColumn (a := a) hi b).symm)
      rw [List.flatMap_def]
      rfl
    · intro i hi
      have hi' : i < a.rows := List.mem_range.mp hi
      show (do return (← a.flat.row i) ++ [b.getD i 0]) = _
      rw [row_flat hi']
      rfl
  · rw [if_neg h, if_neg h]
    rfl

theorem splitColumns_flat (m : RatMatrix) (position : Nat) :
    m.flat.splitColumns position
      = ((m.splitColumns position).mapError .refused).map
          fun parts => (parts.1.flat, parts.2.flat) := by
  unfold FlatMatrix.splitColumns RatMatrix.splitColumns
  rw [cols_flat, rows_flat]
  by_cases h : position = 0 ∨ m.cols ≤ position
  · rw [if_pos h, if_pos h]
    rfl
  · have hle : position ≤ m.cols := by omega
    rw [if_neg h, if_neg h,
      mapM_eq_ok fun i hi => row_flat (List.mem_range.mp hi)]
    refine congrArg Except.ok ?_
    rw [List.flatMap_map, List.flatMap_map]
    exact Prod.ext
      (flat_eq_of_row fun i _ => row_leftColumns hle i).symm
      (flat_eq_of_row (m := m.rightColumns position) fun i hi =>
        row_rightColumns (m := m) hi position).symm

theorem withColumn_flat (m : RatMatrix) (j : Nat) (values : List Rat) :
    m.flat.withColumn j values
      = ((m.withColumn j values).mapError .refused).map flat := by
  unfold FlatMatrix.withColumn RatMatrix.withColumn
  rw [cols_flat, rows_flat]
  by_cases h : m.cols ≤ j ∨ values.length ≠ m.rows
  · rw [if_pos h, if_pos h]
    rfl
  · have hj : j < m.cols := by omega
    have hlength : values.length = m.rows := by omega
    rw [if_neg h, if_neg h, zipIdx_eq, List.foldlM_map]
    refine (foldlM_set_flat m (fun i => (i, j)) (fun i _ => values.getD i 0)
      (fun i hi => ⟨hlength ▸ List.mem_range.mp hi, hj⟩)
      fun _ _ _ => rfl).trans ?_
    refine congrArg (fun m' : RatMatrix => Except.ok m'.flat)
      (ofFn_congr fun r c hr _ => ?_)
    refine if_congr ?_ rfl rfl
    rw [List.mem_map]
    constructor
    · rintro ⟨i, _, hi⟩
      exact (Prod.mk.inj hi).2.symm
    · rintro rfl
      exact ⟨r, List.mem_range.mpr (hlength ▸ hr), rfl⟩

/-- The cells of a column are found one by one. In a matrix without rows there
is none to look for. -/
theorem column_flat (m : RatMatrix) (j : Nat) :
    m.flat.column j = (m.column? j).elim (.error .outside) .ok := by
  unfold FlatMatrix.column column?
  rw [rows_flat]
  split
  · refine mapM_eq_ok fun i hi => ?_
    have hi' : i < m.rows := List.mem_range.mp hi
    exact get_flat hi' (by omega)
  · obtain ⟨k, hk⟩ : ∃ k, m.rows = k + 1 :=
      Nat.exists_eq_succ_of_ne_zero (by omega)
    rw [hk, List.range_succ_eq_map, List.mapM_cons,
      get_flat_of_le (.inr (by omega))]
    rfl

/-! ## Minors -/

/-- The indices other than `i` are the indices that a minor looks up. -/
theorem filter_ne_range {n i : Nat} (hi : i < n) :
    (List.range n).filter (· ≠ i) = (List.range (n - 1)).map (skip i) := by
  refine List.SortedLT.eq_of_mem_iff
    ((List.pairwise_lt_range.filter _).sortedLT)
    (((List.pairwise_lt_range).map _ fun a b hab => ?_).sortedLT) fun k => ?_
  · unfold skip
    split <;> split <;> omega
  · simp only [List.mem_filter, List.mem_range, decide_eq_true_eq,
      List.mem_map]
    constructor
    · rintro ⟨hk, hne⟩
      rcases Nat.lt_or_gt_of_ne hne with hlt | hgt
      · exact ⟨k, by omega, if_pos hlt⟩
      · refine ⟨k - 1, by omega, ?_⟩
        rw [skip, if_neg (by omega)]
        omega
    · rintro ⟨k', hk', rfl⟩
      unfold skip
      split <;> omega

theorem minor_flat (m : RatMatrix) (i j : Nat) :
    m.flat.minor i j
      = (m.minor? i j).elim (.error .outside) fun minor => .ok minor.flat := by
  unfold FlatMatrix.minor minor?
  rw [cols_flat, rows_flat]
  by_cases h : 2 ≤ m.rows ∧ 2 ≤ m.cols ∧ i < m.rows ∧ j < m.cols
  · have hi : i < m.rows := h.2.2.1
    have hj : j < m.cols := h.2.2.2
    rw [if_pos h, if_pos h,
      mapM_eq_ok (g := fun p => m.entry p.1 p.2) fun p hp => ?_]
    · show Except.ok _ = Except.ok _
      rw [map_places, filter_ne_range hi, filter_ne_range hj, minor, flat_ofFn,
        List.flatMap_map]
      simp only [List.map_map]
      rfl
    · obtain ⟨hr, hc⟩ := mem_places.mp hp
      exact get_flat (List.mem_range.mp (List.mem_of_mem_filter hr))
        (List.mem_range.mp (List.mem_of_mem_filter hc))
  · rw [if_neg h, if_neg h]
    rfl

/-! ## Edits of rows -/

/-- Two matrices of one size. -/
def SameSize (m m' : RatMatrix) : Prop :=
  m'.rows = m.rows ∧ m'.cols = m.cols

/-- **Two loops over the cells of a matrix** that do the same in each pass do
the same. What carries the induction is that the size stays. -/
theorem foldlM_edit_flat {step : RatMatrix → Nat → Edited}
    {flatStep : FlatMatrix → Nat → Except FlatMatrix FlatMatrix}
    {columns : List Nat}
    (hsize : ∀ m' m'' j, step m' j = .ok m'' → SameSize m' m'')
    (hstep : ∀ m', SameSize m m' → ∀ j ∈ columns,
      flatStep m'.flat j = (step m' j).flat) :
    columns.foldlM flatStep m.flat
      = Edited.flat (columns.foldlM step m) := by
  induction columns generalizing m with
  | nil => rfl
  | cons j columns ih =>
    rw [List.foldlM_cons, List.foldlM_cons,
      hstep m ⟨rfl, rfl⟩ j List.mem_cons_self]
    cases hj : step m j with
    | error left => rfl
    | ok m' =>
      obtain ⟨hr, hc⟩ := hsize m m' j hj
      exact ih fun m'' hm'' j' hj' => hstep m''
        ⟨hm''.1.trans hr, hm''.2.trans hc⟩ j' (List.mem_cons_of_mem j hj')

/-- An edit of cells keeps the size. -/
theorem sameSize_of_swapPlaces {m' : RatMatrix} {p q : Nat}
    (h : m.swapPlaces p q = .ok m') : SameSize m m' := by
  unfold RatMatrix.swapPlaces at h
  split at h
  · cases h
    exact ⟨rfl, rfl⟩
  · cases h

theorem swapPlaces_flat (m : RatMatrix) (p q : Nat) :
    m.flat.swapPlaces p q = (m.swapPlaces p q).flat := by
  have hcells : ∀ place, m.flat.cells[place]? = m.cells[place]? :=
    fun place => Array.getElem?_toList
  unfold FlatMatrix.swapPlaces RatMatrix.swapPlaces
  rw [hcells, hcells]
  cases m.cells[p]? with
  | none => rfl
  | some atP =>
    cases m.cells[q]? with
    | none => rfl
    | some atQ =>
      have hset : ((m.cells.setIfInBounds p atQ).setIfInBounds q atP).toList
          = (m.cells.toList.set p atQ).set q atP := by
        rw [Array.toList_setIfInBounds, Array.toList_setIfInBounds]
      exact congrArg Except.ok
        (congrArg (FlatMatrix.mk m.rows m.cols) hset.symm)

theorem swapRows_flat (m : RatMatrix) (a b : Nat) :
    m.flat.swapRows a b = (m.swapRowsInPlace a b).flat := by
  unfold FlatMatrix.swapRows swapRowsInPlace
  by_cases hab : a = b
  · rw [if_pos hab, if_pos hab]
    rfl
  · rw [if_neg hab, if_neg hab]
    exact foldlM_edit_flat (fun _ _ _ h => sameSize_of_swapPlaces h)
      fun m' _ j _ => m'.swapPlaces_flat _ _

theorem scaleRow_flat (m : RatMatrix) (i : Nat) (factor : Rat) :
    m.flat.scaleRow i factor = (m.scaleRowInPlace i factor).flat := by
  unfold FlatMatrix.scaleRow scaleRowInPlace FlatMatrix.scaleSlice
    RatMatrix.scaleSlice
  rw [rows_flat, cols_flat, length_cells_flat, m.size_cells]
  split
  · exact congrArg Except.ok (congrArg (FlatMatrix.mk m.rows m.cols)
      Array.toList_mapIdx.symm)
  · rfl

theorem sameSize_of_subtractCell {m' : RatMatrix} {target source : Nat}
    {factor : Rat} {j : Nat}
    (h : m.subtractCell target source factor j = .ok m') : SameSize m m' := by
  unfold RatMatrix.subtractCell setCell at h
  split at h
  · split at h
    · cases h
      exact ⟨rfl, rfl⟩
    · cases h
  · cases h

theorem subtractCell_flat {j : Nat} (hj : j < m.cols) (target source : Nat)
    (factor : Rat) :
    m.flat.subtractCell target source factor j
      = (m.subtractCell target source factor j).flat := by
  unfold FlatMatrix.subtractCell RatMatrix.subtractCell
  rcases Nat.lt_or_ge source m.rows with hs | hs
  · rw [get_flat hs hj, get?_eq_some hs hj]
    rcases Nat.lt_or_ge target m.rows with ht | ht
    · rw [get_flat ht hj, get?_eq_some ht hj]
      show (m.flat.set target j _).mapError _
        = Edited.flat (m.setCell target j _)
      rw [set_flat, setCell, if_pos ⟨ht, hj⟩, if_pos ⟨ht, hj⟩]
      rfl
    · rw [get_flat_of_le (.inl ht), get?_eq_none (.inl ht)]
      rfl
  · rw [get_flat_of_le (.inl hs), get?_eq_none (.inl hs)]
    rfl

theorem subtractScaledRow_flat (m : RatMatrix) (target source : Nat)
    (factor : Rat) :
    m.flat.subtractScaledRow target source factor
      = (m.subtractScaledRowInPlace target source factor).flat := by
  refine foldlM_edit_flat (fun _ _ _ h => sameSize_of_subtractCell h)
    fun m' hm' j hj => ?_
  exact subtractCell_flat (hm'.2 ▸ List.mem_range.mp hj) target source factor

end RatMatrix

end Stepwise
