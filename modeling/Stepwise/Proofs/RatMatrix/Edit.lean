import Stepwise.Proofs.RatMatrix.RowOp
import Stepwise.RatMatrix.Edit

/-!
# Edits of rows

A row operation does the same to every column, and an edit of rows does it to
one column after the other, looking at no other column than the one it is in. In
range no cell is missing, so one column is always done
(`RatMatrix.exists_swapPlaces`, `RatMatrix.exists_subtractCell`), and the edit
completes and makes what the row operation makes
(`RatMatrix.swapRowsInPlace_eq_ok`, `RatMatrix.scaleRowInPlace_eq_ok`,
`RatMatrix.subtractScaledRowInPlace_eq_ok`).

A row that is missing is missing in the first column already. So an edit that
stops has not written anything, and where there is no column it has nothing to
look for (`RatMatrix.swapRowsInPlace_eq`, `RatMatrix.scaleRowInPlace_eq`,
`RatMatrix.subtractScaledRowInPlace_eq`).
-/

namespace Stepwise.RatMatrix

variable {m : RatMatrix}

/-! ## One column -/

/-- Writing a cell changes this cell only. -/
theorem entry_set {i j : Nat} (hi : i < m.rows) (hj : j < m.cols)
    (value : Rat) (r c : Nat) :
    (m.set i j value).entry r c
      = if r = i ∧ c = j then value else m.entry r c := by
  refine entry_ofFn_of_zero (fun r c h => ?_) r c
  rw [if_neg, entry_eq_zero h]
  rintro ⟨rfl, rfl⟩
  exact h ⟨hi, hj⟩

/-- **A matrix with one column edited** as a row operation changes it. -/
structure EditsColumn (op : RowOp) (j : Nat) (m m' : RatMatrix) : Prop where
  rows_eq : m'.rows = m.rows
  cols_eq : m'.cols = m.cols
  here : ∀ i, i < m.rows →
    m'.entry i j = op.onColumn (fun r => m.entry r j) i
  elsewhere : ∀ i c, c ≠ j → m'.entry i c = m.entry i c

/-- The place of a cell that is in the matrix. -/
theorem wordPlace_eq_of_mem {i j : Nat} (hi : i < m.rows) (hj : j < m.cols) :
    wordPlace m.rows m.cols i j = i * m.cols + j :=
  wordPlace_eq (Nat.le_of_lt (place_lt hi hj))

theorem getElem?_place {i j : Nat} (hi : i < m.rows) (hj : j < m.cols) :
    m.cells[i * m.cols + j]? = some (m.entry i j) :=
  (if_pos ⟨hi, hj⟩).symm.trans (get?_eq_some hi hj)

theorem entry_eq_getElem? {i j : Nat} (hi : i < m.rows) (hj : j < m.cols) :
    m.entry i j = (m.cells[i * m.cols + j]?).getD 0 := by
  rw [getElem?_place hi hj, Option.getD_some]

theorem place_inj {c i j i' j' : Nat} (hj : j < c) (hj' : j' < c) :
    i * c + j = i' * c + j' ↔ i' = i ∧ j' = j := by
  constructor
  · intro h
    have hrow := place_div (i := i) hj
    have hcol := place_mod (i := i) hj
    rw [h, place_div hj'] at hrow
    rw [h, place_mod hj'] at hcol
    exact ⟨hrow, hcol⟩
  · rintro ⟨rfl, rfl⟩
    rfl

/-- What stands at a place of the matrix after a cell of it was written. -/
theorem getElem?_setIfInBounds_place {cells : Array Rat} {i j r c : Nat}
    (hplace : i * m.cols + j < cells.size) (hj : j < m.cols) (hc : c < m.cols)
    (value : Rat) :
    (cells.setIfInBounds (i * m.cols + j) value)[r * m.cols + c]?
      = if r = i ∧ c = j then some value else cells[r * m.cols + c]? := by
  rw [Array.getElem?_setIfInBounds, if_pos hplace]
  exact if_congr (place_inj hj hc) rfl rfl

/-- The cells of a column in two rows are exchanged. -/
theorem exists_swapPlaces {a b j : Nat} (ha : a < m.rows) (hb : b < m.rows)
    (hj : j < m.cols) :
    ∃ m', m.swapPlaces (wordPlace m.rows m.cols a j)
        (wordPlace m.rows m.cols b j) = .ok m'
      ∧ EditsColumn (.swap a b) j m m' := by
  have hp : a * m.cols + j < m.cells.size := m.size_cells ▸ place_lt ha hj
  have hq : b * m.cols + j < m.cells.size := m.size_cells ▸ place_lt hb hj
  rw [wordPlace_eq_of_mem ha hj, wordPlace_eq_of_mem hb hj, swapPlaces,
    getElem?_place ha hj, getElem?_place hb hj]
  refine ⟨_, rfl, ?_⟩
  generalize hm' : RatMatrix.mk m.rows m.cols _ _ = m'
  have hr : m'.rows = m.rows := hm' ▸ rfl
  have hc : m'.cols = m.cols := hm' ▸ rfl
  -- the cell in row `b` is written last
  have hentry : ∀ {i c}, i < m.rows → c < m.cols → m'.entry i c
      = if i = b ∧ c = j then m.entry a j
        else if i = a ∧ c = j then m.entry b j else m.entry i c := by
    intro i c hi hlt
    rw [entry_eq_getElem? (hr ▸ hi) (hc ▸ hlt), hc, ← hm',
      getElem?_setIfInBounds_place
        (hq.trans_eq Array.size_setIfInBounds.symm) hj hlt,
      getElem?_setIfInBounds_place hp hj hlt, getElem?_place hi hlt]
    split
    · rfl
    · split <;> rfl
  refine ⟨hr, hc, fun i hi => ?_, fun i c hne => ?_⟩
  · rw [hentry hi hj, RowOp.onColumn_swap, Equiv.swap_apply_def]
    simp only [and_true]
    by_cases hia : i = a
    · rw [if_pos hia, if_pos hia]
      split
      · rw [← ‹i = b›, hia]
      · rfl
    · rw [if_neg hia, if_neg hia]
      split <;> rfl
  · by_cases hin : i < m.rows ∧ c < m.cols
    · rw [hentry hin.1 hin.2, if_neg fun h => hne h.2, if_neg fun h => hne h.2]
    · rw [entry_eq_zero hin, entry_eq_zero (hr ▸ hc ▸ hin)]

/-- The multiple of a cell is subtracted from another one of its column. -/
theorem exists_subtractCell {target source j : Nat} (ht : target < m.rows)
    (hs : source < m.rows) (hj : j < m.cols) (factor : Rat) :
    ∃ m', m.subtractCell target source factor j = .ok m'
      ∧ EditsColumn (.subtract target source factor) j m m' := by
  refine ⟨m.set target j (m.entry target j - m.entry source j * factor), ?_,
    rfl, rfl, fun i _ => ?_, fun i c hc => ?_⟩
  · rw [subtractCell, get?_eq_some ht hj, get?_eq_some hs hj]
    exact if_pos ⟨ht, hj⟩
  · rw [entry_set ht hj, RowOp.onColumn_subtract]
    simp only [and_true]
    split
    · rw [‹i = target›]
    · rfl
  · rw [entry_set ht hj, if_neg fun h => hc h.2]

/-! ## Column by column -/

/-- **An edit that does one column after the other** makes what the row
operation makes. What carries the induction is that the columns to come are
still those of the first matrix. -/
theorem foldlM_columns_eq_ok (op : RowOp) {step : RatMatrix → Nat → Edited}
    (hstep : ∀ m' j, m'.rows = m.rows → m'.cols = m.cols → j < m.cols →
      ∃ m'', step m' j = .ok m'' ∧ EditsColumn op j m' m'') :
    (List.range m.cols).foldlM step m = .ok (op.apply m) := by
  have hdone : ∀ k, k ≤ m.cols →
      ∃ m', (List.range k).foldlM step m = .ok m'
        ∧ m'.rows = m.rows ∧ m'.cols = m.cols
        ∧ (∀ i c, i < m.rows → c < k →
          m'.entry i c = op.onColumn (fun r => m.entry r c) i)
        ∧ ∀ i c, k ≤ c → m'.entry i c = m.entry i c := by
    intro k hk
    induction k with
    | zero =>
      exact ⟨m, rfl, rfl, rfl, fun _ _ _ hc => absurd hc (Nat.not_lt_zero _),
        fun _ _ _ => rfl⟩
    | succ k ih =>
      obtain ⟨m', hok, hr, hc, hbefore, hafter⟩ := ih (Nat.le_of_succ_le hk)
      obtain ⟨m'', hok', hedit⟩ := hstep m' k hr hc hk
      have hcolumn : (fun r => m'.entry r k) = fun r => m.entry r k :=
        funext fun r => hafter r k (Nat.le_refl k)
      refine ⟨m'', ?_, hedit.rows_eq.trans hr, hedit.cols_eq.trans hc,
        fun i c hi hck => ?_, fun i c hkc => ?_⟩
      · rw [List.range_succ, List.foldlM_append, hok]
        show List.foldlM step m' [k] = _
        rw [List.foldlM_cons, hok']
        rfl
      · rcases Nat.lt_succ_iff_lt_or_eq.mp hck with hck | rfl
        · rw [hedit.elsewhere i c (Nat.ne_of_lt hck), hbefore i c hi hck]
        · rw [hedit.here i (hr ▸ hi), hcolumn]
      · rw [hedit.elsewhere i c (Nat.ne_of_gt hkc),
          hafter i c (Nat.le_of_succ_le hkc)]
  obtain ⟨m', hok, hr, hc, hall, _⟩ := hdone m.cols (Nat.le_refl _)
  rw [hok]
  refine congrArg Except.ok (ext_entry (by rw [hr, RowOp.rows_apply])
    (by rw [hc, RowOp.cols_apply]) fun i j hi hj => ?_)
  rw [hall i j (hr ▸ hi) (hc ▸ hj), RowOp.entry_apply op (hr ▸ hi)]

/-! ## The edits -/

/-- Exchanging a row with itself changes nothing. -/
theorem swapRows_self (m : RatMatrix) (a : Nat) : m.swapRows a a = m := by
  refine ext_entry rfl rfl fun i j hi _ => ?_
  have hi' : i < m.rows := hi
  rw [entry_swapRows hi', Equiv.swap_self, Equiv.refl_apply]

/-- **Rows in range are exchanged in place.** -/
theorem swapRowsInPlace_eq_ok {a b : Nat} (ha : a < m.rows)
    (hb : b < m.rows) : m.swapRowsInPlace a b = .ok (m.swapRows a b) := by
  unfold swapRowsInPlace
  split
  · rw [← ‹a = b›, swapRows_self]
  · refine foldlM_columns_eq_ok (.swap a b) fun m' _ hr hc hj => ?_
    rw [← hr, ← hc]
    exact exists_swapPlaces (hr ▸ ha) (hr ▸ hb) (hc ▸ hj)

/-- The slice of a row in range lies between the places where this row and the
next one start. -/
theorem wordPlace_eq_of_lt_rows {i : Nat} (hi : i < m.rows) :
    wordPlace m.rows m.cols i 0 = i * m.cols
      ∧ wordPlace m.rows m.cols (i + 1) 0 = (i + 1) * m.cols :=
  ⟨wordPlace_eq (Nat.mul_le_mul_right m.cols (Nat.le_of_lt hi)),
    wordPlace_eq (Nat.mul_le_mul_right m.cols hi)⟩

/-- A place is between the start and the end of a row when it is in the
row. -/
theorem place_div_eq_iff {c place i : Nat} (hc : 0 < c) :
    i * c ≤ place ∧ place < (i + 1) * c ↔ place / c = i := by
  rw [← Nat.le_div_iff_mul_le hc, ← Nat.div_lt_iff_lt_mul hc]
  omega

/-- **A row in range is multiplied in place.** -/
theorem scaleRowInPlace_eq_ok {i : Nat} (hi : i < m.rows) (factor : Rat) :
    m.scaleRowInPlace i factor = .ok (m.scaleRow i factor) := by
  obtain ⟨hstart, hstop⟩ := wordPlace_eq_of_lt_rows hi
  have hslice : i * m.cols ≤ (i + 1) * m.cols
      ∧ (i + 1) * m.cols ≤ m.cells.size :=
    ⟨Nat.mul_le_mul_right m.cols (Nat.le_succ i),
      m.size_cells ▸ Nat.mul_le_mul_right m.cols hi⟩
  rw [scaleRowInPlace, hstart, hstop, scaleSlice, if_pos hslice]
  refine congrArg Except.ok ?_
  generalize hm' : RatMatrix.mk m.rows m.cols _ _ = m'
  have hr : m'.rows = m.rows := hm' ▸ rfl
  have hc : m'.cols = m.cols := hm' ▸ rfl
  refine ext_entry hr hc fun r c hr' hc' => ?_
  have hlt : c < m.cols := hc ▸ hc'
  rw [entry_eq_getElem? hr' hc', hc, ← hm', entry_scaleRow,
    Array.getElem?_mapIdx, getElem?_place (hr ▸ hr') hlt, Option.map_some,
    Option.getD_some]
  refine if_congr ?_ rfl rfl
  rw [place_div_eq_iff (Nat.zero_lt_of_lt hlt), place_div hlt]

/-- **A multiple of a row in range is subtracted in place.** -/
theorem subtractScaledRowInPlace_eq_ok {target source : Nat}
    (ht : target < m.rows) (hs : source < m.rows) (factor : Rat) :
    m.subtractScaledRowInPlace target source factor
      = .ok (m.subtractScaledRow target source factor) :=
  foldlM_columns_eq_ok (.subtract target source factor) fun _ _ hr hc hj =>
    exists_subtractCell (hr ▸ ht) (hr ▸ hs) (hc ▸ hj) factor

/-! ## Outside the matrix -/

/-- An edit column by column that stops in the first column leaves the
matrix. -/
theorem foldlM_columns_eq_error {step : RatMatrix → Nat → Edited}
    (hc : 0 < m.cols) (hstop : step m 0 = .error m) :
    (List.range m.cols).foldlM step m = .error m := by
  obtain ⟨k, hk⟩ := Nat.exists_eq_succ_of_ne_zero (Nat.ne_of_gt hc)
  rw [hk, List.range_succ_eq_map, List.foldlM_cons, hstop]
  rfl

/-- A row operation has nothing to do in a matrix without columns. -/
theorem apply_eq_self (op : RowOp) (hc : m.cols = 0) : op.apply m = m :=
  ext_entry (RowOp.rows_apply op m) (RowOp.cols_apply op m) fun i j _ hj => by
    rw [RowOp.cols_apply, hc] at hj
    exact absurd hj (Nat.not_lt_zero j)

theorem get?_eq_none {i j : Nat} (h : m.rows ≤ i ∨ m.cols ≤ j) :
    m.get? i j = none :=
  if_neg (by omega)

theorem swapPlaces_eq_error {p q : Nat}
    (h : m.cells.size ≤ p ∨ m.cells.size ≤ q) : m.swapPlaces p q = .error m := by
  unfold swapPlaces
  rcases h with hp | hq
  · rw [Array.getElem?_eq_none hp]
  · rw [Array.getElem?_eq_none hq]
    cases m.cells[p]? <;> rfl

/-- **Rows whose places are not cut down**: the rows of the matrix, and those
that end before a word does. -/
def IsPlaced (rows cols i : Nat) : Prop :=
  i < rows ∨ (i + 1) * cols < wordSize

/-- The slice of such a row lies where it is expected. -/
theorem wordPlace_eq_of_isPlaced {i : Nat} (h : IsPlaced m.rows m.cols i) :
    wordPlace m.rows m.cols i 0 = i * m.cols
      ∧ wordPlace m.rows m.cols (i + 1) 0 = (i + 1) * m.cols := by
  rcases h with hi | hi
  · exact wordPlace_eq_of_lt_rows hi
  · exact ⟨wordPlace_eq_of_lt (Nat.lt_of_le_of_lt
      (Nat.mul_le_mul_right m.cols (Nat.le_succ i)) hi), wordPlace_eq_of_lt hi⟩

/-- The first place of such a row outside the matrix has no cell. -/
theorem size_cells_le_wordPlace {i : Nat} (h : IsPlaced m.rows m.cols i)
    (hi : m.rows ≤ i) : m.cells.size ≤ wordPlace m.rows m.cols i 0 := by
  rw [(wordPlace_eq_of_isPlaced h).1, m.size_cells]
  exact Nat.mul_le_mul_right m.cols hi

/-- **Exchanging rows stops at once or completes**, if the places of the rows are
not cut down. It stops when there are two rows to exchange, a column to do it in,
and one of the rows is missing. -/
theorem swapRowsInPlace_eq {a b : Nat} (ha : IsPlaced m.rows m.cols a)
    (hb : IsPlaced m.rows m.cols b) :
    m.swapRowsInPlace a b
      = if a ≠ b ∧ 0 < m.cols ∧ (m.rows ≤ a ∨ m.rows ≤ b) then .error m
        else .ok (m.swapRows a b) := by
  by_cases hrows : a < m.rows ∧ b < m.rows
  · rw [swapRowsInPlace_eq_ok hrows.1 hrows.2, if_neg (by omega)]
  by_cases hab : a = b
  · rw [if_neg fun h => h.1 hab, hab, swapRows_self]
    exact if_pos rfl
  rw [swapRowsInPlace, if_neg hab]
  by_cases hc : 0 < m.cols
  · have hmissing : m.rows ≤ a ∨ m.rows ≤ b := by omega
    rw [if_pos ⟨hab, hc, hmissing⟩]
    exact foldlM_columns_eq_error hc (swapPlaces_eq_error
      (hmissing.imp (size_cells_le_wordPlace ha) (size_cells_le_wordPlace hb)))
  · have hc0 : m.cols = 0 := Nat.eq_zero_of_not_pos hc
    rw [if_neg fun h => hc h.2.1, hc0]
    exact congrArg Except.ok (apply_eq_self (.swap a b) hc0).symm

/-- **Which exchanges complete**, whatever the rows: those that find a cell at
each of their places. -/
theorem exists_foldlM_swapPlaces_iff {columns : List Nat} (p q : Nat → Nat) :
    (∃ m', columns.foldlM (fun out j => out.swapPlaces (p j) (q j)) m = .ok m')
      ↔ ∀ j ∈ columns, p j < m.rows * m.cols ∧ q j < m.rows * m.cols := by
  induction columns generalizing m with
  | nil => exact ⟨fun _ => nofun, fun _ => ⟨m, rfl⟩⟩
  | cons j columns ih =>
    rw [List.foldlM_cons, List.forall_mem_cons, ← m.size_cells]
    by_cases h : p j < m.cells.size ∧ q j < m.cells.size
    · obtain ⟨m', hok, hr, hc⟩ : ∃ m', m.swapPlaces (p j) (q j) = .ok m'
          ∧ m'.rows = m.rows ∧ m'.cols = m.cols := by
        rw [swapPlaces, Array.getElem?_eq_getElem h.1,
          Array.getElem?_eq_getElem h.2]
        exact ⟨_, rfl, rfl, rfl⟩
      rw [hok, m.size_cells, ← hr, ← hc]
      exact ih.trans ⟨fun hrest => ⟨by rwa [hr, hc, ← m.size_cells], hrest⟩,
        fun hall => hall.2⟩
    · rw [swapPlaces_eq_error (by omega)]
      exact ⟨fun ⟨m', hok⟩ => (nomatch hok), fun hall => absurd hall.1 h⟩

theorem exists_swapRowsInPlace_iff {a b : Nat} :
    (∃ m', m.swapRowsInPlace a b = .ok m')
      ↔ a = b ∨ ∀ j < m.cols, wordPlace m.rows m.cols a j < m.rows * m.cols
        ∧ wordPlace m.rows m.cols b j < m.rows * m.cols := by
  unfold swapRowsInPlace
  by_cases hab : a = b
  · rw [if_pos hab]
    exact ⟨fun _ => .inl hab, fun _ => ⟨m, rfl⟩⟩
  · rw [if_neg hab, or_iff_right hab, exists_foldlM_swapPlaces_iff]
    simp only [List.mem_range]

/-- **Multiplying a row stops at once or completes**, whatever the row. -/
theorem scaleRowInPlace_eq_ite (m : RatMatrix) (i : Nat) (factor : Rat) :
    ∃ m', m.scaleRowInPlace i factor
      = if ¬(wordPlace m.rows m.cols i 0 ≤ wordPlace m.rows m.cols (i + 1) 0
          ∧ wordPlace m.rows m.cols (i + 1) 0 ≤ m.rows * m.cols) then .error m
        else .ok m' := by
  rw [scaleRowInPlace, scaleSlice, m.size_cells]
  exact ⟨_, (ite_not _ _ _).symm⟩

/-- It stops when a row is missing, if its places are not cut down. -/
theorem scaleRowInPlace_eq {i : Nat} (h : IsPlaced m.rows m.cols i)
    (factor : Rat) :
    m.scaleRowInPlace i factor
      = if 0 < m.cols ∧ m.rows ≤ i then .error m
        else .ok (m.scaleRow i factor) := by
  rcases Nat.lt_or_ge i m.rows with hi | hi
  · rw [scaleRowInPlace_eq_ok hi, if_neg (by omega)]
  obtain ⟨hstart, hstop⟩ := wordPlace_eq_of_isPlaced h
  rw [scaleRowInPlace, hstart, hstop, scaleSlice, m.size_cells]
  by_cases hc : 0 < m.cols
  · have hout : ¬(i * m.cols ≤ (i + 1) * m.cols
        ∧ (i + 1) * m.cols ≤ m.rows * m.cols) := by
      rw [Nat.mul_le_mul_right_iff hc, Nat.mul_le_mul_right_iff hc]
      omega
    rw [if_neg hout, if_pos ⟨hc, hi⟩]
  · have hc0 : m.cols = 0 := Nat.eq_zero_of_not_pos hc
    have hin : i * m.cols ≤ (i + 1) * m.cols
        ∧ (i + 1) * m.cols ≤ m.rows * m.cols := by
      rw [hc0]
      exact ⟨Nat.le_refl 0, Nat.le_refl 0⟩
    rw [if_pos hin, if_neg fun h => hc h.1]
    refine congrArg Except.ok (ext_entry rfl rfl fun _ j _ hj => ?_)
    exact absurd (hc0 ▸ hj) (Nat.not_lt_zero j)

/-- **Subtracting a row stops at once or completes.** -/
theorem subtractScaledRowInPlace_eq (m : RatMatrix) (target source : Nat)
    (factor : Rat) :
    m.subtractScaledRowInPlace target source factor
      = if 0 < m.cols ∧ (m.rows ≤ target ∨ m.rows ≤ source) then .error m
        else .ok (m.subtractScaledRow target source factor) := by
  by_cases hrows : target < m.rows ∧ source < m.rows
  · rw [subtractScaledRowInPlace_eq_ok hrows.1 hrows.2, if_neg (by omega)]
  rw [subtractScaledRowInPlace]
  by_cases hc : 0 < m.cols
  · rw [if_pos ⟨hc, by omega⟩]
    refine foldlM_columns_eq_error hc ?_
    unfold subtractCell
    rcases (by omega : m.rows ≤ source ∨ m.rows ≤ target) with hs | ht
    · rw [get?_eq_none (.inl hs)]
    · rw [get?_eq_none (i := target) (.inl ht)]
      cases m.get? source 0 <;> rfl
  · have hc0 : m.cols = 0 := Nat.eq_zero_of_not_pos hc
    rw [if_neg fun h => hc h.1, hc0]
    exact congrArg Except.ok
      (apply_eq_self (.subtract target source factor) hc0).symm

end Stepwise.RatMatrix
