import Stepwise.Proofs.RatMatrix.Flat

/-!
# Matrices built by operations

A `Construction` says how a matrix is made: from rows, texts or a size, and from
there by any operations, also by those that take a second matrix made in such a
way. It is carried out twice, by the formulas of `RatMatrix`
(`Construction.matrix`) and by the loops of `FlatMatrix`
(`Construction.flat`), which keep a list of cells that nothing forces to be as
long as the sizes ask for.

Both ways refuse the same constructions, and what they make is the same
(`Construction.flat_eq_map`): no loop misses a cell or writes one too many. So
the cells always stand row by row, and a cell in range is always found
(`FlatMatrix.IsRowMajor`).

An edit of rows completes, or it stops before it has written anything
(`EditsWhole`), with one exception. Exchanging and multiplying take a row as it
is given, and compute its places in words. A row so far out that its places are
cut down may be taken for cells of the matrix: an exchange with it can complete,
or be caught half way (`Construction.swapRows_beyond_word`). The main result,
`Construction.rowMajor`, is this for every construction, those with no rows or no
columns among them, and with the rows whose places are cut down kept apart.
-/

namespace Stepwise

open RatMatrix

/-! ## What is kept -/

/-- **Cells row by row**: as many as the sizes ask for, each at its place, where
it is found and can be written. -/
structure FlatMatrix.IsRowMajor (m : FlatMatrix) : Prop where
  length_cells : m.cells.length = m.rows * m.cols
  get_eq : ∀ i j, i < m.rows → j < m.cols →
    ∃ value, m.cells[i * m.cols + j]? = some value ∧ m.get i j = .ok value
  row_eq : ∀ i, i < m.rows →
    m.row i = .ok ((m.cells.drop (i * m.cols)).take m.cols)
  set_eq : ∀ i j value, i < m.rows → j < m.cols →
    m.set i j value
      = .ok { m with cells := m.cells.set (i * m.cols + j) value }

/-- **An edit that stops at once or completes**: it stops when it is blocked,
and what it leaves is the matrix it was given. -/
def StopsAtOnce {σ : Type} (m : σ) (blocked : Prop) (outcome : Except σ σ) :
    Prop :=
  ∀ left, outcome = .error left ↔ blocked ∧ left = m

/-- **Edits of rows**, and what stops them. A row that is missing blocks an
edit, if there is a column to edit it in. A row may be exchanged with itself
though it is missing. -/
structure EditsWhole {σ : Type} (m : σ) (rows cols : Nat)
    (swap : Nat → Nat → Except σ σ) (scale : Nat → Rat → Except σ σ)
    (subtract : Nat → Nat → Rat → Except σ σ) : Prop where
  swap_stops : ∀ a b, IsPlaced rows cols a → IsPlaced rows cols b →
    StopsAtOnce m (a ≠ b ∧ 0 < cols ∧ (rows ≤ a ∨ rows ≤ b)) (swap a b)
  /-- With rows whose places are cut down an exchange completes if it finds a
  cell at each of them. -/
  swap_completes : rows * cols < wordSize → ∀ a b,
    (∃ m', swap a b = .ok m') ↔ a = b ∨ ∀ j < cols,
      (a * cols + j) % wordSize < rows * cols
        ∧ (b * cols + j) % wordSize < rows * cols
  scale_stops : ∀ i factor, IsPlaced rows cols i →
    StopsAtOnce m (0 < cols ∧ rows ≤ i) (scale i factor)
  /-- Multiplying is never caught half way, since the slice is cut first. -/
  scale_whole : rows * cols < wordSize → ∀ i factor, StopsAtOnce m
    (¬(i * cols % wordSize ≤ (i + 1) * cols % wordSize
      ∧ (i + 1) * cols % wordSize ≤ rows * cols)) (scale i factor)
  subtract_stops : ∀ target source factor, StopsAtOnce m
    (0 < cols ∧ (rows ≤ target ∨ rows ≤ source))
    (subtract target source factor)

theorem RatMatrix.isRowMajor_flat (m : RatMatrix) : m.flat.IsRowMajor where
  length_cells := length_cells_flat m
  get_eq i j hi hj :=
    ⟨m.entry i j, (getElem?_cells_flat_place hj i).trans (get?_eq_some hi hj),
      get_flat hi hj⟩
  row_eq _ hi := row_flat_eq_take hi
  set_eq _ _ _ hi hj :=
    if_pos ⟨hi, hj, (length_cells_flat m).symm ▸ place_lt hi hj⟩

/-- An edit that is told apart by what blocks it stops at once. -/
theorem stopsAtOnce_ite {σ : Type} {m m' : σ} {blocked : Prop}
    [Decidable blocked] :
    StopsAtOnce m blocked (if blocked then .error m else .ok m') := by
  intro left
  by_cases h : blocked
  · rw [if_pos h, Except.error.injEq]
    exact ⟨fun heq => ⟨h, heq.symm⟩, fun hb => hb.2.symm⟩
  · rw [if_neg h]
    exact ⟨fun heq => (nomatch heq), fun hb => absurd hb.1 h⟩

/-- What stops at once does so whichever way the matrix is kept. -/
theorem StopsAtOnce.flat {m : RatMatrix} {blocked : Prop} {outcome : Edited}
    (h : StopsAtOnce m blocked outcome) :
    StopsAtOnce m.flat blocked outcome.flat := by
  intro left
  cases outcome with
  | ok m' =>
    have hfree : ¬blocked := fun hb => nomatch (h m).mpr ⟨hb, rfl⟩
    exact ⟨fun heq => (nomatch heq), fun hb => absurd hb.1 hfree⟩
  | error m' =>
    obtain ⟨hb, rfl⟩ := (h m').mp rfl
    show Except.error m'.flat = Except.error left ↔ _
    rw [Except.error.injEq]
    exact ⟨fun heq => ⟨hb, heq.symm⟩, fun hb => hb.2.symm⟩

/-- An edit completes whichever way the matrix is kept. -/
theorem exists_flat_eq_ok_iff {outcome : Edited} :
    (∃ m, outcome.flat = .ok m) ↔ ∃ m, outcome = .ok m := by
  cases outcome with
  | ok m => exact ⟨fun _ => ⟨m, rfl⟩, fun _ => ⟨m.flat, rfl⟩⟩
  | error m => exact ⟨fun ⟨_, h⟩ => (nomatch h), fun ⟨_, h⟩ => (nomatch h)⟩

theorem RatMatrix.editsWhole (m : RatMatrix) :
    EditsWhole m m.rows m.cols m.swapRowsInPlace m.scaleRowInPlace
      m.subtractScaledRowInPlace where
  swap_stops a b ha hb := swapRowsInPlace_eq ha hb ▸ stopsAtOnce_ite
  swap_completes hsize a b := by
    rw [exists_swapRowsInPlace_iff]
    simp only [wordPlace_eq_mod hsize]
  scale_stops i factor h := scaleRowInPlace_eq h factor ▸ stopsAtOnce_ite
  scale_whole hsize i factor := by
    obtain ⟨m', h⟩ := scaleRowInPlace_eq_ite m i factor
    rw [h, wordPlace_eq_mod hsize, wordPlace_eq_mod hsize]
    exact stopsAtOnce_ite
  subtract_stops target source factor :=
    subtractScaledRowInPlace_eq m target source factor ▸ stopsAtOnce_ite

theorem RatMatrix.editsWhole_flat (m : RatMatrix) :
    EditsWhole m.flat m.rows m.cols m.flat.swapRows m.flat.scaleRow
      m.flat.subtractScaledRow where
  swap_stops a b ha hb :=
    swapRows_flat m a b ▸ (m.editsWhole.swap_stops a b ha hb).flat
  swap_completes hsize a b := by
    rw [swapRows_flat, exists_flat_eq_ok_iff]
    exact m.editsWhole.swap_completes hsize a b
  scale_stops i factor h :=
    scaleRow_flat m i factor ▸ (m.editsWhole.scale_stops i factor h).flat
  scale_whole hsize i factor :=
    scaleRow_flat m i factor ▸ (m.editsWhole.scale_whole hsize i factor).flat
  subtract_stops target source factor :=
    subtractScaledRow_flat m target source factor ▸
      (m.editsWhole.subtract_stops target source factor).flat

/-! ## Constructions -/

/-- **How a matrix is made.** -/
inductive Construction where
  | ofRows (rows : List (List Rat))
  | ofIntegers (rows : List (List Int))
  | parse (grid : List (List String))
  | zeros (rows cols : Nat)
  | identity (n : Nat)
  | swapRows (c : Construction) (a b : Nat)
  | scaleRow (c : Construction) (i : Nat) (factor : Rat)
  | subtractScaledRow (c : Construction) (target source : Nat) (factor : Rat)
  | set (c : Construction) (i j : Nat) (value : Rat)
  | transpose (c : Construction)
  | minor (c : Construction) (i j : Nat)
  | augmentColumn (c : Construction) (b : List Rat)
  | augment (c d : Construction)
  | leftPart (c : Construction) (position : Nat)
  | rightPart (c : Construction) (position : Nat)
  | product (c d : Construction)
  | withColumn (c : Construction) (j : Nat) (values : List Rat)
  | scale (c : Construction) (factor : Rat)

/-- An operation that may refuse its arguments. -/
def refusing {α : Type} (outcome : Except LinearError α) :
    Except FlatFailure α :=
  outcome.mapError .refused

/-- An edit that is part of a construction, which ends where the edit stops. -/
def stopping {α : Type} (outcome : Except α α) : Except FlatFailure α :=
  outcome.mapError fun _ => .outside

namespace Construction

/-- The matrix, made by the formulas of the operations. -/
def matrix : Construction → Except FlatFailure RatMatrix
  | ofRows rows => refusing (RatMatrix.ofRows rows)
  | ofIntegers rows => refusing (RatMatrix.ofIntegers rows)
  | parse grid => refusing (RatMatrix.parse grid)
  | zeros rows cols => .ok (RatMatrix.zeros rows cols)
  | identity n => .ok (RatMatrix.identity n)
  | swapRows c a b => do stopping ((← c.matrix).swapRowsInPlace a b)
  | scaleRow c i factor => do stopping ((← c.matrix).scaleRowInPlace i factor)
  | subtractScaledRow c target source factor => do
    stopping ((← c.matrix).subtractScaledRowInPlace target source factor)
  | set c i j value => do stopping ((← c.matrix).setCell i j value)
  | transpose c => do return (← c.matrix).transpose
  | minor c i j => do ((← c.matrix).minor? i j).elim (.error .outside) .ok
  | augmentColumn c b => do refusing ((← c.matrix).augmentColumn b)
  | augment c d => do refusing ((← c.matrix).augment (← d.matrix))
  | leftPart c position => do
    return (← refusing ((← c.matrix).splitColumns position)).1
  | rightPart c position => do
    return (← refusing ((← c.matrix).splitColumns position)).2
  | product c d => do refusing ((← c.matrix).product (← d.matrix))
  | withColumn c j values => do refusing ((← c.matrix).withColumn j values)
  | scale c factor => do return (← c.matrix).scale factor

/-- The matrix, made cell by cell. -/
def flat : Construction → Except FlatFailure FlatMatrix
  | ofRows rows => FlatMatrix.ofRows rows
  | ofIntegers rows => FlatMatrix.ofIntegers rows
  | parse grid => FlatMatrix.parse grid
  | zeros rows cols => .ok (FlatMatrix.zeros rows cols)
  | identity n => FlatMatrix.identity n
  | swapRows c a b => do stopping ((← c.flat).swapRows a b)
  | scaleRow c i factor => do stopping ((← c.flat).scaleRow i factor)
  | subtractScaledRow c target source factor => do
    stopping ((← c.flat).subtractScaledRow target source factor)
  | set c i j value => do (← c.flat).set i j value
  | transpose c => do (← c.flat).transpose
  | minor c i j => do (← c.flat).minor i j
  | augmentColumn c b => do (← c.flat).augmentColumn b
  | augment c d => do (← c.flat).augment (← d.flat)
  | leftPart c position => do return (← (← c.flat).splitColumns position).1
  | rightPart c position => do return (← (← c.flat).splitColumns position).2
  | product c d => do (← c.flat).product (← d.flat)
  | withColumn c j values => do (← c.flat).withColumn j values
  | scale c factor => do return (← c.flat).scale factor

/-- One operation more is the same operation on the matrix as it is kept. -/
theorem bind_map_flat {made : Except FlatFailure RatMatrix}
    {f : RatMatrix → Except FlatFailure RatMatrix}
    {g : FlatMatrix → Except FlatFailure FlatMatrix}
    (h : ∀ m, g m.flat = (f m).map RatMatrix.flat) :
    made.map RatMatrix.flat >>= g = (made >>= f).map RatMatrix.flat := by
  cases made with
  | error e => rfl
  | ok m => exact h m

theorem stopping_flat (outcome : Edited) :
    stopping outcome.flat = (stopping outcome).map RatMatrix.flat := by
  cases outcome <;> rfl

/-- **Formulas and loops make the same matrix**, and refuse the same
constructions. -/
theorem flat_eq_map (c : Construction) :
    c.flat = c.matrix.map RatMatrix.flat := by
  induction c with
  | ofRows rows => exact ofRows_flat rows
  | ofIntegers rows => exact ofIntegers_flat rows
  | parse grid => exact parse_flat grid
  | zeros rows cols => exact congrArg Except.ok (zeros_flat rows cols)
  | identity n => exact identity_flat n
  | swapRows c a b ih =>
    rw [flat, ih]
    exact bind_map_flat fun m => by rw [swapRows_flat, stopping_flat]
  | scaleRow c i factor ih =>
    rw [flat, ih]
    exact bind_map_flat fun m => by rw [scaleRow_flat, stopping_flat]
  | subtractScaledRow c target source factor ih =>
    rw [flat, ih]
    exact bind_map_flat fun m => by rw [subtractScaledRow_flat, stopping_flat]
  | set c i j value ih =>
    rw [flat, ih]
    refine bind_map_flat fun m => ?_
    rw [set_flat, setCell]
    split <;> rfl
  | transpose c ih =>
    rw [flat, ih]
    exact bind_map_flat fun m => transpose_flat m
  | minor c i j ih =>
    rw [flat, ih]
    refine bind_map_flat fun m => ?_
    rw [minor_flat]
    cases m.minor? i j <;> rfl
  | augmentColumn c b ih =>
    rw [flat, ih]
    exact bind_map_flat fun m => augmentColumn_flat m b
  | augment c d ihc ihd =>
    rw [flat, ihc, ihd]
    exact bind_map_flat fun a => bind_map_flat fun b => augment_flat a b
  | leftPart c position ih =>
    rw [flat, ih]
    refine bind_map_flat fun m => ?_
    rw [splitColumns_flat, refusing]
    cases m.splitColumns position <;> rfl
  | rightPart c position ih =>
    rw [flat, ih]
    refine bind_map_flat fun m => ?_
    rw [splitColumns_flat, refusing]
    cases m.splitColumns position <;> rfl
  | product c d ihc ihd =>
    rw [flat, ihc, ihd]
    exact bind_map_flat fun a => bind_map_flat fun b => product_flat a b
  | withColumn c j values ih =>
    rw [flat, ih]
    exact bind_map_flat fun m => withColumn_flat m j values
  | scale c factor ih =>
    rw [flat, ih]
    exact bind_map_flat fun m => congrArg Except.ok (scale_flat m factor)

/-- **Every matrix that can be made keeps its cells row by row**, and every edit
of its rows stops at once or completes, but for rows whose places are cut
down. -/
theorem rowMajor (c : Construction) :
    c.flat = c.matrix.map RatMatrix.flat
      ∧ (∀ m, c.flat = .ok m → m.IsRowMajor
        ∧ EditsWhole m m.rows m.cols m.swapRows m.scaleRow m.subtractScaledRow)
      ∧ ∀ m, c.matrix = .ok m →
        EditsWhole m m.rows m.cols m.swapRowsInPlace m.scaleRowInPlace
          m.subtractScaledRowInPlace := by
  refine ⟨flat_eq_map c, fun m hm => ?_, fun m _ => m.editsWhole⟩
  rw [flat_eq_map] at hm
  cases hmatrix : c.matrix with
  | error e =>
    rw [hmatrix] at hm
    cases hm
  | ok m' =>
    rw [hmatrix] at hm
    obtain rfl : m'.flat = m := Except.ok.inj hm
    exact ⟨m'.isRowMajor_flat, m'.editsWhole_flat⟩

/-- Two rows without columns: the missing sixth row is no obstacle to an
exchange until a column is there. -/
theorem rowMajor_column :
    let bare : Construction := .swapRows (.zeros 2 0) 0 5
    let column : FlatMatrix := ⟨2, 1, [7, 8]⟩
    (bare.augmentColumn [7, 8]).flat = .ok column ∧ column.IsRowMajor
      ∧ IsPlaced 2 1 0 ∧ IsPlaced 2 1 5
      ∧ column.swapRows 0 5 = .error column := by
  intro bare column
  have hmade : (bare.augmentColumn [7, 8]).flat = .ok column := rfl
  obtain ⟨hrows, hedits⟩ := (rowMajor (bare.augmentColumn [7, 8])).2.1 _ hmade
  have hplaced : IsPlaced 2 1 5 := .inr (by decide)
  exact ⟨hmade, hrows, .inl (by decide), hplaced,
    (hedits.swap_stops 0 5 (.inl (by decide)) hplaced column).mpr (by decide)⟩

/-- **Rows beyond a word.** Twice `2 ^ 63` is nothing in a word, so that row is
taken for the first one, and an exchange with it completes. Three times the other
row is four, and an exchange with it stops after two cells. -/
theorem swapRows_beyond_word :
    let square : FlatMatrix := ⟨2, 2, [1, 2, 3, 4]⟩
    let wide : FlatMatrix := ⟨2, 3, [1, 2, 3, 4, 5, 6]⟩
    (ofRows [[1, 2], [3, 4]]).flat = .ok square
      ∧ square.swapRows 1 9223372036854775808 = .ok ⟨2, 2, [3, 4, 1, 2]⟩
      ∧ ¬ StopsAtOnce square
        (1 ≠ 9223372036854775808 ∧ 0 < square.cols
          ∧ (square.rows ≤ 1 ∨ square.rows ≤ 9223372036854775808))
        (square.swapRows 1 9223372036854775808)
      ∧ (ofRows [[1, 2, 3], [4, 5, 6]]).flat = .ok wide
      ∧ wide.swapRows 0 12297829382473034412
        = .error ⟨2, 3, [5, 6, 3, 4, 1, 2]⟩ := by
  intro square wide
  have hswap : square.swapRows 1 9223372036854775808
      = .ok ⟨2, 2, [3, 4, 1, 2]⟩ := by decide +kernel
  refine ⟨rfl, hswap, fun h => ?_, rfl, by decide +kernel⟩
  have hstop := (h square).mpr ⟨by decide, rfl⟩
  rw [hswap] at hstop
  cases hstop

end Construction

end Stepwise
