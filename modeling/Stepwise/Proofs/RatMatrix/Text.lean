import Stepwise.Proofs.Number.Fraction
import Stepwise.Proofs.RatMatrix.Entries
import Stepwise.RatMatrix.Text

/-!
# Exact values survive as text

What is written for an exact number is read as that number, and so a vector and
a matrix come back cell by cell. A grid of texts has its shape looked at after
its cells were read, so that a matrix without rows or columns, whose grid tells
nothing of the other size, is the only one that does not come back
(`RatMatrix.parse_toStrings`).

A number may be written in many ways. The text it is written in here is the same
for all of them, and tells the number apart from every other
(`exact_values_survive_text`).
-/

namespace Stepwise

/-- **A vector is read back from the texts of its entries.** -/
theorem parseVector_map_format (v : List Rat) :
    parseVector (v.map Fraction.format) = .ok v := by
  unfold parseVector
  have hcell : (fun text => (Fraction.read text).mapError .ofParseError)
      ∘ Fraction.format = fun value : Rat =>
        (pure value : Except LinearError Rat) := by
    funext value
    show (Fraction.read (Fraction.format value)).mapError _ = _
    rw [Fraction.read_format]
    rfl
  rw [List.mapM_map, hcell, List.mapM_pure, List.map_id']
  rfl

namespace RatMatrix

/-- **A matrix is made again from its rows**, unless there are none or they are
empty. -/
theorem ofRows_toRows (m : RatMatrix) :
    ofRows m.toRows
      = if m.rows = 0 then .error (.shape .noRows)
        else if m.cols = 0 then .error (.shape .noColumns)
        else .ok m := by
  have hheight : m.toRows.length = m.rows := by
    rw [toRows, List.length_map, List.length_range]
  have hwidth : ∀ row ∈ m.toRows, row.length = m.cols := by
    intro row hrow
    obtain ⟨i, _, rfl⟩ := List.mem_map.mp hrow
    exact length_row m i
  have hrow : ∀ i, i < m.rows → m.toRows.getD i [] = m.row i := by
    intro i hi
    rw [toRows, List.getD_eq_getElem?_getD, List.getElem?_map,
      List.getElem?_range hi]
    rfl
  have hragged : m.toRows.findIdx? (fun row => row.length ≠ m.cols) = none :=
    List.findIdx?_eq_none_iff.mpr fun row hrow =>
      decide_eq_false (not_not_intro (hwidth row hrow))
  unfold ofRows
  split
  · rename_i hnil
    rw [if_pos (by rw [← hheight, hnil]; rfl)]
  · rename_i first rest hcons
    have hfirst : first.length = m.cols :=
      hwidth first (hcons ▸ List.mem_cons_self)
    have hrows : m.rows ≠ 0 := by
      rw [← hheight, hcons]
      exact Nat.succ_ne_zero _
    rw [if_neg hrows]
    simp only [hfirst, hragged]
    split
    · rfl
    · refine congrArg Except.ok (ext_entry hheight rfl fun i j hi hj => ?_)
      have hi' : i < m.toRows.length := hi
      have hj' : j < m.cols := hj
      rw [entry_ofFn_of_lt _ hi' hj', hrow i (hheight ▸ hi'), getD_row]

/-- **A matrix is read back from its texts**, with the same exceptions. -/
theorem parse_toStrings (m : RatMatrix) :
    parse m.toStrings
      = if m.rows = 0 then .error (.shape .noRows)
        else if m.cols = 0 then .error (.shape .noColumns)
        else .ok m := by
  have hrow : parseVector ∘ (fun row => row.map Fraction.format)
      = fun row => (pure row : Except LinearError (List Rat)) :=
    funext parseVector_map_format
  unfold parse toStrings
  rw [List.mapM_map, hrow, List.mapM_pure, List.map_id', pure_bind,
    ofRows_toRows]

end RatMatrix

/-- **Exact values survive as text.** A number, a vector and a matrix with at
least one row and one column are read back from their texts. Whatever text a
number is read from, writing it gives the one text of that number, different
from those of all others, which reading and writing leave as it is. -/
theorem exact_values_survive_text :
    (∀ value, Fraction.parse (Fraction.format value) = .ok value)
      ∧ (∀ v, parseVector (v.map Fraction.format) = .ok v)
      ∧ (∀ m : RatMatrix,
        RatMatrix.parse m.toStrings = .ok m ↔ 0 < m.rows ∧ 0 < m.cols)
      ∧ (∀ text text' value value', Fraction.parse text = .ok value →
        Fraction.parse text' = .ok value' →
        ((Fraction.parse text).map Fraction.format
            = (Fraction.parse text').map Fraction.format ↔ value = value'))
      ∧ ∀ text written,
        (Fraction.parse text).map Fraction.format = .ok written →
        (Fraction.parse written).map Fraction.format = .ok written := by
  refine ⟨Fraction.parse_format, parseVector_map_format, fun m => ?_,
    fun text text' value value' h h' => ?_, fun text written h => ?_⟩
  · rw [RatMatrix.parse_toStrings]
    constructor
    · intro h
      split at h
      · cases h
      · split at h
        · cases h
        · exact ⟨Nat.pos_of_ne_zero ‹_›, Nat.pos_of_ne_zero ‹_›⟩
    · rintro ⟨hr, hc⟩
      rw [if_neg (Nat.ne_of_gt hr), if_neg (Nat.ne_of_gt hc)]
  · rw [h, h']
    show Except.ok _ = Except.ok _ ↔ _
    rw [Except.ok.injEq, Fraction.format_injective.eq_iff]
  · cases hvalue : Fraction.parse text with
    | error fault =>
      rw [hvalue] at h
      cases h
    | ok value =>
      rw [hvalue] at h
      obtain rfl : Fraction.format value = written := Except.ok.inj h
      rw [Fraction.parse_format]
      rfl

/-- Three halves in two ways, and a matrix with a negative number and a
fraction. -/
theorem exact_values_survive_text_three_halves :
    let m : RatMatrix := ⟨2, 2, #[3 / 2, -7, 0, -1 / 3], rfl⟩
    (0 < m.rows ∧ 0 < m.cols ∧ RatMatrix.parse m.toStrings = .ok m)
      ∧ Fraction.parse " 6/4" = .ok (3 / 2)
      ∧ Fraction.parse "+1,5" = .ok (3 / 2)
      ∧ (Fraction.parse " 6/4").map Fraction.format
        = (Fraction.parse "+1,5").map Fraction.format
      ∧ (Fraction.parse " 6/4").map Fraction.format = .ok "3/2"
      ∧ (Fraction.parse "3/2").map Fraction.format = .ok "3/2" := by
  intro m
  have hquotient : Fraction.parse " 6/4" = .ok (3 / 2) := by decide +kernel
  have hdecimal : Fraction.parse "+1,5" = .ok (3 / 2) := by decide +kernel
  have hwritten : (Fraction.parse " 6/4").map Fraction.format = .ok "3/2" := by
    decide +kernel
  obtain ⟨_, _, hmatrix, hsame, hagain⟩ := exact_values_survive_text
  exact ⟨⟨by decide, by decide, (hmatrix m).mpr ⟨by decide, by decide⟩⟩,
    hquotient, hdecimal, (hsame _ _ _ _ hquotient hdecimal).mpr rfl, hwritten,
    hagain _ _ hwritten⟩

end Stepwise
