import Stepwise.Proofs.Number.DoubleValue
import Stepwise.Proofs.Roots.Bracketing

/-!
# Estimates in doubles

The estimate of a bracketing round is computed in doubles. The midpoint
`a + (b - a) / 2` keeps between the ends although three operations are rounded: half
of a rounded length is no longer than the length, since a power of two lies between
them, and no rounding crosses an end, which is a double (`midpoint_mem`). This needs
`b - a` not to overflow. If it does, the midpoint is infinite (`not_midpoint_le`).

The point where the chord crosses zero, `(a * fb - b * fa) / (fb - fa)`, lies
between the ends only as an exact number (`chordCrossing_mem_uIcc`). All five
operations are rounded. The error of the numerator is relative to its two products,
and since the values have opposite signs these are no larger than the larger end
times the distance of the values; what is divided by this distance is so a few units
in the last place of the larger end (`abs_chord_sub_crossing_le`). An estimate can
be beyond an end of the bracket only if the crossing is that close to it
(`chord_mem`).
-/

namespace Stepwise

open Double

/-! ## Midpoints -/

/-- Half of a rounded length is rounded to no more than the length: between the
length and its half lies a power of two. -/
theorem half_le {w d h : ℚ} (hw : 0 ≤ w)
    (hmultiple : ∃ k : ℤ, w = k * 2 ^ (-1074 : ℤ)) (hd : IsRounded w d)
    (hh : IsRounded (d / 2) h) : 0 ≤ h ∧ h ≤ w := by
  have hd0 : 0 ≤ d := hd.ge 0 isRepresentable_zero hw
  refine ⟨hh.ge 0 isRepresentable_zero (by linarith), ?_⟩
  rcases hw.eq_or_lt with rfl | hpos
  · have hdle := hd.le 0 isRepresentable_zero le_rfl
    exact hh.le 0 isRepresentable_zero (by linarith)
  · have hunit := unit_le_of_pos hmultiple hpos
    obtain ⟨k, hle, hlt⟩ := exists_mem_Ico_zpow hpos one_lt_two
    have hk : -1074 < k + 1 :=
      (zpow_lt_zpow_iff_right₀ one_lt_two).mp (hunit.trans_lt hlt)
    have hd' := hd.le _ (isRepresentable_two_zpow (e := k + 1) (by omega)) hlt.le
    rw [zpow_add_one₀ two_ne_zero] at hd'
    exact (hh.le _ (isRepresentable_two_zpow (e := k) (by omega))
      (by linarith)).trans hle

section Midpoint

variable {a b : Float} (ha : a.isFinite = true) (hb : b.isFinite = true)

theorem rounds_half {x : Float} (hx : x.isFinite = true) :
    Rounds (toRat x / 2) (x / 2) := by
  have hne : toRat 2 ≠ 0 := by
    rw [toRat_two]
    exact two_ne_zero
  exact toRat_two ▸ rounds_div hx isFinite_two hne

theorem isFinite_half {x : Float} (hx : x.isFinite = true) :
    (x / 2).isFinite = true := by
  refine (rounds_half hx).isFinite_of_le ?_
  rw [abs_div, abs_two]
  exact (half_le_self (abs_nonneg _)).trans (abs_toRat_le_largest hx)

include ha hb

/-- **The midpoint of two doubles** lies between them if their difference does
not overflow. -/
theorem midpoint_mem (hab : a ≤ b) (hwidth : (b - a).isFinite = true) :
    (a + (b - a) / 2).isFinite = true ∧ a ≤ a + (b - a) / 2
      ∧ a + (b - a) / 2 ≤ b := by
  have hle : toRat a ≤ toRat b := (le_iff_toRat ha hb).mp hab
  have hhalf := isFinite_half hwidth
  obtain ⟨hnonneg, hhle⟩ := half_le (sub_nonneg.mpr hle)
    (exists_toRat_sub_eq hb ha) ((rounds_sub hb ha).rounded hwidth)
    ((rounds_half hwidth).rounded hhalf)
  have hsum := rounds_add ha hhalf
  have hc : (a + (b - a) / 2).isFinite = true := by
    refine hsum.isFinite_of_le (abs_le.mpr ⟨?_, ?_⟩)
    · have hlow := (abs_le.mp (abs_toRat_le_largest ha)).1
      linarith
    · have hhigh := (abs_le.mp (abs_toRat_le_largest hb)).2
      linarith
  have hrounded := hsum.rounded hc
  refine ⟨hc, (le_iff_toRat ha hc).mpr ?_, (le_iff_toRat hc hb).mpr ?_⟩
  · exact hrounded.ge _ (isRepresentable_toRat ha) (by linarith)
  · exact hrounded.le _ (isRepresentable_toRat hb) (by linarith)

/-- **If the difference overflows**, the midpoint does: it is infinite. -/
theorem not_midpoint_le (hab : a ≤ b) (hwidth : (b - a).isFinite = false) :
    ¬ a + (b - a) / 2 ≤ b := by
  have hle : toRat a ≤ toRat b := (le_iff_toRat ha hb).mp hab
  have hinfinite := (rounds_sub hb ha).unpack_eq_infinity hwidth
    (sub_nonneg.mpr hle)
  exact not_le_of_infinity
    (unpack_add_infinity ha (unpack_div_two hinfinite)) hb

/-- A bracket within another is no wider. -/
theorem isFinite_sub_of_mem {a' b' : Float} (ha' : a'.isFinite = true)
    (hb' : b'.isFinite = true) (hleft : a ≤ a') (hab' : a' ≤ b')
    (hright : b' ≤ b) (hwidth : (b - a).isFinite = true) :
    (b' - a').isFinite = true := by
  rw [(rounds_sub hb ha).isFinite_iff] at hwidth
  rw [le_iff_toRat ha ha'] at hleft
  rw [le_iff_toRat ha' hb'] at hab'
  rw [le_iff_toRat hb' hb] at hright
  rw [(rounds_sub hb' ha').isFinite_iff]
  refine lt_of_le_of_lt ?_ hwidth
  rw [abs_of_nonneg (sub_nonneg.mpr hab'),
    abs_of_nonneg (sub_nonneg.mpr (by linarith))]
  linarith

end Midpoint

/-! ## Chords -/

/-- **Where the chord crosses zero** that goes through `FA` at `A` and `FB` at
`B`. -/
def crossing (A B FA FB : ℚ) : ℚ :=
  (A * FB - B * FA) / (FB - FA)

theorem crossing_comm (A B FA FB : ℚ) : crossing A B FA FB = crossing B A FB FA := by
  rw [crossing, crossing, ← neg_div_neg_eq, neg_sub, neg_sub]

/-- The crossing lies between the ends if the values have opposite signs. -/
theorem crossing_mem_uIcc {A FA FB : ℚ} (hA : FA ≤ 0) (hB : 0 ≤ FB)
    (hlt : 0 < FB - FA) (B : ℚ) : crossing A B FA FB ∈ Set.uIcc A B := by
  rw [crossing]
  rcases le_total A B with h | h
  · have hleft := mul_nonneg (neg_nonneg.mpr hA) (sub_nonneg.mpr h)
    have hright := mul_nonneg hB (sub_nonneg.mpr h)
    rw [Set.uIcc_of_le h]
    constructor
    · rw [le_div_iff₀ hlt]
      linarith
    · rw [div_le_iff₀ hlt]
      linarith
  · have hleft := mul_nonneg (neg_nonneg.mpr hA) (sub_nonneg.mpr h)
    have hright := mul_nonneg hB (sub_nonneg.mpr h)
    rw [Set.uIcc_of_ge h]
    constructor
    · rw [le_div_iff₀ hlt]
      linarith
    · rw [div_le_iff₀ hlt]
      linarith

/-- **The roundings in the formula of the chord**: of the two products, of their
difference, of the difference of the values, and of the quotient. -/
structure ChordRoundings (A B FA FB P Q N D C : ℚ) : Prop where
  left : |P - A * FB| ≤ max (unitRoundoff * |A * FB|) underflowError
  right : |Q - B * FA| ≤ max (unitRoundoff * |B * FA|) underflowError
  numerator : |N - (P - Q)| ≤ unitRoundoff * |P - Q|
  denominator : |D - (FB - FA)| ≤ unitRoundoff * |FB - FA|
  quotient : |C - N / D| ≤ max (unitRoundoff * |N / D|) underflowError

/-- How far a rounded number may be from the exact one. -/
theorem max_close_le (v : ℚ) :
    max (unitRoundoff * |v|) underflowError
      ≤ unitRoundoff * |v| + underflowError :=
  max_le (le_add_of_nonneg_right underflowError_pos.le)
    (le_add_of_nonneg_left
      (mul_nonneg unitRoundoff_pos.le (abs_nonneg v)))

theorem unitRoundoff_le : unitRoundoff ≤ 1 / 16 := by
  rw [unitRoundoff]
  norm_num

section Chord

variable {A B FA FB P Q N D C : ℚ} (h : ChordRoundings A B FA FB P Q N D C)
  (hsign : |FB - FA| = |FA| + |FB|)

include hsign in
/-- The products are no larger than the larger end times the distance of the
values. -/
theorem abs_products_le (A B : ℚ) :
    |A * FB| + |B * FA| ≤ max |A| |B| * |FB - FA| := by
  rw [abs_mul, abs_mul, hsign]
  have hA := mul_le_mul_of_nonneg_right (le_max_left |A| |B|) (abs_nonneg FB)
  have hB := mul_le_mul_of_nonneg_right (le_max_right |A| |B|) (abs_nonneg FA)
  linarith

include hsign in
theorem abs_crossing_le (hne : FB - FA ≠ 0) (A B : ℚ) :
    |crossing A B FA FB| ≤ max |A| |B| := by
  rw [crossing, abs_div, div_le_iff₀ (abs_pos.mpr hne)]
  exact (abs_sub _ _).trans (abs_products_le hsign A B)

include h in
/-- The rounded denominator is not much smaller than the distance of the
values. -/
theorem ChordRoundings.le_abs_denominator :
    (1 - unitRoundoff) * |FB - FA| ≤ |D| := by
  have habs : |FB - FA| ≤ |FB - FA - D| + |D| :=
    (abs_add_le _ _).trans_eq' (by rw [sub_add_cancel])
  rw [abs_sub_comm (FB - FA) D] at habs
  linarith [h.denominator]

include h hsign

/-- The error of the numerator. -/
theorem ChordRoundings.abs_numerator_le :
    |N - (A * FB - B * FA)|
      ≤ (2 * unitRoundoff + unitRoundoff * unitRoundoff)
          * (max |A| |B| * |FB - FA|)
        + (2 + 2 * unitRoundoff) * underflowError := by
  have hproducts := abs_products_le hsign A B
  generalize max |A| |B| * |FB - FA| = scale at hproducts ⊢
  have hleft := h.left.trans (max_close_le (A * FB))
  have hright := h.right.trans (max_close_le (B * FA))
  have hscale := mul_le_mul_of_nonneg_left hproducts unitRoundoff_pos.le
  have hdiff : |P - Q - (A * FB - B * FA)|
      ≤ unitRoundoff * scale + 2 * underflowError := by
    have habs : |P - Q - (A * FB - B * FA)| ≤ |P - A * FB| + |Q - B * FA| := by
      rw [sub_sub_sub_comm]
      exact abs_sub _ _
    linarith
  have hsize : |P - Q|
      ≤ scale + (unitRoundoff * scale + 2 * underflowError) := by
    have habs : |P - Q| ≤ |P - Q - (A * FB - B * FA)| + |A * FB - B * FA| :=
      (abs_add_le _ _).trans_eq' (by rw [sub_add_cancel])
    have hexact : |A * FB - B * FA| ≤ |A * FB| + |B * FA| := abs_sub _ _
    linarith
  have hrise := h.numerator.trans
    (mul_le_mul_of_nonneg_left hsize unitRoundoff_pos.le)
  have habs : |N - (A * FB - B * FA)|
      ≤ |N - (P - Q)| + |P - Q - (A * FB - B * FA)| := abs_sub_le _ _ _
  linarith

/-- What is left of the numerator when the crossing times the denominator is taken
away. -/
theorem ChordRoundings.abs_rest_le (hne : FB - FA ≠ 0) :
    |N - crossing A B FA FB * D|
      ≤ (3 * unitRoundoff + unitRoundoff * unitRoundoff)
          * (max |A| |B| * |FB - FA|)
        + (2 + 2 * unitRoundoff) * underflowError := by
  have hM : 0 ≤ max |A| |B| := (abs_nonneg A).trans (le_max_left _ _)
  have hexact : crossing A B FA FB * (FB - FA) = A * FB - B * FA :=
    div_mul_cancel₀ _ hne
  have hsplit : N - crossing A B FA FB * D
      = N - (A * FB - B * FA) - crossing A B FA FB * (D - (FB - FA)) := by
    rw [← hexact]
    ring
  have habs : |N - crossing A B FA FB * D|
      ≤ |N - (A * FB - B * FA)| + |crossing A B FA FB * (D - (FB - FA))| :=
    hsplit ▸ abs_sub _ _
  have hmul : |crossing A B FA FB * (D - (FB - FA))|
      ≤ max |A| |B| * (unitRoundoff * |FB - FA|) := by
    rw [abs_mul]
    exact mul_le_mul (abs_crossing_le hsign hne A B) h.denominator
      (abs_nonneg _) hM
  linarith [h.abs_numerator_le hsign]

/-- The distance of the exact quotient from the crossing, in units of the distance
of the values. -/
theorem ChordRoundings.abs_quotient_sub_le (hne : FB - FA ≠ 0) :
    (1 - unitRoundoff) * (|FB - FA| * |N / D - crossing A B FA FB|)
      ≤ (3 * unitRoundoff + unitRoundoff * unitRoundoff)
          * (max |A| |B| * |FB - FA|)
        + (2 + 2 * unitRoundoff) * underflowError := by
  have hD0 : D ≠ 0 := by
    refine abs_pos.mp (lt_of_lt_of_le ?_ h.le_abs_denominator)
    exact mul_pos (by linarith [unitRoundoff_le]) (abs_pos.mpr hne)
  have hmul : N - crossing A B FA FB * D = (N / D - crossing A B FA FB) * D := by
    rw [sub_mul, div_mul_cancel₀ _ hD0]
  refine le_trans ?_ (h.abs_rest_le hsign hne)
  rw [hmul, abs_mul, ← mul_assoc, mul_comm]
  exact mul_le_mul_of_nonneg_left h.le_abs_denominator (abs_nonneg _)

/-- **The error of a chord.** -/
theorem ChordRoundings.error_le (hne : FB - FA ≠ 0) :
    |C - crossing A B FA FB|
      ≤ 5 * unitRoundoff * max |A| |B|
        + 3 * underflowError * (1 + 1 / |FB - FA|) := by
  have hS : 0 < |FB - FA| := abs_pos.mpr hne
  have hM : 0 ≤ max |A| |B| := (abs_nonneg A).trans (le_max_left _ _)
  have hX := abs_crossing_le hsign hne A B
  have hquotient := h.abs_quotient_sub_le hsign hne
  have hC : |C - crossing A B FA FB|
      ≤ unitRoundoff * max |A| |B| + underflowError
        + (1 + unitRoundoff) * |N / D - crossing A B FA FB| := by
    have habs : |C - crossing A B FA FB|
        ≤ |C - N / D| + |N / D - crossing A B FA FB| := abs_sub_le _ _ _
    have hround := h.quotient.trans (max_close_le (N / D))
    have hsize : |N / D| ≤ |N / D - crossing A B FA FB| + max |A| |B| :=
      ((abs_add_le _ _).trans_eq' (by rw [sub_add_cancel])).trans
        (add_le_add_right hX _)
    linarith [mul_le_mul_of_nonneg_left hsize unitRoundoff_pos.le]
  have hT := mul_nonneg hS.le (abs_nonneg (N / D - crossing A B FA FB))
  generalize max |A| |B| = M at *
  generalize |N / D - crossing A B FA FB| = T at *
  -- products of two errors are no more than a sixteenth of one
  have hsmall : ∀ {y : ℚ}, 0 ≤ y → unitRoundoff * y ≤ 1 / 16 * y :=
    mul_le_mul_of_nonneg_right unitRoundoff_le
  have hMS := mul_nonneg unitRoundoff_pos.le (mul_nonneg hM hS.le)
  have hηS := mul_pos underflowError_pos hS
  have hscaled := mul_le_mul_of_nonneg_left hC hS.le
  rw [← mul_le_mul_iff_right₀ hS]
  calc |FB - FA| * |C - crossing A B FA FB|
      ≤ 5 * unitRoundoff * M * |FB - FA| + 3 * underflowError * |FB - FA|
          + 3 * underflowError := by
        linarith [hsmall hT, hsmall hMS, hsmall underflowError_pos.le,
          underflowError_pos]
    _ = |FB - FA| * (5 * unitRoundoff * M
          + 3 * underflowError * (1 + 1 / |FB - FA|)) := by
        field_simp
        ring

end Chord

/-- The exact point where the chord of a bracket crosses zero. -/
def chordCrossing (a b fa fb : Float) : ℚ :=
  crossing (toRat a) (toRat b) (toRat fa) (toRat fb)

/-- **How far rounding takes the estimate** from the crossing at most. -/
def chordSlack (a b fa fb : Float) : ℚ :=
  5 * unitRoundoff * max |toRat a| |toRat b|
    + 3 * underflowError * (1 + 1 / |toRat fb - toRat fa|)

section Doubles

variable {a b fa fb : Float} (hfa : fa.isFinite = true)
  (hfb : fb.isFinite = true) (hopposite : Xor (fa < 0) (fb < 0))

include hfa hfb hopposite

/-- Values of opposite sign, as numbers. -/
theorem opposite_toRat :
    (toRat fa < 0 ∧ 0 ≤ toRat fb) ∨ (toRat fb < 0 ∧ 0 ≤ toRat fa) := by
  rw [lt_zero_iff hfa, lt_zero_iff hfb] at hopposite
  exact hopposite.imp (fun h => ⟨h.1, not_lt.mp h.2⟩)
    fun h => ⟨h.1, not_lt.mp h.2⟩

/-- Values of opposite sign are as far apart as both are from zero. -/
theorem abs_toRat_sub_eq :
    |toRat fb - toRat fa| = |toRat fa| + |toRat fb| := by
  rcases opposite_toRat hfa hfb hopposite with ⟨hneg, hpos⟩ | ⟨hneg, hpos⟩
  · rw [abs_of_neg hneg, abs_of_nonneg hpos, abs_of_nonneg (by linarith)]
    ring
  · rw [abs_of_neg hneg, abs_of_nonneg hpos, abs_of_neg (by linarith)]
    ring

theorem toRat_sub_ne_zero : toRat fb - toRat fa ≠ 0 := by
  rcases opposite_toRat hfa hfb hopposite with ⟨hneg, hpos⟩ | ⟨hneg, hpos⟩
  · exact (show 0 < toRat fb - toRat fa by linarith).ne'
  · exact (show toRat fb - toRat fa < 0 by linarith).ne

/-- The crossing lies between the ends. -/
theorem chordCrossing_mem_uIcc (a b : Float) :
    chordCrossing a b fa fb ∈ Set.uIcc (toRat a) (toRat b) := by
  rcases opposite_toRat hfa hfb hopposite with ⟨hneg, hpos⟩ | ⟨hneg, hpos⟩
  · exact crossing_mem_uIcc hneg.le hpos (by linarith) _
  · -- with the ends exchanged
    rw [chordCrossing, crossing_comm, Set.uIcc_comm]
    exact crossing_mem_uIcc hneg.le hpos (by linarith) _

/-- **The roundings of an estimate that is finite.** -/
theorem chordRoundings (ha : a.isFinite = true) (hb : b.isFinite = true)
    (hdenominator : (fb - fa).isFinite = true)
    (hc : ((a * fb - b * fa) / (fb - fa)).isFinite = true) :
    ChordRoundings (toRat a) (toRat b) (toRat fa) (toRat fb) (toRat (a * fb))
      (toRat (b * fa)) (toRat (a * fb - b * fa)) (toRat (fb - fa))
      (toRat ((a * fb - b * fa) / (fb - fa))) := by
  have hnumerator := isFinite_of_isFinite_div hdenominator hc
  obtain ⟨hleft, hright⟩ := isFinite_of_isFinite_sub hnumerator
  have hclose := abs_toRat_sub_le hfb hfa hdenominator
  have hne : toRat (fb - fa) ≠ 0 := by
    intro hzero
    rw [hzero, zero_sub, abs_neg] at hclose
    have hpos := abs_pos.mpr (toRat_sub_ne_zero hfa hfb hopposite)
    have hsmall := mul_le_mul_of_nonneg_right unitRoundoff_le hpos.le
    linarith
  exact {
    left := ((rounds_mul ha hfb).rounded hleft).close
    right := ((rounds_mul hb hfa).rounded hright).close
    numerator := abs_toRat_sub_le hleft hright hnumerator
    denominator := hclose
    quotient := ((rounds_div hnumerator hdenominator hne).rounded hc).close }

/-- **The estimate of a chord** is close to the crossing. -/
theorem abs_chord_sub_crossing_le (ha : a.isFinite = true)
    (hb : b.isFinite = true) (hdenominator : (fb - fa).isFinite = true)
    (hc : ((a * fb - b * fa) / (fb - fa)).isFinite = true) :
    |toRat ((a * fb - b * fa) / (fb - fa)) - chordCrossing a b fa fb|
      ≤ chordSlack a b fa fb :=
  (chordRoundings hfa hfb hopposite ha hb hdenominator hc).error_le
    (abs_toRat_sub_eq hfa hfb hopposite) (toRat_sub_ne_zero hfa hfb hopposite)

/-- **An estimate cannot leave the bracket** if the crossing is further from both
ends than rounding takes it. -/
theorem chord_mem (ha : a.isFinite = true) (hb : b.isFinite = true)
    (hdenominator : (fb - fa).isFinite = true)
    (hc : ((a * fb - b * fa) / (fb - fa)).isFinite = true)
    (hleft : toRat a + chordSlack a b fa fb ≤ chordCrossing a b fa fb)
    (hright : chordCrossing a b fa fb + chordSlack a b fa fb ≤ toRat b) :
    a ≤ (a * fb - b * fa) / (fb - fa)
      ∧ (a * fb - b * fa) / (fb - fa) ≤ b := by
  obtain ⟨hlow, hhigh⟩ := abs_le.mp
    (abs_chord_sub_crossing_le hfa hfb hopposite ha hb hdenominator hc)
  rw [le_iff_toRat ha hc, le_iff_toRat hc hb]
  exact ⟨by linarith, by linarith⟩

end Doubles

end Stepwise
