import Stepwise.Proofs.Number.DoubleValue

/-!
# Whole numbers and multiples

A natural number of up to 53 bits is a double (`Double.toRat_ofNat`), and a double
that does not exceed it is cut off to no more than it
(`Double.toNat_toUInt64_le`). The multiples of a step are rounded once each. As long
as there are no more than a million of them the errors are so small that a multiple
and the next are most of a step apart (`Double.toRat_step_add_le`), however small
the step is: a multiple of a double is a multiple of the least double, for which
the error of rounding is a relative one.
-/

namespace Stepwise.Double

open Float.Model (UnpackedFloat Format)
open Float.Model.UnpackedFloat

/-! ## Natural numbers -/

/-- A natural number of up to 53 bits is its own rounding. -/
theorem Rounds.toRat_eq_natCast {n : ℕ} {x : Float} (hn : n < 2 ^ 53)
    (h : Rounds n x) : x.isFinite = true ∧ toRat x = n := by
  have hn' : (n : ℚ) + 1 ≤ 2 ^ 53 := by exact_mod_cast hn
  refine h.toRat_eq ⟨n, 0, ?_, by norm_num, ?_⟩ ?_
  · rw [Nat.abs_cast]
    exact_mod_cast hn
  · rw [zpow_zero, mul_one, Int.cast_natCast]
  · rw [Nat.abs_cast]
    calc (n : ℚ) ≤ 2 ^ 53 - 1 := by linarith
      _ ≤ largest := le_mul_of_one_le_right (by norm_num)
          (one_le_zpow₀ one_le_two (by norm_num))

theorem rounds_toFloat (n : UInt64) : Rounds n.toNat n.toFloat := by
  have hnormalize := isRounded_normalize n.toNat 0 .positive
  rw [zpow_zero, mul_one, Int.cast_natCast] at hnormalize
  exact rounds_of_isRounded rfl hnormalize

/-- **A natural number as a double.** -/
theorem toRat_ofNat {n : ℕ} (hn : n < 2 ^ 53) :
    (Float.ofNat n).isFinite = true ∧ toRat (Float.ofNat n) = n := by
  have hone : toRat (Float.ofBits 0x3FF0000000000000) = 1 := by
    have hunpack : (Float.ofBits 0x3FF0000000000000).toModel.unpack
        = .finite .positive (2 ^ 52) (-52) (by norm_num) := by rfl
    rw [toRat, hunpack, value_positive]
    norm_num
  have hcast : n.toUInt64.toNat = n := Nat.mod_eq_of_lt (by omega)
  obtain ⟨hfinite, hvalue⟩ :=
    Rounds.toRat_eq_natCast hn (hcast ▸ rounds_toFloat n.toUInt64)
  have hproduct := rounds_mul hfinite
    (y := Float.ofBits 0x3FF0000000000000) (by rfl)
  rw [hone, hvalue, mul_one] at hproduct
  have hofNat : Float.ofNat n
      = n.toUInt64.toFloat * Float.ofBits 0x3FF0000000000000 := by
    change Float.ofScientific n false 0 = _
    unfold Float.ofScientific
    rw [dif_pos ⟨hn, by norm_num⟩]
    rfl
  rw [hofNat]
  exact hproduct.toRat_eq_natCast hn

/-! ## Cutting off -/

/-- What is left of a positive double when its fraction is cut off. -/
theorem roundToInt_positive_le (m : ℕ) (e : ℤ) :
    ((roundToInt .positive m e : ℤ) : ℚ) ≤ m * 2 ^ e := by
  have hdecrease := decreaseExponent_eq m e 0
  have hexponent : (decreaseExponent m e 0).2 ≤ 0 := by
    change e - ((e - 0).toNat : ℤ) ≤ 0
    omega
  have hround : roundToInt .positive m e
      = ((ExtendedMantissa.ofMantissaAndAccuracy (decreaseExponent m e 0).1 .exact
          >>> (0 - (decreaseExponent m e 0).2).toNat).mantissa : ℤ) := rfl
  rw [hround]
  generalize decreaseExponent m e 0 = decreased at *
  obtain ⟨k, hk⟩ := Int.le.dest hexponent
  have hshift : (0 - decreased.2).toNat = k := by omega
  have hle := ((represents_exact decreased.1).shiftRight k).mantissa_le
  rw [hshift, ← hdecrease, show decreased.2 = -k by omega, zpow_neg,
    zpow_natCast, ← div_eq_mul_inv, Int.cast_natCast]
  exact hle

theorem toNat_ofNatClamp_le (n : ℕ) : (UInt64.ofNatClamp n).toNat ≤ n := by
  unfold UInt64.ofNatClamp
  split
  · exact UInt64.toNat_ofNatLT.le
  · next hlarge =>
    rw [UInt64.toNat_ofNatLT]
    omega

/-- **A double that does not exceed a natural number** is cut off to no more. -/
theorem toNat_toUInt64_le {x : Float} {n : ℕ} (hn : n < 2 ^ 53)
    (h : ¬ Float.ofNat n < x) : x.toUInt64.toNat ≤ n := by
  obtain ⟨hfinite, hvalue⟩ := toRat_ofNat hn
  have hcut : x.toUInt64.toNat
      ≤ (toInt 0 (UInt64.size - 1) x.toModel.unpack).toNat :=
    toNat_ofNatClamp_le _
  refine hcut.trans ?_
  cases hu : x.toModel.unpack with
  | notANumber => exact Nat.zero_le n
  | infinity sign =>
    cases sign with
    | negative => exact Nat.zero_le n
    | positive => exact absurd (lt_of_infinity hu hfinite) h
  | zero sign => exact Nat.zero_le n
  | finite sign m e hm =>
    cases sign with
    | negative =>
      have hnonpos : toInt 0 (UInt64.size - 1) (.finite .negative m e hm) ≤ 0 :=
        neg_nonpos.mpr (Int.natCast_nonneg _)
      omega
    | positive =>
      have hx : x.isFinite = true := congrArg isFinite hu
      rw [lt_iff_toRat hfinite hx, hvalue, toRat, hu, value_positive,
        not_lt] at h
      have hle : ((roundToInt .positive m e : ℤ) : ℚ) ≤ (n : ℤ) :=
        (roundToInt_positive_le m e).trans h
      exact Int.toNat_le.mpr (by exact_mod_cast hle)

/-! ## Multiples of a step -/

section Steps

variable {step : Float} (hstep : step.isFinite = true)

include hstep

/-- **A rounded multiple** is relatively close to the exact one. -/
theorem abs_toRat_step_sub_le {i : ℕ} (hi : i < 2 ^ 53)
    (hfinite : (Float.ofNat i * step).isFinite = true) :
    |toRat (Float.ofNat i * step) - i * toRat step|
      ≤ unitRoundoff * |i * toRat step| := by
  obtain ⟨hofNat, hvalue⟩ := toRat_ofNat hi
  have hrounded := (rounds_mul hofNat hstep).rounded hfinite
  rw [hvalue] at hrounded
  obtain ⟨k, hk⟩ := exists_toRat_eq hstep
  exact hrounded.close_of_multiple
    ⟨i * k, by rw [hk, Int.cast_mul, Int.cast_natCast, mul_assoc]⟩

/-- **Of a million multiples** each is most of a step beyond the one before. -/
theorem toRat_step_add_le (hpos : 0 < toRat step) {i j : ℕ} (hij : i < j)
    (hj : j ≤ 1000000) (hi' : (Float.ofNat i * step).isFinite = true)
    (hj' : (Float.ofNat j * step).isFinite = true) :
    toRat (Float.ofNat i * step) + 3 / 4 * toRat step
      ≤ toRat (Float.ofNat j * step) := by
  have hlow := abs_le.mp (abs_toRat_step_sub_le hstep (by omega) hi')
  have hhigh := abs_le.mp (abs_toRat_step_sub_le hstep (by omega) hj')
  rw [abs_of_nonneg (by positivity)] at hlow hhigh
  have hnext : (i : ℚ) + 1 ≤ j := by exact_mod_cast hij
  have hmany : (j : ℚ) ≤ 1000000 := by exact_mod_cast hj
  -- the errors of both come to a fraction of the step
  have herrors : unitRoundoff * (i + j) * toRat step ≤ 1 / 4 * toRat step := by
    refine mul_le_mul_of_nonneg_right ?_ hpos.le
    have hunit : unitRoundoff * 2000000 ≤ 1 / 4 := by
      rw [unitRoundoff]
      norm_num
    exact (mul_le_mul_of_nonneg_left (by linarith) unitRoundoff_pos.le).trans hunit
  have hdistance : toRat step ≤ j * toRat step - i * toRat step := by
    rw [← sub_mul]
    exact le_mul_of_one_le_left hpos.le (by linarith)
  linarith [hlow.2, hhigh.1]

end Steps

end Stepwise.Double
