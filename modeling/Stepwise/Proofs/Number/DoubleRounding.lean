import Stepwise.Proofs.Number.DoubleSum

/-!
# Rounding to doubles

The result of an operation on doubles is the exact number rounded: in units of
the last place it is the nearest integer, a half going to the even neighbour. A
mantissa and the two bits behind it hold what is needed for this, also when bits
are shifted out (`Double.Represents.shiftRight`).

What is used of a rounding is gathered in `Double.IsRounded`. No number that
doubles can express lies between a number and its rounding, so the rounding keeps
on the side of every double on which the number is; none is closer, so rounding
keeps the order of numbers (`Double.IsRounded.le_of_lt`); the two are close; and
the rounding is too large for a double exactly if the number reaches
`Double.overflowBound`. The rounding of a mantissa with the bits behind it is of
this kind (`Double.isRounded_roundWithAccuracy`), and so is that of an integer at
any exponent (`Double.isRounded_normalize`).
-/

namespace Stepwise.Double

open Float.Model (UnpackedFloat Format totalExponent)
open Float.Model.UnpackedFloat

/-! ## Numbers between doubles -/

/-- **A number that doubles can express**, but for its size: a mantissa of up to
53 bits at an exponent that is not too small. -/
def IsRepresentable (z : ℚ) : Prop :=
  ∃ n e : ℤ, |n| < 2 ^ 53 ∧ -1074 ≤ e ∧ z = n * 2 ^ e

/-- The largest double. -/
def largest : ℚ := (2 ^ 53 - 1) * 2 ^ (971 : ℤ)

/-- Half a unit above the largest double. -/
def overflowBound : ℚ := (2 ^ 53 - 1 / 2) * 2 ^ (971 : ℤ)

/-- How far a rounding is from the number at most, in relation to it. -/
def unitRoundoff : ℚ := 2 ^ (-53 : ℤ)

/-- How far a rounding is from a number at most that is too small to have 53
bits. -/
def underflowError : ℚ := 2 ^ (-1075 : ℤ)

/-- **A number and its rounding.** No number that can be expressed lies between
the two, nor is any closer, they are half a unit in the last place apart at most,
and they are together too large for a double. -/
structure IsRounded (v r : ℚ) : Prop where
  ge : ∀ z, IsRepresentable z → z ≤ v → z ≤ r
  le : ∀ z, IsRepresentable z → v ≤ z → r ≤ z
  nearest : ∀ z, IsRepresentable z → |r - v| ≤ |z - v|
  close : |r - v| ≤ max (unitRoundoff * |v|) underflowError
  large : overflowBound ≤ |v| ↔ largest < |r|

theorem two_zpow_pos (e : ℤ) : (0 : ℚ) < 2 ^ e := zpow_pos two_pos e

theorem unitRoundoff_pos : 0 < unitRoundoff := two_zpow_pos _

theorem underflowError_pos : 0 < underflowError := two_zpow_pos _

theorem IsRepresentable.neg {z : ℚ} (h : IsRepresentable z) :
    IsRepresentable (-z) := by
  obtain ⟨n, e, hn, he, rfl⟩ := h
  exact ⟨-n, e, by rwa [abs_neg], he, by push_cast; ring⟩

theorem isRepresentable_zero : IsRepresentable 0 :=
  ⟨0, 0, by norm_num, by norm_num, by norm_num⟩

theorem isRepresentable_two_zpow {e : ℤ} (he : -1074 ≤ e) :
    IsRepresentable (2 ^ e) :=
  ⟨1, e, by norm_num, he, by rw [Int.cast_one, one_mul]⟩

theorem IsRounded.neg {v r : ℚ} (h : IsRounded v r) : IsRounded (-v) (-r) where
  ge z hz hle := le_neg.mp (h.le (-z) hz.neg (le_neg.mp hle))
  le z hz hle := neg_le.mp (h.ge (-z) hz.neg (neg_le.mp hle))
  nearest z hz := by
    have hmirror : z - -v = -(-z - v) := by ring
    rw [← neg_sub', abs_neg, hmirror, abs_neg]
    exact h.nearest (-z) hz.neg
  close := by
    rw [← neg_sub', abs_neg, abs_neg]
    exact h.close
  large := by
    rw [abs_neg, abs_neg]
    exact h.large

/-- **Rounding keeps the order** of numbers. -/
theorem IsRounded.le_of_lt {v r v' r' : ℚ} (h : IsRounded v r)
    (h' : IsRounded v' r') (hr : IsRepresentable r) (hr' : IsRepresentable r')
    (hlt : v < v') : r ≤ r' := by
  by_contra hgt
  -- `v` would be in the upper half of the way from `r'` to `r`, `v'` in the lower
  have hupper := sq_le_sq.mpr (h.nearest r' hr')
  have hlower := sq_le_sq.mpr (h'.nearest r hr)
  nlinarith [mul_pos (sub_pos.mpr (not_le.mp hgt)) (sub_pos.mpr hlt)]

theorem IsRounded.apply {v r : ℚ} (h : IsRounded v r) (sign : Sign) :
    IsRounded (sign.apply 1 * v) (sign.apply 1 * r) := by
  cases sign with
  | negative =>
    rw [Sign.apply, Int.cast_neg, Int.cast_one, neg_one_mul, neg_one_mul]
    exact h.neg
  | positive => rwa [Sign.apply, Int.cast_one, one_mul, one_mul]

/-- **A number that can be expressed is a multiple of a unit**, or too small to
need it. -/
theorem IsRepresentable.multiple_or_lt {z : ℚ} (h : IsRepresentable z)
    (t : ℤ) :
    (∃ k : ℤ, z = k * 2 ^ t) ∨ (t ≠ -1074 ∧ |z| < 2 ^ 52 * 2 ^ t) := by
  obtain ⟨n, e, hn, he, rfl⟩ := h
  rcases le_or_gt t e with hte | het
  · left
    obtain ⟨k, rfl⟩ := Int.le.dest hte
    exact ⟨n * 2 ^ k, by
      rw [zpow_add₀ two_ne_zero, zpow_natCast]
      push_cast
      ring⟩
  · right
    refine ⟨by omega, ?_⟩
    have hn' : |(n : ℚ)| < 2 ^ 53 := by exact_mod_cast hn
    calc |(n : ℚ) * 2 ^ e| = |(n : ℚ)| * 2 ^ e := by
          rw [abs_mul, abs_of_pos (two_zpow_pos e)]
      _ < 2 ^ 53 * 2 ^ e := mul_lt_mul_of_pos_right hn' (two_zpow_pos e)
      _ ≤ 2 ^ 53 * 2 ^ (t - 1) :=
          mul_le_mul_of_nonneg_left
            (zpow_le_zpow_right₀ one_le_two (by omega)) (by norm_num)
      _ = 2 ^ 52 * 2 ^ t := by
          rw [zpow_sub₀ two_ne_zero]
          ring

/-- **A multiple of the least double** is rounded with a relative error only, for
if it is small it can be expressed. -/
theorem IsRounded.close_of_multiple {v r : ℚ} (h : IsRounded v r)
    (hv : ∃ k : ℤ, v = k * 2 ^ (-1074 : ℤ)) : |r - v| ≤ unitRoundoff * |v| := by
  obtain ⟨k, rfl⟩ := hv
  have hunit := two_zpow_pos (-1074)
  rcases lt_or_ge |k| (2 ^ 53) with hlt | hge
  · have hrepresentable : IsRepresentable (k * 2 ^ (-1074 : ℤ)) :=
      ⟨k, -1074, hlt, le_rfl, rfl⟩
    rw [le_antisymm (h.le _ hrepresentable le_rfl)
      (h.ge _ hrepresentable le_rfl), sub_self, abs_zero]
    exact mul_nonneg unitRoundoff_pos.le (abs_nonneg _)
  · refine h.close.trans (max_le le_rfl ?_)
    have hge' : (2 : ℚ) ^ 53 ≤ |(k : ℚ)| := by exact_mod_cast hge
    calc underflowError ≤ 2 ^ (-1074 : ℤ) :=
          zpow_le_zpow_right₀ one_le_two (by norm_num)
      _ = unitRoundoff * (2 ^ 53 * 2 ^ (-1074 : ℤ)) := by
          have hone : unitRoundoff * 2 ^ 53 = 1 := by
            rw [unitRoundoff]
            norm_num
          rw [← mul_assoc, hone, one_mul]
      _ ≤ unitRoundoff * |(k : ℚ) * 2 ^ (-1074 : ℤ)| := by
          rw [abs_mul, abs_of_pos hunit]
          exact mul_le_mul_of_nonneg_left
            (mul_le_mul_of_nonneg_right hge' hunit.le) unitRoundoff_pos.le

/-- **The nearest integer**, a half going to the even neighbour. -/
structure IsNearest (x : ℚ) (r : ℕ) : Prop where
  lower : (r : ℚ) - 1 / 2 ≤ x
  upper : x ≤ r + 1 / 2
  tie : x = r + 1 / 2 → r % 2 = 0

section Units

variable {r : ℕ} {t : ℤ} {x : ℚ} (hr : IsNearest x r)

include hr

/-- An integer does not lie between a number and the nearest integer. -/
theorem IsNearest.int_le {k : ℤ} (hk : (k : ℚ) ≤ x) : (k : ℚ) ≤ r := by
  have hlt : (k : ℚ) < (r : ℤ) + 1 := by
    have hupper := hr.upper
    push_cast
    linarith
  have hle : k ≤ r := Int.lt_add_one_iff.mp (by exact_mod_cast hlt)
  exact_mod_cast hle

theorem IsNearest.le_int {k : ℤ} (hk : x ≤ (k : ℚ)) : (r : ℚ) ≤ k := by
  have hlt : ((r : ℤ) : ℚ) < k + 1 := by
    have hlower := hr.lower
    push_cast
    linarith
  have hle : (r : ℤ) ≤ k := Int.lt_add_one_iff.mp (by exact_mod_cast hlt)
  exact_mod_cast hle

theorem IsNearest.abs_sub_le_half : |(r : ℚ) - x| ≤ 1 / 2 :=
  abs_le.mpr ⟨by linarith [hr.upper], by linarith [hr.lower]⟩

/-- No integer is closer than the nearest one. -/
theorem IsNearest.abs_sub_le_int (k : ℤ) : |(r : ℚ) - x| ≤ |(k : ℚ) - x| := by
  have hhalf := hr.abs_sub_le_half
  rcases eq_or_ne k r with rfl | hne
  · exact le_of_eq (by push_cast; rfl)
  · have hone : (1 : ℚ) ≤ |(k : ℚ) - r| := by
      exact_mod_cast Int.one_le_abs (sub_ne_zero.mpr hne)
    have htriangle := abs_sub_le (k : ℚ) x r
    rw [abs_sub_comm x] at htriangle
    linarith

theorem IsNearest.two_pow_le {k : ℕ} (hk : 2 ^ k ≤ x) : (2 : ℚ) ^ k ≤ r := by
  have hcast : ((2 ^ k : ℤ) : ℚ) = 2 ^ k := by push_cast; rfl
  exact hcast ▸ hr.int_le (hcast.trans_le hk)

theorem IsNearest.le_two_pow {k : ℕ} (hk : x ≤ 2 ^ k) : (r : ℚ) ≤ 2 ^ k := by
  have hcast : ((2 ^ k : ℤ) : ℚ) = 2 ^ k := by push_cast; rfl
  exact hcast ▸ hr.le_int (hk.trans_eq hcast.symm)

/-- **No number that can be expressed is closer** than the nearest number of
units: one that is no number of units is so small that 53 bits lie between. -/
theorem IsNearest.abs_sub_le (hfull : t = -1074 ∨ 2 ^ 52 ≤ x) {z : ℚ}
    (hz : IsRepresentable z) : |(r : ℚ) * 2 ^ t - x * 2 ^ t| ≤ |z - x * 2 ^ t| := by
  have hunit := two_zpow_pos t
  have hunits : ∀ k : ℤ,
      |(r : ℚ) * 2 ^ t - x * 2 ^ t| ≤ |(k : ℚ) * 2 ^ t - x * 2 ^ t| := by
    intro k
    rw [← sub_mul, ← sub_mul, abs_mul, abs_mul]
    exact mul_le_mul_of_nonneg_right (hr.abs_sub_le_int k) (abs_nonneg _)
  rcases hz.multiple_or_lt t with ⟨k, rfl⟩ | ⟨hne, hlt⟩
  · exact hunits k
  · have hbelow : z ≤ ((2 ^ 52 : ℤ) : ℚ) * 2 ^ t := by
      push_cast
      exact (le_abs_self z).trans hlt.le
    have habove : ((2 ^ 52 : ℤ) : ℚ) * 2 ^ t ≤ x * 2 ^ t := by
      push_cast
      exact mul_le_mul_of_nonneg_right (hfull.resolve_left hne) hunit.le
    refine (hunits (2 ^ 52)).trans ?_
    rw [abs_of_nonpos (by linarith), abs_of_nonpos (by linarith)]
    linarith

/-- **When a mantissa is rounded up to 54 bits.** The largest mantissa is odd, so
a number half a unit above it goes to the one beyond. -/
theorem IsNearest.le_iff_lt :
    2 ^ 53 - 1 / 2 ≤ x ↔ (2 ^ 53 - 1 : ℚ) < r := by
  have hlower := hr.lower
  have hupper := hr.upper
  constructor
  · intro h
    have hne : r ≠ 2 ^ 53 - 1 := by
      rintro rfl
      rw [Nat.cast_sub (by norm_num)] at hupper
      have htie := hr.tie (by
        rw [Nat.cast_sub (by norm_num)]
        push_cast at hupper ⊢
        linarith)
      omega
    have hge : 2 ^ 53 ≤ r + 1 := by
      have hcast : (2 : ℚ) ^ 53 ≤ r + 1 := by linarith
      exact_mod_cast hcast
    have hfull : 2 ^ 53 ≤ r := by omega
    have hfull' : (2 : ℚ) ^ 53 ≤ r := by exact_mod_cast hfull
    linarith
  · intro h
    have hlt : 2 ^ 53 < r + 1 := by
      have hcast : (2 : ℚ) ^ 53 < r + 1 := by linarith
      exact_mod_cast hcast
    have hfull : 2 ^ 53 ≤ r := by omega
    have hfull' : (2 : ℚ) ^ 53 ≤ r := by exact_mod_cast hfull
    linarith

/-- **When a rounding is too large**: at the largest exponent this is a matter of
the mantissa, below it never happens, and above it always does. -/
theorem IsNearest.overflow_iff (hfull : t = -1074 ∨ 2 ^ 52 ≤ x)
    (hbits : x < 2 ^ 53) :
    overflowBound ≤ x * 2 ^ t ↔ largest < r * 2 ^ t := by
  have hunit := two_zpow_pos 971
  have hstep : ∀ e : ℤ, (2 : ℚ) ^ (e + 1) = 2 ^ e * 2 :=
    zpow_add_one₀ two_ne_zero
  rw [overflowBound, largest]
  rcases lt_trichotomy t 971 with ht | rfl | ht
  · have hcap := hr.le_two_pow hbits.le
    have hle : (2 : ℚ) ^ t ≤ 2 ^ (970 : ℤ) :=
      zpow_le_zpow_right₀ one_le_two (by omega)
    have hpos := two_zpow_pos t
    rw [show (971 : ℤ) = 970 + 1 from rfl, hstep]
    generalize (2 : ℚ) ^ (970 : ℤ) = half at *
    constructor <;> intro h <;> exfalso <;> nlinarith
  · rw [mul_le_mul_iff_left₀ hunit, mul_lt_mul_iff_left₀ hunit]
    exact hr.le_iff_lt
  · have hx : 2 ^ 52 ≤ x := hfull.resolve_left (by omega)
    have hr' := hr.two_pow_le hx
    have hle : (2 : ℚ) ^ (971 + 1 : ℤ) ≤ 2 ^ t :=
      zpow_le_zpow_right₀ one_le_two (by omega)
    rw [hstep] at hle
    generalize (2 : ℚ) ^ (971 : ℤ) = unit at *
    constructor <;> intro _ <;> nlinarith

/-- **The nearest number of units** is a rounding, if the unit is the least or
there are 53 bits above it. -/
theorem IsNearest.isRounded (hfull : t = -1074 ∨ 2 ^ 52 ≤ x) (hpos : 0 ≤ x)
    (hbits : x < 2 ^ 53) : IsRounded (x * 2 ^ t) (r * 2 ^ t) := by
  have hunit := two_zpow_pos t
  have hr0 : (0 : ℚ) ≤ r := Nat.cast_nonneg r
  refine ⟨fun z hz hzv => ?_, fun z hz hvz => ?_,
    fun z hz => hr.abs_sub_le hfull hz, ?_, ?_⟩
  · rcases hz.multiple_or_lt t with ⟨k, rfl⟩ | ⟨hne, hlt⟩
    · exact mul_le_mul_of_nonneg_right
        (hr.int_le (le_of_mul_le_mul_right hzv hunit)) hunit.le
    · have hr52 := hr.two_pow_le (hfull.resolve_left hne)
      exact (le_abs_self z).trans
        (hlt.le.trans (mul_le_mul_of_nonneg_right hr52 hunit.le))
  · rcases hz.multiple_or_lt t with ⟨k, rfl⟩ | ⟨hne, hlt⟩
    · exact mul_le_mul_of_nonneg_right
        (hr.le_int (le_of_mul_le_mul_right hvz hunit)) hunit.le
    · refine absurd (hvz.trans_lt ((le_abs_self z).trans_lt hlt)) (not_lt.mpr ?_)
      exact mul_le_mul_of_nonneg_right (hfull.resolve_left hne) hunit.le
  · have hdist : |(r : ℚ) * 2 ^ t - x * 2 ^ t| ≤ 1 / 2 * 2 ^ t := by
      rw [← sub_mul, abs_mul, abs_of_pos hunit]
      exact mul_le_mul_of_nonneg_right hr.abs_sub_le_half hunit.le
    refine hdist.trans ?_
    rw [abs_of_nonneg (mul_nonneg hpos hunit.le)]
    rcases eq_or_ne t (-1074) with rfl | hne
    · refine le_max_of_le_right (le_of_eq ?_)
      rw [underflowError, one_div, ← zpow_neg_one, ← zpow_add₀ two_ne_zero]
      norm_num
    · refine le_max_of_le_left ?_
      calc (1 / 2 : ℚ) * 2 ^ t = unitRoundoff * (2 ^ 52 * 2 ^ t) := by
            rw [unitRoundoff, ← mul_assoc]
            norm_num
        _ ≤ unitRoundoff * (x * 2 ^ t) :=
            mul_le_mul_of_nonneg_left (mul_le_mul_of_nonneg_right
              (hfull.resolve_left hne) hunit.le) unitRoundoff_pos.le
  · rw [abs_of_nonneg (mul_nonneg hpos hunit.le),
      abs_of_nonneg (mul_nonneg hr0 hunit.le)]
    exact hr.overflow_iff hfull hbits

end Units

/-! ## Mantissas -/

/-- **The number that a mantissa stands for**, as far as the two bits behind it
tell: whether it is beyond the half, and whether anything else was cut off. -/
def Represents (em : ExtendedMantissa) (x : ℚ) : Prop :=
  match em.roundBit, em.stickyBit with
  | false, false => x = em.mantissa
  | false, true => em.mantissa < x ∧ x < em.mantissa + 1 / 2
  | true, false => x = em.mantissa + 1 / 2
  | true, true => em.mantissa + 1 / 2 < x ∧ x < em.mantissa + 1

section Represents

variable {em : ExtendedMantissa} {x : ℚ} (h : Represents em x)

include h

theorem Represents.mantissa_le : (em.mantissa : ℚ) ≤ x := by
  obtain ⟨m, _ | _, _ | _⟩ := em
  · exact (Eq.symm h).le
  · exact h.1.le
  · exact le_of_le_of_eq (by norm_num) (Eq.symm h)
  · exact le_trans (by norm_num) h.1.le

theorem Represents.lt_mantissa_add_one : x < em.mantissa + 1 := by
  obtain ⟨m, _ | _, _ | _⟩ := em
  · exact lt_of_eq_of_lt h (by norm_num)
  · exact h.2.trans (by norm_num)
  · exact lt_of_eq_of_lt h (by norm_num)
  · exact h.2

/-- **Shifting out a bit** halves the number. -/
theorem Represents.shiftRightOne : Represents em.shiftRightOne (x / 2) := by
  obtain ⟨m, r, s⟩ := em
  have hsplit : m % 2 + 2 * (m / 2) = m := Nat.mod_add_div m 2
  have hsplit' : ((m % 2 : ℕ) : ℚ) + 2 * ((m / 2 : ℕ) : ℚ) = m := by
    exact_mod_cast hsplit
  rcases Nat.mod_two_eq_zero_or_one m with hm | hm <;>
    rw [hm] at hsplit' <;> cases r <;> cases s <;>
    simp [Represents, ExtendedMantissa.shiftRightOne, hm] at h ⊢ <;>
    grind

theorem Represents.shiftRight (k : ℕ) : Represents (em >>> k) (x / 2 ^ k) := by
  induction k with
  | zero => rwa [pow_zero, div_one]
  | succ k ih =>
    rw [pow_succ, ← div_div]
    exact ih.shiftRightOne

/-- **Rounding a mantissa** gives the nearest integer. -/
theorem Represents.isNearest : IsNearest x em.roundedMantissa := by
  obtain ⟨m, _ | _, _ | _⟩ := em
  · obtain rfl : x = m := h
    change IsNearest (m : ℚ) m
    exact ⟨by linarith, by linarith, fun htie => by linarith⟩
  · obtain ⟨hlo, hhi⟩ : (m : ℚ) < x ∧ x < m + 1 / 2 := h
    change IsNearest x m
    exact ⟨by linarith, by linarith, fun htie => by linarith⟩
  · -- a tie, which goes to the even neighbour
    obtain rfl : x = m + 1 / 2 := h
    change IsNearest _ (m + m % 2)
    rcases Nat.mod_two_eq_zero_or_one m with heven | hodd
    · rw [heven, add_zero]
      exact ⟨by linarith, le_rfl, fun _ => heven⟩
    · rw [hodd]
      exact ⟨by push_cast; linarith, by push_cast; linarith,
        fun htie => by push_cast at htie; linarith⟩
  · obtain ⟨hlo, hhi⟩ : (m : ℚ) + 1 / 2 < x ∧ x < m + 1 := h
    change IsNearest x (m + 1)
    exact ⟨by push_cast; linarith, by push_cast; linarith,
      fun htie => by push_cast at htie; linarith⟩

end Represents

/-! ## Target exponents -/

theorem targetExponent_eq (m : ℕ) (e : ℤ) :
    Format.binary64.targetExponent (totalExponent m e)
      = max ((m.log2 : ℤ) + e - 52) (-1074) := by
  change max ((m.log2 : ℤ) + 1 + e - 53) (-1074) = _
  congr 1
  ring

/-- **How many bits are left** of a mantissa at its target exponent: no more
than 53, and no less unless the exponent is the least. -/
theorem div_two_pow_bounds (m : ℕ) {e : ℤ}
    (he : e ≤ Format.binary64.targetExponent (totalExponent m e)) :
    m / 2 ^ (Format.binary64.targetExponent (totalExponent m e) - e).toNat < 2 ^ 53
      ∧ (Format.binary64.targetExponent (totalExponent m e) = -1074
        ∨ 2 ^ 52
          ≤ m / 2 ^ (Format.binary64.targetExponent (totalExponent m e) - e).toNat) := by
  rw [targetExponent_eq] at he ⊢
  constructor
  · rw [Nat.div_lt_iff_lt_mul (Nat.two_pow_pos _), ← Nat.pow_add]
    exact Nat.lt_log2_self.trans_le (Nat.pow_le_pow_right two_pos (by omega))
  · by_cases hleast : (m.log2 : ℤ) + e - 52 ≤ -1074
    · exact .inl (max_eq_right hleast)
    · right
      have hm : m ≠ 0 := by
        rintro rfl
        rw [Nat.log2_zero] at *
        omega
      rw [Nat.le_div_iff_mul_le (Nat.two_pow_pos _), ← Nat.pow_add]
      exact (Nat.pow_le_pow_right two_pos (by omega)).trans (Nat.log2_self_le hm)

/-! ## Rounding -/

/-- The number that a double stands for, if it is finite. -/
def value : UnpackedFloat → ℚ
  | .finite sign m e _ => sign.apply m * 2 ^ e
  | _ => 0

/-- **The form in which doubles are kept**: up to 53 bits, and all of them unless
the exponent is the least. The exponent may be too large. -/
def IsCanonical : UnpackedFloat → Prop
  | .zero _ => True
  | .finite _ m e _ =>
    m < 2 ^ 53 ∧ -1074 ≤ e ∧ (e = -1074 ∨ 2 ^ 52 ≤ m)
  | _ => False

theorem apply_cast (sign : Sign) (m : ℕ) :
    ((sign.apply m : ℤ) : ℚ) = (sign.apply 1 : ℤ) * (m : ℚ) := by
  cases sign <;> simp [Sign.apply]

/-- Up to 53 bits are not shifted any further. -/
theorem shiftToTargetExponent_of_lt {m : ℕ} {e : ℤ} (hm : m < 2 ^ 53)
    (he : -1074 ≤ e) :
    shiftToTargetExponent Format.binary64 m e .exact = (⟨m, false, false⟩, e) := by
  have hlog : m.log2 < 53 := log2_lt (by norm_num) hm
  have hshift :
      (Format.binary64.targetExponent (totalExponent m e) - e).toNat = 0 := by
    rw [targetExponent_eq]
    omega
  unfold shiftToTargetExponent shiftToExponent
  dsimp only
  rw [hshift]
  exact congrArg (Prod.mk _) (add_zero e)

/-- What was rounded up to 54 bits is shifted by one. -/
theorem shiftToTargetExponent_two_pow {e : ℤ} (he : -1074 ≤ e) :
    shiftToTargetExponent Format.binary64 (2 ^ 53) e .exact
      = (⟨2 ^ 52, false, false⟩, e + 1) := by
  have hshift : (Format.binary64.targetExponent (totalExponent (2 ^ 53) e)
      - e).toNat = 1 := by
    rw [targetExponent_eq, Nat.log2_two_pow]
    omega
  unfold shiftToTargetExponent shiftToExponent
  dsimp only
  rw [hshift]
  rfl

/-- What a mantissa that was rounded is put together to. -/
theorem value_of_shiftToTargetExponent {r : ℕ} {t : ℤ} (hr : r ≤ 2 ^ 53)
    (ht : -1074 ≤ t) (hfull : t = -1074 ∨ 2 ^ 52 ≤ r) :
    ∃ m e, (shiftToTargetExponent Format.binary64 r t .exact)
        = (⟨m, false, false⟩, e)
      ∧ (m : ℚ) * 2 ^ e = r * 2 ^ t
      ∧ m < 2 ^ 53 ∧ -1074 ≤ e ∧ (e = -1074 ∨ 2 ^ 52 ≤ m) := by
  rcases hr.lt_or_eq with hlt | rfl
  · exact ⟨r, t, shiftToTargetExponent_of_lt hlt ht, rfl, hlt, ht, hfull⟩
  · refine ⟨2 ^ 52, t + 1, shiftToTargetExponent_two_pow ht, ?_, by norm_num,
      by omega, .inr le_rfl⟩
    rw [zpow_add_one₀ two_ne_zero]
    push_cast
    ring

/-- What is left of a mantissa at its target exponent. -/
theorem exists_shiftToTargetExponent_eq {m : ℕ} {e : ℤ} {accuracy : Accuracy}
    {x : ℚ} (h : Represents (.ofMantissaAndAccuracy m accuracy) x)
    (he : e ≤ Format.binary64.targetExponent (totalExponent m e)) :
    ∃ (em : ExtendedMantissa) (k : ℕ),
      shiftToTargetExponent Format.binary64 m e accuracy = (em, e + k)
        ∧ Represents em (x / 2 ^ k) ∧ em.mantissa < 2 ^ 53 ∧ -1074 ≤ e + k
        ∧ (e + k = -1074 ∨ 2 ^ 52 ≤ em.mantissa) := by
  obtain ⟨hbits, hfull⟩ := div_two_pow_bounds m he
  have hleast : -1074 ≤ Format.binary64.targetExponent (totalExponent m e) :=
    le_max_right _ _
  generalize hk : (Format.binary64.targetExponent (totalExponent m e) - e).toNat
    = k at hbits hfull
  have hexponent : Format.binary64.targetExponent (totalExponent m e) = e + k := by
    omega
  have hmantissa :
      (ExtendedMantissa.ofMantissaAndAccuracy m accuracy >>> k).mantissa
        = m / 2 ^ k := by
    rw [mantissa_shiftRight]
    rcases accuracy with _ | _ | _ | _ <;> rfl
  rw [hexponent] at hfull hleast
  refine ⟨_, k, ?_, h.shiftRight k, hmantissa ▸ hbits, hleast,
    hmantissa ▸ hfull⟩
  unfold shiftToTargetExponent shiftToExponent
  dsimp only
  rw [hk]

/-- **What rounding to a double gives**: a number in the form of a double that is
a rounding of the exact one. -/
theorem isRounded_roundWithAccuracy {m : ℕ} {e : ℤ} {accuracy : Accuracy}
    {x : ℚ} (h : Represents (.ofMantissaAndAccuracy m accuracy) x)
    (he : e ≤ Format.binary64.targetExponent (totalExponent m e)) (sign : Sign) :
    IsCanonical (roundWithAccuracy Format.binary64 sign m e accuracy)
      ∧ IsRounded (sign.apply 1 * (x * 2 ^ e))
        (value (roundWithAccuracy Format.binary64 sign m e accuracy)) := by
  obtain ⟨em, k, hfirst, hem, hbits, hleast, hfull⟩ :=
    exists_shiftToTargetExponent_eq h he
  have hle := hem.mantissa_le
  have hlt : x / 2 ^ k < 2 ^ 53 := by
    refine hem.lt_mantissa_add_one.trans_le ?_
    exact_mod_cast Nat.succ_le_of_lt hbits
  have hfull' : e + k = -1074 ∨ (2 : ℚ) ^ 52 ≤ x / 2 ^ k :=
    hfull.imp_right fun hge => le_trans (by exact_mod_cast hge) hle
  have hrounded := (hem.isNearest.isRounded hfull'
    ((Nat.cast_nonneg _).trans hle) hlt).apply sign
  -- the exact number in terms of the unit that it is rounded to
  have hexact : x / 2 ^ k * 2 ^ (e + k) = x * 2 ^ e := by
    rw [zpow_add₀ two_ne_zero, zpow_natCast]
    field_simp
  have hnearest := hem.isNearest
  obtain ⟨m', e', hlast, hvalue, hcanonical⟩ :=
    value_of_shiftToTargetExponent
      (by exact_mod_cast hnearest.le_two_pow hlt.le) hleast
      (hfull'.imp_right fun hge => by exact_mod_cast hnearest.two_pow_le hge)
  rw [hexact, ← hvalue] at hrounded
  unfold roundWithAccuracy
  rw [hfirst]
  dsimp only
  rw [hlast]
  dsimp only
  split
  · next hzero =>
    rw [hzero, Nat.cast_zero, zero_mul, mul_zero] at hrounded
    exact ⟨trivial, hrounded⟩
  · refine ⟨hcanonical, ?_⟩
    rwa [value, apply_cast, mul_assoc]

theorem log2_mul_two_pow {m : ℕ} (hm : m ≠ 0) (k : ℕ) :
    (m * 2 ^ k).log2 = m.log2 + k := by
  induction k with
  | zero => rw [pow_zero, mul_one, add_zero]
  | succ k ih =>
    have hne : m * 2 ^ k ≠ 0 := Nat.mul_ne_zero hm (Nat.two_pow_pos k).ne'
    rw [pow_succ', mul_left_comm, Nat.log2_two_mul hne, ih, add_assoc]

/-- Decreasing the exponent changes nothing. -/
theorem decreaseExponent_eq (m : ℕ) (e target : ℤ) :
    ((decreaseExponent m e target).1 : ℚ) * 2 ^ (decreaseExponent m e target).2
      = m * 2 ^ e := by
  unfold decreaseExponent
  dsimp only
  rw [Nat.shiftLeft_eq, zpow_sub₀ two_ne_zero, zpow_natCast]
  have hpos : (2 : ℚ) ^ (e - target).toNat ≠ 0 := by positivity
  push_cast
  field_simp

theorem represents_exact (m : ℕ) :
    Represents (.ofMantissaAndAccuracy m .exact) m := rfl

/-- **Rounding of a mantissa at any exponent.** -/
theorem isRounded_round {m : ℕ} (hm : 0 < m) (e : ℤ) (sign : Sign) :
    IsCanonical (UnpackedFloat.round Format.binary64 sign m e)
      ∧ IsRounded (sign.apply 1 * (m * 2 ^ e))
        (value (UnpackedFloat.round Format.binary64 sign m e)) := by
  rw [← decreaseExponent_eq m e
    (Format.binary64.targetExponent (totalExponent m e))]
  refine isRounded_roundWithAccuracy (represents_exact _) ?_ sign
  rw [targetExponent_eq, targetExponent_eq, Nat.shiftLeft_eq,
    log2_mul_two_pow hm.ne']
  push_cast
  omega

theorem isRounded_zero : IsRounded 0 0 where
  ge _ _ h := h
  le _ _ h := h
  nearest z _ := by
    rw [sub_zero, abs_zero]
    exact abs_nonneg _
  close := by
    rw [sub_zero, abs_zero]
    exact le_max_of_le_right underflowError_pos.le
  large := by
    rw [abs_zero, overflowBound, largest]
    have hunit := two_zpow_pos 971
    generalize (2 : ℚ) ^ (971 : ℤ) = unit at hunit
    constructor <;> intro h <;> exfalso <;> linarith

/-- **Rounding of an integer at any exponent.** -/
theorem isRounded_normalize (n e : ℤ) (sign : Sign) :
    IsCanonical (UnpackedFloat.normalize Format.binary64 n e sign)
      ∧ IsRounded (n * 2 ^ e)
        (value (UnpackedFloat.normalize Format.binary64 n e sign)) := by
  unfold UnpackedFloat.normalize
  split
  · next h =>
    rw [Int.compare_eq_lt] at h
    obtain ⟨k, rfl⟩ : ∃ k : ℕ, n = -k := ⟨(-n).toNat, by omega⟩
    rw [neg_neg, Int.toNat_natCast]
    have hround := isRounded_round (m := k) (by omega) e .negative
    rwa [Sign.apply, Int.cast_neg, Int.cast_one, neg_one_mul, ← neg_mul,
      ← Int.cast_natCast k, ← Int.cast_neg] at hround
  · next h =>
    rw [Int.compare_eq_eq] at h
    rw [h, Int.cast_zero, zero_mul]
    exact ⟨trivial, isRounded_zero⟩
  · next h =>
    rw [Int.compare_eq_gt] at h
    obtain ⟨k, rfl⟩ : ∃ k : ℕ, n = k := ⟨n.toNat, by omega⟩
    rw [Int.toNat_natCast]
    have hround := isRounded_round (m := k) (by omega) e .positive
    rwa [Sign.apply, Int.cast_one, one_mul, ← Int.cast_natCast k] at hround

end Stepwise.Double
