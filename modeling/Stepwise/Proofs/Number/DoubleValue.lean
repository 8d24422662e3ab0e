import Stepwise.Proofs.Number.DoubleRounding

/-!
# The arithmetic of doubles

A finite double is a rational number (`Double.toRat`), and the order of finite
doubles is the order of these numbers (`Double.le_iff_toRat`). The sum of two
doubles is the exact sum rounded: in `Double.Rounds v x` the double `x` stands for
the rounding of `v` if it is finite, and it is infinite, of the sign of `v`, exactly
if `v` reaches the bound from which on numbers are too large. The same holds of
differences, products and quotients (`Double.rounds_add`, `Double.rounds_sub`,
`Double.rounds_mul`, `Double.rounds_div`).

An operation is done on a mantissa and an exponent, and its result is put together
to 64 bits. A mantissa that fits comes back from them as it was
(`Double.unpack_pack_finite`). The quotient of two mantissas is taken at an
exponent that leaves it bits enough to round (`Double.divCore_le_targetExponent`).
-/

namespace Stepwise.Double

open Float.Model (UnpackedFloat Format)
open Float.Model.UnpackedFloat

/-! ## Values -/

/-- **The number that a double is**, if it is finite. -/
def toRat (x : Float) : ℚ :=
  value x.toModel.unpack

theorem isCanonical_unpack {b : BitVec Format.binary64.numBits}
    (h : (unpack Format.binary64 b).isFinite = true) :
    IsCanonical (unpack Format.binary64 b) := by
  cases hu : unpack Format.binary64 b with
  | notANumber => rw [hu] at h; cases h
  | infinity sign => rw [hu] at h; cases h
  | zero sign => trivial
  | finite sign m e hm =>
    obtain ⟨hbits, hleast, -⟩ := unpack_eq_finite hu
    refine ⟨hbits, hleast, ?_⟩
    unfold unpack at hu
    dsimp only at hu
    split_ifs at hu with hinfinite _ hsubnormal hzero
    · cases hu
      have hexponent : (unpackExponent b).toNat = 0 :=
        congrArg BitVec.toNat hsubnormal
      left
      rw [hexponent]
      rfl
    · cases hu
      right
      rw [BitVec.toNat_append]
      exact Nat.left_le_or

theorem finite_congr {sign : Sign} {m m' : ℕ} {e e' : ℤ} {hm : 0 < m}
    {hm' : 0 < m'} (hmm : m = m') (hee : e = e') :
    UnpackedFloat.finite sign m e hm = .finite sign m' e' hm' := by
  subst hmm hee
  rfl

theorem ofBitVec_toBitVec (sign : Sign) : Sign.ofBitVec sign.toBitVec = sign := by
  cases sign <;> rfl

/-- A double with all its bits, of which the first is left out. -/
theorem unpack_normal {sign : Sign} {m biased : ℕ} (hm : 0 < m)
    (hlo : 2 ^ 52 ≤ m) (hhi : m < 2 ^ 53) (hpos : 0 < biased)
    (hbiased : biased < 2047) :
    unpack Format.binary64 (packComponents Format.binary64 sign
        (BitVec.ofNat _ biased) (BitVec.ofNat _ m))
      = .finite sign m (biased - 1075) hm := by
  have hexponent : (BitVec.ofNat 11 biased).toNat = biased :=
    Nat.mod_eq_of_lt (by omega)
  have hmantissa : (1#1 ++ BitVec.ofNat 52 m).toNat = m := by
    rw [BitVec.toNat_append, ← Nat.shiftLeft_add_eq_or_of_lt (BitVec.isLt _),
      Nat.shiftLeft_eq, BitVec.toNat_ofNat, BitVec.toNat_ofNat]
    omega
  unfold unpack
  simp only [unpackExponent_packComponents, unpackMantissa_packComponents,
    unpackSign_packComponents, ofBitVec_toBitVec]
  rw [if_neg, if_neg]
  · exact finite_congr hmantissa (by rw [hexponent]; rfl)
  · intro heq
    have hzero : biased = 0 := hexponent.symm.trans (congrArg BitVec.toNat heq)
    omega
  · intro heq
    have hall : biased = 2047 := hexponent.symm.trans (congrArg BitVec.toNat heq)
    omega

/-- A double at the least exponent that does not fill its bits. -/
theorem unpack_subnormal {sign : Sign} {m : ℕ} (hm : 0 < m) (hhi : m < 2 ^ 52) :
    unpack Format.binary64 (packComponents Format.binary64 sign 0#_
        (BitVec.ofNat _ m))
      = .finite sign m (-1074) hm := by
  have hmantissa : (BitVec.ofNat 52 m).toNat = m := Nat.mod_eq_of_lt hhi
  unfold unpack
  simp only [unpackExponent_packComponents, unpackMantissa_packComponents,
    unpackSign_packComponents, ofBitVec_toBitVec]
  rw [if_neg (by decide), if_pos trivial, dif_neg]
  · exact finite_congr hmantissa rfl
  · intro heq
    have hzero : m = 0 := hmantissa.symm.trans (congrArg BitVec.toNat heq)
    omega

/-- **A double that is put together and taken apart** is the same again, if its
exponent is not too large, and infinite if it is. -/
theorem unpack_pack_finite {sign : Sign} {m : ℕ} {e : ℤ} {hm : 0 < m}
    (h : IsCanonical (.finite sign m e hm)) :
    (Float.Model.pack (.finite sign m e hm)).unpack
      = if e ≤ 971 then .finite sign m e hm else .infinity sign := by
  obtain ⟨hbits, hleast, hfull⟩ := h
  change unpack Format.binary64 (pack Format.binary64 (.finite sign m e hm)) = _
  have hlog : m.log2 < 53 := log2_lt (by norm_num) hbits
  unfold pack
  dsimp only
  by_cases hlarge : e ≤ 971
  · rw [if_pos hlarge,
      if_neg (by change ¬ 2048 ≤ (e + 1023 + 52).toNat + 1; omega)]
    by_cases hnormal : 52 ≤ m.log2
    · rw [if_pos (by change m.log2 + 1 = 53; omega)]
      have hbiased : ((e + 1023 + 52).toNat : ℤ) - 1075 = e := by omega
      have hpos : 0 < (e + 1023 + 52).toNat := by omega
      have hlt : (e + 1023 + 52).toNat < 2047 := by omega
      rw [← finite_congr rfl hbiased]
      exact unpack_normal hm ((Nat.le_log2 hm.ne').mp hnormal) hbits hpos hlt
    · have hsmall : m < 2 ^ 52 := (Nat.log2_lt hm.ne').mp (by omega)
      rw [if_neg (by change ¬ m.log2 + 1 = 53; omega), unpack_subnormal hm hsmall]
      exact finite_congr rfl (by omega)
  · rw [if_neg hlarge,
      if_pos (by change 2048 ≤ (e + 1023 + 52).toNat + 1; omega)]
    unfold packedInfinity unpack
    simp only [unpackExponent_packComponents, unpackMantissa_packComponents,
      unpackSign_packComponents, ofBitVec_toBitVec]
    rfl

/-! ## Sizes -/

theorem isRepresentable_value {u : UnpackedFloat} (h : IsCanonical u) :
    IsRepresentable (value u) := by
  cases u with
  | finite sign m e hm =>
    refine ⟨sign.apply m, e, ?_, h.2.1, rfl⟩
    have hbits : (m : ℤ) < 2 ^ 53 := by exact_mod_cast h.1
    cases sign <;> simpa [Sign.apply] using hbits
  | _ => exact isRepresentable_zero

theorem abs_value_finite (sign : Sign) (m : ℕ) (e : ℤ) (hm : 0 < m) :
    |value (.finite sign m e hm)| = m * 2 ^ e := by
  rw [value, abs_mul, abs_of_pos (two_zpow_pos e)]
  cases sign <;> simp [Sign.apply]

theorem largest_pos : 0 < largest :=
  mul_pos (by norm_num) (two_zpow_pos 971)

theorem largest_lt_overflowBound : largest < overflowBound := by
  rw [largest, overflowBound]
  exact mul_lt_mul_of_pos_right (by norm_num) (two_zpow_pos 971)

/-- A double whose exponent is not too large. -/
theorem abs_value_le_largest {sign : Sign} {m : ℕ} {e : ℤ} {hm : 0 < m}
    (hbits : m < 2 ^ 53) (he : e ≤ 971) :
    |value (.finite sign m e hm)| ≤ largest := by
  have hbits' : (m : ℚ) ≤ 2 ^ 53 - 1 := by
    have hle : (m : ℚ) + 1 ≤ 2 ^ 53 := by exact_mod_cast hbits
    linarith
  rw [abs_value_finite, largest]
  exact mul_le_mul hbits' (zpow_le_zpow_right₀ one_le_two he)
    (two_zpow_pos e).le (by norm_num)

/-- A mantissa that fills its bits at an exponent that is too large. -/
theorem overflowBound_le_abs_value {sign : Sign} {m : ℕ} {e : ℤ} {hm : 0 < m}
    (hfull : 2 ^ 52 ≤ m) (he : 971 < e) :
    overflowBound ≤ |value (.finite sign m e hm)| := by
  have hfull' : (2 : ℚ) ^ 52 ≤ m := by exact_mod_cast hfull
  rw [abs_value_finite]
  calc overflowBound ≤ 2 ^ 52 * 2 ^ (972 : ℤ) := by
        have hunit := two_zpow_pos 971
        rw [overflowBound, show (972 : ℤ) = 971 + 1 from rfl,
          zpow_add_one₀ two_ne_zero]
        generalize (2 : ℚ) ^ (971 : ℤ) = unit at hunit
        linarith
    _ ≤ m * 2 ^ e := mul_le_mul hfull' (zpow_le_zpow_right₀ one_le_two he)
        (two_zpow_pos _).le (by positivity)

/-- **A number in the form of a double** is its own rounding. -/
theorem isRounded_value {u : UnpackedFloat} (hu : IsCanonical u) :
    IsRounded (value u) (value u) where
  ge _ _ hle := hle
  le _ _ hle := hle
  nearest z _ := by
    rw [sub_self, abs_zero]
    exact abs_nonneg _
  close := by
    rw [sub_self, abs_zero]
    exact le_max_of_le_right underflowError_pos.le
  large := by
    refine ⟨largest_lt_overflowBound.trans_le, fun hlt => ?_⟩
    cases u with
    | finite sign m e hm =>
      by_cases he : e ≤ 971
      · exact absurd hlt (not_lt.mpr (abs_value_le_largest hu.1 he))
      · exact overflowBound_le_abs_value (hu.2.2.resolve_left (by omega))
          (not_le.mp he)
    | _ => exact absurd hlt (not_lt.mpr (abs_zero.trans_le largest_pos.le))

/-- **A double that is a number rounded.** It is finite if the number does not
reach the bound, and infinite of the sign of the number if it does. -/
structure Rounds (v : ℚ) (x : Float) : Prop where
  isFinite_iff : x.isFinite = true ↔ |v| < overflowBound
  rounded : x.isFinite = true → IsRounded v (toRat x)
  infinite : x.isFinite = false →
    ∃ sign, x.toModel.unpack = .infinity sign ∧ 0 < sign.apply 1 * v

theorem rounds_of_isFinite {v : ℚ} {x : Float} (hx : x.isFinite = true)
    (h : IsRounded v (toRat x)) (hle : |toRat x| ≤ largest) : Rounds v x where
  isFinite_iff :=
    ⟨fun _ => lt_of_not_ge fun hge => (h.large.mp hge).not_ge hle, fun _ => hx⟩
  rounded _ := h
  infinite hinfinite := absurd (hx.symm.trans hinfinite) (by decide)

/-- **What is rounded and put together** is a rounding. -/
theorem rounds_of_isRounded {v : ℚ} {x : Float} {u : UnpackedFloat}
    (hx : x.toModel.unpack = (Float.Model.pack u).unpack)
    (h : IsCanonical u ∧ IsRounded v (value u)) : Rounds v x := by
  obtain ⟨hu, h⟩ := h
  cases u with
  | notANumber => exact hu.elim
  | infinity sign => exact hu.elim
  | zero sign =>
    have hzero : x.toModel.unpack = .zero sign := by
      rw [hx]
      cases sign <;> rfl
    have hvalue : toRat x = 0 := by
      rw [toRat, hzero]
      rfl
    refine rounds_of_isFinite (congrArg isFinite hzero) (hvalue ▸ h) ?_
    rw [hvalue, abs_zero]
    exact largest_pos.le
  | finite sign m e hm =>
    rw [unpack_pack_finite hu] at hx
    by_cases he : e ≤ 971
    · rw [if_pos he] at hx
      have hvalue : toRat x = value (.finite sign m e hm) := congrArg value hx
      refine rounds_of_isFinite (congrArg isFinite hx) (hvalue ▸ h) ?_
      rw [hvalue]
      exact abs_value_le_largest hu.1 he
    · rw [if_neg he] at hx
      have hinfinite : x.isFinite = false := congrArg isFinite hx
      have hlarge : overflowBound ≤ |v| :=
        h.large.mpr (largest_lt_overflowBound.trans_le
          (overflowBound_le_abs_value (hu.2.2.resolve_left (by omega))
            (not_le.mp he)))
      refine ⟨⟨fun hfinite => ?_, fun hlt => absurd hlarge (not_le.mpr hlt)⟩,
        fun hfinite => ?_, fun _ => ⟨sign, hx, lt_of_not_ge fun hle => ?_⟩⟩
      · exact absurd (hfinite.symm.trans hinfinite) (by decide)
      · exact absurd (hfinite.symm.trans hinfinite) (by decide)
      · -- the rounding has the sign of what is infinite
        have hnonpos := (h.apply sign).le 0 isRepresentable_zero hle
        have hpos : (0 : ℚ) < m * 2 ^ e :=
          mul_pos (by exact_mod_cast hm) (two_zpow_pos e)
        refine hpos.not_ge (le_of_eq_of_le ?_ hnonpos)
        rw [value, apply_cast, mul_assoc]
        cases sign <;> simp [Sign.apply]

/-! ## Operations -/

theorem apply_neg (sign : Sign) (n : ℤ) :
    (-sign).apply n = -sign.apply n := by
  cases sign with
  | negative => exact (neg_neg n).symm
  | positive => rfl

/-- The sign of a product. -/
theorem apply_mul (sign sign' : Sign) :
    (sign * sign').apply 1 = sign.apply 1 * sign'.apply 1 := by
  cases sign <;> cases sign' <;> rfl

/-- The sign of a quotient. -/
theorem apply_div (sign sign' : Sign) :
    (((sign / sign').apply 1 : ℤ) : ℚ)
      = (sign.apply 1 : ℤ) / (sign'.apply 1 : ℤ) := by
  have hne : ((sign'.apply 1 : ℤ) : ℚ) ≠ 0 := by
    cases sign' <;> norm_num [Sign.apply]
  have hmul : (sign / sign').apply 1 * sign'.apply 1 = sign.apply 1 := by
    cases sign <;> cases sign' <;> rfl
  rw [eq_div_iff hne]
  exact_mod_cast hmul

theorem apply_decreaseExponent (sign : Sign) (m : ℕ) {e t : ℤ} (ht : t ≤ e) :
    ((sign.apply (decreaseExponent m e t).1 : ℤ) : ℚ) * 2 ^ t
      = (sign.apply m : ℤ) * 2 ^ e := by
  have hexponent : (decreaseExponent m e t).2 = t := by
    change e - ((e - t).toNat : ℤ) = t
    omega
  have hvalue := decreaseExponent_eq m e t
  rw [hexponent] at hvalue
  rw [apply_cast, apply_cast, mul_assoc, hvalue, mul_assoc]

/-- A product has bits enough, or is too small to need them. -/
theorem add_le_targetExponent {m m' : ℕ} {e e' : ℤ} (hm : 0 < m) (hm' : 0 < m')
    (h : e = -1074 ∨ 2 ^ 52 ≤ m) (h' : e' = -1074 ∨ 2 ^ 52 ≤ m') :
    e + e' ≤ Format.binary64.targetExponent
      (Float.Model.totalExponent (m * m') (e + e')) := by
  rw [targetExponent_eq]
  by_cases hbits : 2 ^ 52 ≤ m * m'
  · have hlog := (Nat.le_log2 (Nat.mul_pos hm hm').ne').mpr hbits
    omega
  · have hle : m ≤ m * m' := Nat.le_mul_of_pos_right m hm'
    have hle' : m' ≤ m * m' := Nat.le_mul_of_pos_left m' hm
    omega

/-- The quotient of two mantissas: bits are appended to the dividend, so that
the exponent falls far enough below that of the quotient. -/
theorem exists_divCore_eq (m : ℕ) (e : ℤ) (m' : ℕ) (e' : ℤ) :
    ∃ (k : ℕ) (t : ℤ), e - e' = k + t
      ∧ t ≤ max ((m.log2 : ℤ) + e - (m'.log2 + e') - 53) (-1074)
      ∧ divCore Format.binary64 m e m' e'
        = (m * 2 ^ k / m', t, accuracyOfFraction (m * 2 ^ k % m') m') := by
  have htarget : Format.binary64.targetExponent
        (Float.Model.totalExponent m e - Float.Model.totalExponent m' e')
      = max ((m.log2 : ℤ) + e - (m'.log2 + e') - 53) (-1074) := by
    change max ((m.log2 : ℤ) + 1 + e - (m'.log2 + 1 + e') - 53) (-1074) = _
    congr 1
    ring
  refine ⟨(e - e' - min (e - e') (Format.binary64.targetExponent
    (Float.Model.totalExponent m e - Float.Model.totalExponent m' e'))).toNat,
    min (e - e') (Format.binary64.targetExponent
      (Float.Model.totalExponent m e - Float.Model.totalExponent m' e')),
    by omega, htarget ▸ min_le_right _ _, ?_⟩
  rw [← Nat.shiftLeft_eq]
  rfl

/-- **A quotient of integers** is the mantissa with what the remainder tells. -/
theorem represents_div (n : ℕ) {m' : ℕ} (hm' : 0 < m') :
    Represents (.ofMantissaAndAccuracy (n / m') (accuracyOfFraction (n % m') m'))
      ((n : ℚ) / m') := by
  have hpos : (0 : ℚ) < m' := by exact_mod_cast hm'
  have hdiv : m' * (n / m') + n % m' = n := Nat.div_add_mod n m'
  have hdiv' : (m' : ℚ) * (n / m' : ℕ) + (n % m' : ℕ) = n := by
    exact_mod_cast hdiv
  have hmod : n % m' < m' := Nat.mod_lt n hm'
  have hmod' : ((n % m' : ℕ) : ℚ) < m' := by exact_mod_cast hmod
  generalize n / m' = q at hdiv hdiv'
  generalize n % m' = rest at *
  unfold accuracyOfFraction
  split
  · next hzero =>
    change (n : ℚ) / m' = q
    rw [hzero, Nat.cast_zero, add_zero] at hdiv'
    rw [div_eq_iff hpos.ne', ← hdiv', mul_comm]
  · next hne =>
    have hrest : (0 : ℚ) < rest := by exact_mod_cast Nat.pos_of_ne_zero hne
    cases hcompare : compare (2 * rest) m' with
    | lt =>
      have hlt : (2 * rest : ℚ) < m' := by
        exact_mod_cast Nat.compare_eq_lt.mp hcompare
      change (q : ℚ) < n / m' ∧ (n : ℚ) / m' < q + 1 / 2
      rw [lt_div_iff₀ hpos, div_lt_iff₀ hpos]
      constructor <;> linarith
    | eq =>
      have heq : (2 * rest : ℚ) = m' := by
        exact_mod_cast Nat.compare_eq_eq.mp hcompare
      change (n : ℚ) / m' = q + 1 / 2
      rw [div_eq_iff hpos.ne']
      linarith
    | gt =>
      have hgt : (m' : ℚ) < 2 * rest := by
        exact_mod_cast Nat.compare_eq_gt.mp hcompare
      change (q : ℚ) + 1 / 2 < n / m' ∧ (n : ℚ) / m' < q + 1
      rw [lt_div_iff₀ hpos, div_lt_iff₀ hpos]
      constructor <;> linarith

/-- **The quotient of two mantissas**, at the exponent that is chosen for it. -/
theorem represents_divCore (m : ℕ) (e : ℤ) {m' : ℕ} (hm' : 0 < m') (e' : ℤ) :
    ∃ x, Represents (.ofMantissaAndAccuracy (divCore Format.binary64 m e m' e').1
          (divCore Format.binary64 m e m' e').2.2) x
      ∧ x * 2 ^ (divCore Format.binary64 m e m' e').2.1
        = (m * 2 ^ e) / (m' * 2 ^ e') := by
  obtain ⟨k, t, hsum, -, hcore⟩ := exists_divCore_eq m e m' e'
  rw [hcore]
  refine ⟨_, represents_div _ hm', ?_⟩
  dsimp only
  rw [mul_div_mul_comm, ← zpow_sub₀ two_ne_zero, hsum, zpow_add₀ two_ne_zero,
    zpow_natCast]
  push_cast
  ring

/-- A quotient has bits enough, or is too small to need them. -/
theorem divCore_le_targetExponent {m : ℕ} (hm : 0 < m) (e : ℤ) {m' : ℕ}
    (hm' : 0 < m') (e' : ℤ) :
    (divCore Format.binary64 m e m' e').2.1
      ≤ Format.binary64.targetExponent (Float.Model.totalExponent
        (divCore Format.binary64 m e m' e').1
        (divCore Format.binary64 m e m' e').2.1) := by
  obtain ⟨k, t, hsum, ht, hcore⟩ := exists_divCore_eq m e m' e'
  rw [hcore, targetExponent_eq]
  dsimp only
  by_cases hleast : t ≤ -1074
  · exact le_max_of_le_right hleast
  · -- then 53 bits of the quotient stand above the exponent
    have hbits : 2 ^ 52 ≤ m * 2 ^ k / m' := by
      rw [Nat.le_div_iff_mul_le hm']
      calc 2 ^ 52 * m' ≤ 2 ^ 52 * 2 ^ (m'.log2 + 1) :=
            Nat.mul_le_mul_left _ Nat.lt_log2_self.le
        _ = 2 ^ (52 + (m'.log2 + 1)) := (Nat.pow_add ..).symm
        _ ≤ 2 ^ (m.log2 + k) := Nat.pow_le_pow_right two_pos (by omega)
        _ = 2 ^ m.log2 * 2 ^ k := Nat.pow_add ..
        _ ≤ m * 2 ^ k := Nat.mul_le_mul_right _ (Nat.log2_self_le hm.ne')
    have hlog := (Nat.le_log2 (Nat.two_pow_pos 52 |>.trans_le hbits).ne').mpr hbits
    omega

/-- An operation that needs no rounding. -/
theorem isRounded_of_eq {u : UnpackedFloat} (hu : IsCanonical u) {v : ℚ}
    (h : v = value u) : IsCanonical u ∧ IsRounded v (value u) :=
  ⟨hu, h ▸ isRounded_value hu⟩

theorem isRounded_of_eq_zero {v : ℚ} (h : v = 0) : IsRounded v 0 :=
  h ▸ isRounded_zero

section Operations

variable {u w : UnpackedFloat} (hu : IsCanonical u) (hw : IsCanonical w)

include hu hw

theorem isRounded_add :
    IsCanonical (add Format.binary64 u w)
      ∧ IsRounded (value u + value w) (value (add Format.binary64 u w)) := by
  cases u with
  | notANumber => exact hu.elim
  | infinity sign => exact hu.elim
  | zero sign =>
    cases w with
    | notANumber => exact hw.elim
    | infinity sign' => exact hw.elim
    | zero sign' =>
      cases sign <;> cases sign' <;> exact ⟨trivial, isRounded_of_eq_zero (zero_add 0)⟩
    | finite sign' m' e' hm' => exact isRounded_of_eq hw (zero_add _)
  | finite sign m e hm =>
    cases w with
    | notANumber => exact hw.elim
    | infinity sign' => exact hw.elim
    | zero sign' => exact isRounded_of_eq hu (add_zero _)
    | finite sign' m' e' hm' =>
      have hnormalize := isRounded_normalize
        (sign.apply (decreaseExponent m e (min e e')).1
          + sign'.apply (decreaseExponent m' e' (min e e')).1) (min e e') .positive
      rwa [Int.cast_add, add_mul, apply_decreaseExponent sign m (min_le_left e e'),
        apply_decreaseExponent sign' m' (min_le_right e e')] at hnormalize

theorem isRounded_sub :
    IsCanonical (sub Format.binary64 u w)
      ∧ IsRounded (value u - value w) (value (sub Format.binary64 u w)) := by
  cases u with
  | notANumber => exact hu.elim
  | infinity sign => exact hu.elim
  | zero sign =>
    cases w with
    | notANumber => exact hw.elim
    | infinity sign' => exact hw.elim
    | zero sign' =>
      cases sign <;> cases sign' <;> exact ⟨trivial, isRounded_of_eq_zero (sub_zero 0)⟩
    | finite sign' m' e' hm' =>
      have hcanonical : IsCanonical (.finite (-sign') m' e' hm') := hw
      refine isRounded_of_eq hcanonical ((zero_sub _).trans ?_)
      rw [value, value, apply_neg, Int.cast_neg, neg_mul]
  | finite sign m e hm =>
    cases w with
    | notANumber => exact hw.elim
    | infinity sign' => exact hw.elim
    | zero sign' => exact isRounded_of_eq hu (sub_zero _)
    | finite sign' m' e' hm' =>
      have hnormalize := isRounded_normalize
        (sign.apply (decreaseExponent m e (min e e')).1
          - sign'.apply (decreaseExponent m' e' (min e e')).1) (min e e') .positive
      rwa [Int.cast_sub, sub_mul, apply_decreaseExponent sign m (min_le_left e e'),
        apply_decreaseExponent sign' m' (min_le_right e e')] at hnormalize

theorem isRounded_mul :
    IsCanonical (mul Format.binary64 u w)
      ∧ IsRounded (value u * value w) (value (mul Format.binary64 u w)) := by
  cases u with
  | notANumber => exact hu.elim
  | infinity sign => exact hu.elim
  | zero sign =>
    cases w with
    | notANumber => exact hw.elim
    | infinity sign' => exact hw.elim
    | _ => exact ⟨trivial, isRounded_of_eq_zero (zero_mul _)⟩
  | finite sign m e hm =>
    cases w with
    | notANumber => exact hw.elim
    | infinity sign' => exact hw.elim
    | zero sign' => exact ⟨trivial, isRounded_of_eq_zero (mul_zero _)⟩
    | finite sign' m' e' hm' =>
      have hround := isRounded_roundWithAccuracy (represents_exact (m * m'))
        (add_le_targetExponent hm hm' hu.2.2 hw.2.2) (sign * sign')
      have hexact : ((sign * sign').apply 1 : ℤ)
            * (((m * m' : ℕ) : ℚ) * 2 ^ (e + e'))
          = value (.finite sign m e hm) * value (.finite sign' m' e' hm') := by
        rw [value, value, apply_cast, apply_cast, apply_mul, Int.cast_mul,
          Nat.cast_mul, zpow_add₀ two_ne_zero]
        ring
      rwa [hexact] at hround

theorem isRounded_div (hne : value w ≠ 0) :
    IsCanonical (div Format.binary64 u w)
      ∧ IsRounded (value u / value w) (value (div Format.binary64 u w)) := by
  cases w with
  | notANumber => exact hw.elim
  | infinity sign' => exact hw.elim
  | zero sign' => exact absurd rfl hne
  | finite sign' m' e' hm' =>
    cases u with
    | notANumber => exact hu.elim
    | infinity sign => exact hu.elim
    | zero sign => exact ⟨trivial, isRounded_of_eq_zero (zero_div _)⟩
    | finite sign m e hm =>
      obtain ⟨x, hrepresents, hquotient⟩ := represents_divCore m e hm' e'
      have hround := isRounded_roundWithAccuracy hrepresents
        (divCore_le_targetExponent hm e hm' e') (sign / sign')
      have hexact : ((sign / sign').apply 1 : ℤ)
            * ((m * 2 ^ e : ℚ) / (m' * 2 ^ e'))
          = value (.finite sign m e hm) / value (.finite sign' m' e' hm') := by
        rw [value, value, apply_cast, apply_cast, apply_div, mul_assoc, mul_assoc,
          mul_div_mul_comm ((sign.apply 1 : ℤ) : ℚ)]
      rwa [hquotient, hexact] at hround

end Operations

/-! ## The order of values -/

/-- Of two positive doubles the one with the larger exponent is larger, and with
one exponent the one with the larger mantissa. -/
theorem compares_magnitude {m m' : ℕ} {e e' : ℤ} (hm : m < 2 ^ 53)
    (hm' : m' < 2 ^ 53) (he : -1074 ≤ e ∧ (e = -1074 ∨ 2 ^ 52 ≤ m))
    (he' : -1074 ≤ e' ∧ (e' = -1074 ∨ 2 ^ 52 ≤ m')) :
    ((compare e e').then (compare m m')).Compares ((m : ℚ) * 2 ^ e)
      (m' * 2 ^ e') := by
  -- a mantissa that fills its bits outweighs any at a smaller exponent
  have hlt : ∀ {n n' : ℕ} {a a' : ℤ}, n < 2 ^ 53 → 2 ^ 52 ≤ n' → a < a' →
      (n : ℚ) * 2 ^ a < n' * 2 ^ a' := by
    intro n n' a a' hn hn' haa
    calc (n : ℚ) * 2 ^ a < 2 ^ 53 * 2 ^ a :=
          mul_lt_mul_of_pos_right (by exact_mod_cast hn) (two_zpow_pos a)
      _ = 2 ^ 52 * 2 ^ (a + 1) := by rw [zpow_add_one₀ two_ne_zero]; ring
      _ ≤ n' * 2 ^ a' := mul_le_mul (by exact_mod_cast hn')
          (zpow_le_zpow_right₀ one_le_two haa) (two_zpow_pos _).le
          (Nat.cast_nonneg _)
  rcases lt_trichotomy e e' with h | rfl | h
  · rw [Int.compare_eq_lt.mpr h]
    exact hlt hm (he'.2.resolve_left (by omega)) h
  · rw [Int.compare_eq_eq.mpr rfl]
    have hunit := two_zpow_pos e
    rcases lt_trichotomy m m' with h | rfl | h
    · rw [Nat.compare_eq_lt.mpr h]
      exact mul_lt_mul_of_pos_right (by exact_mod_cast h) hunit
    · rw [Nat.compare_eq_eq.mpr rfl]
      rfl
    · rw [Nat.compare_eq_gt.mpr h]
      exact mul_lt_mul_of_pos_right (by exact_mod_cast h) hunit
  · rw [Int.compare_eq_gt.mpr h]
    exact hlt hm' (he.2.resolve_left (by omega)) h

theorem compares_neg {o : Ordering} {a b : ℚ} (h : o.Compares a b) :
    o.Compares (-b) (-a) := by
  cases o with
  | lt => exact neg_lt_neg h
  | eq => exact congrArg Neg.neg (Eq.symm h)
  | gt => exact neg_lt_neg h

theorem value_positive (m : ℕ) (e : ℤ) (hm : 0 < m) :
    value (.finite .positive m e hm) = m * 2 ^ e := by
  rw [value, Sign.apply, Int.cast_natCast]

theorem value_negative (m : ℕ) (e : ℤ) (hm : 0 < m) :
    value (.finite .negative m e hm) = -(m * 2 ^ e) := by
  rw [value, Sign.apply, Int.cast_neg, Int.cast_natCast, neg_mul]

/-- **Doubles compare as their values do.** -/
theorem exists_compare_eq {u w : UnpackedFloat} (hu : IsCanonical u)
    (hw : IsCanonical w) :
    ∃ o, u.compare w = some o ∧ o.Compares (value u) (value w) := by
  have hpos : ∀ {m : ℕ} {e : ℤ}, 0 < m → (0 : ℚ) < m * 2 ^ e :=
    fun hm => mul_pos (by exact_mod_cast hm) (two_zpow_pos _)
  cases u with
  | notANumber => exact hu.elim
  | infinity sign => exact hu.elim
  | zero sign =>
    cases w with
    | notANumber => exact hw.elim
    | infinity sign' => exact hw.elim
    | zero sign' => exact ⟨.eq, rfl, rfl⟩
    | finite sign' m' e' hm' =>
      cases sign' with
      | negative =>
        rw [value_negative]
        exact ⟨.gt, rfl, neg_neg_of_pos (hpos hm')⟩
      | positive =>
        rw [value_positive]
        exact ⟨.lt, rfl, hpos hm'⟩
  | finite sign m e hm =>
    cases w with
    | notANumber => exact hw.elim
    | infinity sign' => exact hw.elim
    | zero sign' =>
      cases sign with
      | negative =>
        rw [value_negative]
        exact ⟨.lt, rfl, neg_neg_of_pos (hpos hm)⟩
      | positive =>
        rw [value_positive]
        exact ⟨.gt, rfl, hpos hm⟩
    | finite sign' m' e' hm' =>
      have hcompare := compares_magnitude hu.1 hw.1 hu.2 hw.2
      cases sign with
      | negative =>
        rw [value_negative]
        cases sign' with
        | negative =>
          rw [value_negative]
          exact ⟨_, rfl, Ordering.compares_swap.mpr (compares_neg hcompare)⟩
        | positive =>
          rw [value_positive]
          exact ⟨.lt, rfl, (neg_neg_of_pos (hpos hm)).trans (hpos hm')⟩
      | positive =>
        rw [value_positive]
        cases sign' with
        | negative =>
          rw [value_negative]
          exact ⟨.gt, rfl, (neg_neg_of_pos (hpos hm')).trans (hpos hm)⟩
        | positive =>
          rw [value_positive]
          exact ⟨_, rfl, hcompare⟩

/-! ## Doubles -/

theorem isFinite_of_isFinite_pack {u : UnpackedFloat}
    (h : (Float.Model.pack u).unpack.isFinite = true) : u.isFinite = true := by
  cases u with
  | notANumber => exact absurd h (by decide)
  | infinity sign => cases sign <;> exact absurd h (by decide)
  | zero sign => rfl
  | finite sign m e hm => rfl

section Doubles

variable {x y : Float} {v : ℚ} (hx : x.isFinite = true) (hy : y.isFinite = true)

include hx in
theorem isCanonical_of_isFinite : IsCanonical x.toModel.unpack :=
  isCanonical_unpack hx

include hx in
theorem isRepresentable_toRat : IsRepresentable (toRat x) :=
  isRepresentable_value (isCanonical_of_isFinite hx)

include hx in
theorem abs_toRat_le_largest : |toRat x| ≤ largest := by
  change x.toModel.unpack.isFinite = true at hx
  unfold toRat
  cases hu : x.toModel.unpack with
  | finite sign m e hm =>
    obtain ⟨hbits, -, he⟩ := unpack_eq_finite hu
    exact abs_value_le_largest hbits he
  | _ => exact abs_zero.trans_le largest_pos.le

/-- A number that is no larger than the largest double does not overflow. -/
theorem Rounds.isFinite_of_le (h : Rounds v x) (hv : |v| ≤ largest) :
    x.isFinite = true :=
  h.isFinite_iff.mpr (hv.trans_lt largest_lt_overflowBound)

/-- **What is too large** and not negative is rounded to positive infinity. -/
theorem Rounds.unpack_eq_infinity (h : Rounds v x) (hx : x.isFinite = false)
    (hv : 0 ≤ v) : x.toModel.unpack = .infinity .positive := by
  obtain ⟨sign, hinfinite, hsign⟩ := h.infinite hx
  cases sign with
  | positive => exact hinfinite
  | negative =>
    rw [Sign.apply, Int.cast_neg, Int.cast_one, neg_one_mul, Left.neg_pos_iff] at hsign
    exact absurd hv hsign.not_ge

/-- What has to be finite for a difference to be. -/
theorem isFinite_of_isFinite_sub (h : (x - y).isFinite = true) :
    x.isFinite = true ∧ y.isFinite = true := by
  have hsub : (sub Format.binary64 x.toModel.unpack
    y.toModel.unpack).isFinite = true := isFinite_of_isFinite_pack h
  change x.toModel.unpack.isFinite = true ∧ y.toModel.unpack.isFinite = true
  revert hsub
  cases x.toModel.unpack <;> cases y.toModel.unpack
  case infinity.infinity sign sign' =>
    cases sign <;> cases sign' <;> exact nofun
  all_goals first | exact fun _ => ⟨rfl, rfl⟩ | exact nofun

/-- What has to be finite for a sum to be. -/
theorem isFinite_of_isFinite_add (h : (x + y).isFinite = true) :
    x.isFinite = true ∧ y.isFinite = true := by
  have hadd : (add Format.binary64 x.toModel.unpack
    y.toModel.unpack).isFinite = true := isFinite_of_isFinite_pack h
  change x.toModel.unpack.isFinite = true ∧ y.toModel.unpack.isFinite = true
  revert hadd
  cases x.toModel.unpack <;> cases y.toModel.unpack
  case infinity.infinity sign sign' =>
    cases sign <;> cases sign' <;> exact nofun
  all_goals first | exact fun _ => ⟨rfl, rfl⟩ | exact nofun

/-- What has to be finite for a quotient to be. -/
theorem isFinite_of_isFinite_div (hy : y.isFinite = true)
    (h : (x / y).isFinite = true) : x.isFinite = true := by
  have hdiv : (div Format.binary64 x.toModel.unpack
    y.toModel.unpack).isFinite = true := isFinite_of_isFinite_pack h
  change y.toModel.unpack.isFinite = true at hy
  change x.toModel.unpack.isFinite = true
  revert hdiv hy
  cases x.toModel.unpack <;> cases y.toModel.unpack
  all_goals first | exact fun _ _ => rfl | exact nofun

include hx hy

/-- **Less is less in value.** -/
theorem lt_iff_toRat : x < y ↔ toRat x < toRat y := by
  obtain ⟨o, hcompare, hvalue⟩ := exists_compare_eq
    (isCanonical_of_isFinite hx) (isCanonical_of_isFinite hy)
  have hlt : x < y
      ↔ (x.toModel.unpack.compare y.toModel.unpack == some .lt) = true :=
    decide_eq_true_iff
  rw [hlt, hcompare, beq_iff_eq, Option.some_inj]
  exact hvalue.eq_lt

theorem le_iff_toRat : x ≤ y ↔ toRat x ≤ toRat y := by
  obtain ⟨o, hcompare, hvalue⟩ := exists_compare_eq
    (isCanonical_of_isFinite hx) (isCanonical_of_isFinite hy)
  have hle : x ≤ y
      ↔ (x.toModel.unpack.compare y.toModel.unpack).any (·.isLE) = true :=
    decide_eq_true_iff
  rw [hle, hcompare, Option.any_some, Ordering.isLE_iff_ne_gt]
  exact hvalue.ne_gt

theorem beq_iff_toRat : (x == y) = true ↔ toRat x = toRat y := by
  obtain ⟨o, hcompare, hvalue⟩ := exists_compare_eq
    (isCanonical_of_isFinite hx) (isCanonical_of_isFinite hy)
  have hbeq : (x == y) = true
      ↔ (x.toModel.unpack.compare y.toModel.unpack == some .eq) = true :=
    Iff.rfl
  rw [hbeq, hcompare, beq_iff_eq, Option.some_inj]
  exact hvalue.eq_eq

/-- **The sum of two doubles** is the exact sum rounded. -/
theorem rounds_add : Rounds (toRat x + toRat y) (x + y) :=
  rounds_of_isRounded rfl (isRounded_add (isCanonical_of_isFinite hx)
    (isCanonical_of_isFinite hy))

/-- **The difference of two doubles** is the exact difference rounded. -/
theorem rounds_sub : Rounds (toRat x - toRat y) (x - y) :=
  rounds_of_isRounded rfl (isRounded_sub (isCanonical_of_isFinite hx)
    (isCanonical_of_isFinite hy))

/-- **The product of two doubles** is the exact product rounded. -/
theorem rounds_mul : Rounds (toRat x * toRat y) (x * y) :=
  rounds_of_isRounded rfl (isRounded_mul (isCanonical_of_isFinite hx)
    (isCanonical_of_isFinite hy))

/-- **The quotient of two doubles** is the exact quotient rounded. -/
theorem rounds_div (hne : toRat y ≠ 0) : Rounds (toRat x / toRat y) (x / y) :=
  rounds_of_isRounded rfl (isRounded_div (isCanonical_of_isFinite hx)
    (isCanonical_of_isFinite hy) hne)

/-- Whether a difference is finite does not depend on the order. -/
theorem isFinite_sub_comm :
    (x - y).isFinite = true ↔ (y - x).isFinite = true := by
  rw [(rounds_sub hx hy).isFinite_iff, (rounds_sub hy hx).isFinite_iff,
    abs_sub_comm]

end Doubles

/-! ## The order of results -/

/-- **A number that a double can be** is not changed by rounding. -/
theorem Rounds.toRat_eq {v : ℚ} {x : Float} (h : Rounds v x)
    (hv : IsRepresentable v) (hle : |v| ≤ largest) :
    x.isFinite = true ∧ toRat x = v := by
  have hx := h.isFinite_of_le hle
  have hrounded := h.rounded hx
  exact ⟨hx, le_antisymm (hrounded.le v hv le_rfl) (hrounded.ge v hv le_rfl)⟩

/-- **Of two numbers the larger** does not get the smaller double. -/
theorem Rounds.toRat_le {v w : ℚ} {x y : Float} (h : Rounds v x)
    (h' : Rounds w y) (hx : x.isFinite = true) (hy : y.isFinite = true)
    (hlt : v < w) : toRat x ≤ toRat y :=
  (h.rounded hx).le_of_lt (h'.rounded hy) (isRepresentable_toRat hx)
    (isRepresentable_toRat hy) hlt

section Order

variable {w x y : Float} (hw : w.isFinite = true) (hx : x.isFinite = true)
  (hy : y.isFinite = true)

include hw hx

/-- Taking away a zero of either sign changes no value. -/
theorem toRat_sub_of_eq_zero (hzero : toRat x = 0) :
    toRat (w - x) = toRat w := by
  have hrounds := rounds_sub hw hx
  rw [hzero, sub_zero] at hrounds
  exact (hrounds.toRat_eq (isRepresentable_toRat hw)
    (abs_toRat_le_largest hw)).2

include hy

/-- **A difference depends on the value** of what is taken away: a value is that
of one double, unless it is zero. -/
theorem toRat_sub_congr (h : toRat x = toRat y) :
    toRat (w - x) = toRat (w - y) := by
  obtain ⟨-, -, rfl | ⟨rfl, rfl⟩ | ⟨rfl, rfl⟩⟩ :=
    Float.beq_iff_ne_nan_and_eq.mp ((beq_iff_toRat hx hy).mpr h)
  · rfl
  · rw [toRat_sub_of_eq_zero hw hx rfl, toRat_sub_of_eq_zero hw hy rfl]
  · rw [toRat_sub_of_eq_zero hw hx rfl, toRat_sub_of_eq_zero hw hy rfl]

/-- **The more is taken away**, the less is left. -/
theorem sub_le_sub_of_toRat_le (hwx : (w - x).isFinite = true)
    (hwy : (w - y).isFinite = true) (h : toRat x ≤ toRat y) :
    w - y ≤ w - x := by
  rw [le_iff_toRat hwy hwx]
  rcases h.eq_or_lt with heq | hlt
  · exact (toRat_sub_congr hw hx hy heq).ge
  · exact (rounds_sub hw hy).toRat_le (rounds_sub hw hx) hwy hwx
      (sub_lt_sub_left hlt _)

end Order

/-- **A finite double above zero**, taken apart. -/
theorem exists_unpack_eq_of_pos {x : Float} (hx : x.isFinite = true)
    (hpos : 0 < toRat x) :
    ∃ m e hm, x.toModel.unpack = .finite .positive m e hm := by
  change x.toModel.unpack.isFinite = true at hx
  unfold toRat at hpos
  cases hu : x.toModel.unpack with
  | notANumber => rw [hu] at hx; cases hx
  | infinity sign => rw [hu] at hx; cases hx
  | zero sign => rw [hu] at hpos; exact absurd hpos (lt_irrefl 0)
  | finite sign m e hm =>
    cases sign with
    | positive => exact ⟨m, e, hm, rfl⟩
    | negative =>
      rw [hu, value_negative, Left.neg_pos_iff] at hpos
      exact absurd (mul_nonneg (Nat.cast_nonneg m) (two_zpow_pos e).le) hpos.not_ge

/-! ## Differences -/

/-- A positive multiple of the least double is no less than it. -/
theorem unit_le_of_pos {v : ℚ} (hv : ∃ k : ℤ, v = k * 2 ^ (-1074 : ℤ))
    (hpos : 0 < v) : 2 ^ (-1074 : ℤ) ≤ v := by
  obtain ⟨k, rfl⟩ := hv
  have hunit := two_zpow_pos (-1074)
  have hk : 0 < k := Int.cast_pos.mp (pos_of_mul_pos_left hpos hunit.le)
  have hk' : (1 : ℚ) ≤ k := by exact_mod_cast hk
  exact le_mul_of_one_le_left hunit.le hk'

section Differences

variable {x y : Float} (hx : x.isFinite = true) (hy : y.isFinite = true)

include hx in
/-- Values of doubles are multiples of the least one. -/
theorem exists_toRat_eq : ∃ k : ℤ, toRat x = k * 2 ^ (-1074 : ℤ) := by
  rcases (isRepresentable_toRat hx).multiple_or_lt (-1074) with h | ⟨hne, -⟩
  · exact h
  · exact absurd rfl hne

include hx hy

theorem exists_toRat_sub_eq :
    ∃ k : ℤ, toRat x - toRat y = k * 2 ^ (-1074 : ℤ) := by
  obtain ⟨k, hk⟩ := exists_toRat_eq hx
  obtain ⟨l, hl⟩ := exists_toRat_eq hy
  exact ⟨k - l, by rw [hk, hl, Int.cast_sub, sub_mul]⟩

/-- **The relative error of a difference**, which is not lost to underflow. -/
theorem abs_toRat_sub_le (hfinite : (x - y).isFinite = true) :
    |toRat (x - y) - (toRat x - toRat y)|
      ≤ unitRoundoff * |toRat x - toRat y| :=
  ((rounds_sub hx hy).rounded hfinite).close_of_multiple
    (exists_toRat_sub_eq hx hy)

/-- **The relative error of a sum**, which is not lost to underflow either. -/
theorem abs_toRat_add_sub_le (hfinite : (x + y).isFinite = true) :
    |toRat (x + y) - (toRat x + toRat y)|
      ≤ unitRoundoff * |toRat x + toRat y| := by
  obtain ⟨k, hk⟩ := exists_toRat_eq hx
  obtain ⟨l, hl⟩ := exists_toRat_eq hy
  exact ((rounds_add hx hy).rounded hfinite).close_of_multiple
    ⟨k + l, by rw [hk, hl, Int.cast_add, add_mul]⟩

end Differences

/-! ## Literals and infinities -/

theorem toRat_zero : toRat 0 = 0 := by rfl

theorem unpack_two :
    (2 : Float).toModel.unpack
      = .finite .positive (2 ^ 52) (-51) (by norm_num) := by rfl

theorem toRat_two : toRat 2 = 2 := by
  rw [toRat, unpack_two, value_positive]
  norm_num

theorem isFinite_zero : (0 : Float).isFinite = true := by rfl

theorem isFinite_two : (2 : Float).isFinite = true := by rfl

theorem lt_zero_iff {x : Float} (hx : x.isFinite = true) :
    x < 0 ↔ toRat x < 0 := by
  rw [lt_iff_toRat hx isFinite_zero, toRat_zero]

/-- Infinity exceeds every finite double. -/
theorem lt_of_infinity {x y : Float}
    (hx : x.toModel.unpack = .infinity .positive) (hy : y.isFinite = true) :
    y < x := by
  have hlt : y < x
      ↔ (y.toModel.unpack.compare x.toModel.unpack == some .lt) = true :=
    decide_eq_true_iff
  change y.toModel.unpack.isFinite = true at hy
  rw [hlt, hx]
  cases hu : y.toModel.unpack with
  | notANumber => rw [hu] at hy; cases hy
  | infinity sign => rw [hu] at hy; cases hy
  | zero sign => rfl
  | finite sign m e hm => rfl

/-- **What is of positive sign** is less only than what is above zero. -/
theorem toRat_pos_of_lt {x y : Float} (hx : IsPlus x.toModel.unpack)
    (hy : y.isFinite = true) (hlt : x < y) : 0 < toRat y := by
  have hfinite : x.isFinite = true := by
    obtain ⟨k, hk, -⟩ := lt_iff.mp hlt
    unfold key at hk
    change x.toModel.unpack.isFinite = true
    cases hu : x.toModel.unpack with
    | notANumber => rw [hu] at hk; cases hk
    | infinity sign =>
      rw [hu] at hx
      obtain rfl : sign = .positive := hx
      exact absurd hlt (not_lt_of_lt (lt_of_infinity hu hy))
    | zero sign => rfl
    | finite sign m e hm => rfl
  have hnonneg : 0 ≤ toRat x := by
    unfold toRat
    cases hu : x.toModel.unpack with
    | finite sign m e hm =>
      rw [hu] at hx
      obtain rfl : sign = .positive := hx
      rw [value_positive]
      exact mul_nonneg (Nat.cast_nonneg m) (two_zpow_pos e).le
    | _ => exact le_rfl
  exact hnonneg.trans_lt ((lt_iff_toRat hfinite hy).mp hlt)

theorem unpack_pack_infinity (sign : Sign) :
    (Float.Model.pack (.infinity sign)).unpack = .infinity sign := by
  cases sign <;> rfl

/-- A part of what is infinite is infinite. -/
theorem unpack_div_infinity {x y : Float} {sign : Sign} {m : ℕ} {e : ℤ}
    {hm : 0 < m} (hx : x.toModel.unpack = .infinity sign)
    (hy : y.toModel.unpack = .finite .positive m e hm) :
    (x / y).toModel.unpack = .infinity sign := by
  have hquotient : (x / y).toModel.unpack
      = (Float.Model.pack (div Format.binary64 x.toModel.unpack
          y.toModel.unpack)).unpack := rfl
  rw [hquotient, hx, hy]
  cases sign <;> exact unpack_pack_infinity _

/-- Half of what is infinite is infinite. -/
theorem unpack_div_two {x : Float} {sign : Sign}
    (hx : x.toModel.unpack = .infinity sign) :
    (x / 2).toModel.unpack = .infinity sign :=
  unpack_div_infinity hx unpack_two

/-- A finite double does not change what is infinite. -/
theorem unpack_add_infinity {x y : Float} {sign : Sign}
    (hx : x.isFinite = true) (hy : y.toModel.unpack = .infinity sign) :
    (x + y).toModel.unpack = .infinity sign := by
  have hsum : (x + y).toModel.unpack
      = (Float.Model.pack (add Format.binary64 x.toModel.unpack
          y.toModel.unpack)).unpack := rfl
  change x.toModel.unpack.isFinite = true at hx
  rw [hsum, hy]
  refine Eq.trans ?_ (unpack_pack_infinity sign)
  cases hu : x.toModel.unpack with
  | notANumber => rw [hu] at hx; cases hx
  | infinity sign' => rw [hu] at hx; cases hx
  | _ => rfl

theorem not_le_of_infinity {x y : Float}
    (hx : x.toModel.unpack = .infinity .positive) (hy : y.isFinite = true) :
    ¬ x ≤ y := by
  have hle : x ≤ y
      ↔ (x.toModel.unpack.compare y.toModel.unpack).any (·.isLE) = true :=
    decide_eq_true_iff
  change y.toModel.unpack.isFinite = true at hy
  rw [hle, hx]
  cases hu : y.toModel.unpack with
  | notANumber => rw [hu] at hy; cases hy
  | infinity sign => rw [hu] at hy; cases hy
  | zero sign => exact Bool.false_ne_true
  | finite sign m e hm => exact Bool.false_ne_true

end Stepwise.Double
