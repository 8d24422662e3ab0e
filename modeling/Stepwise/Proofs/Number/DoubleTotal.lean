import Stepwise.Proofs.Number.DoubleValue
import Stepwise.Roots.Scan

/-!
# The order of bit patterns

Sorting needs an order of all doubles, NaN among them, and it is taken from the bit
patterns (`totalKey`). On numbers of positive sign it is the usual order
(`Double.totalKey_le_iff`). For the bits of such a number are its exponent followed by
its mantissa, without the leading bit that all but the smallest have in common: in
units of the last bit of the exponent the pattern counts the steps from the least
exponent, and what is left out of the mantissa is one more (`Double.toNat_eq_rank`).
-/

namespace Stepwise.Double

open Float.Model (UnpackedFloat Format)
open Float.Model.UnpackedFloat

/-! ## Bits -/

/-- **A number of positive sign**, which may be infinite. -/
def IsMagnitude (u : UnpackedFloat) : Prop :=
  u ≠ .notANumber ∧ IsPlus u

/-- The bits of a number of positive sign, as a number. -/
def rank : UnpackedFloat → ℤ
  | .finite _ m e _ => (e + 1074) * 2 ^ 52 + m
  | .infinity _ => 2047 * 2 ^ 52
  | .zero _ => 0
  | .notANumber => 0

/-- The three parts of a bit pattern. -/
theorem toNat_eq (b : BitVec Format.binary64.numBits) :
    b.toNat = (unpackSign b).toNat * 2 ^ 63 + (unpackExponent b).toNat * 2 ^ 52
      + (unpackMantissa b).toNat := by
  have hb : b.toNat < 2 ^ 64 := b.isLt
  unfold unpackSign unpackExponent unpackMantissa
  simp only [BitVec.toNat_cast, BitVec.extractLsb_toNat, Nat.shiftRight_eq_div_pow]
  omega

theorem toNat_unpackSign {b : BitVec Format.binary64.numBits}
    (h : IsMagnitude (unpack Format.binary64 b)) : (unpackSign b).toNat = 0 := by
  obtain ⟨hnan, hplus⟩ := h
  rcases BitVec.eq_zero_or_eq_one (unpackSign b) with hsign | hsign
  · rw [hsign]
    rfl
  · unfold unpack at hnan hplus
    rw [hsign] at hnan hplus
    dsimp only at hnan hplus
    split_ifs at hnan hplus
    · cases hplus
    · exact absurd rfl hnan
    all_goals cases hplus

/-- **The bits of a number of positive sign.** -/
theorem toNat_eq_rank {b : BitVec Format.binary64.numBits}
    (h : IsMagnitude (unpack Format.binary64 b)) :
    (b.toNat : ℤ) = rank (unpack Format.binary64 b) := by
  have hsign := toNat_unpackSign h
  have hmantissa : (unpackMantissa b).toNat < 2 ^ 52 := BitVec.isLt _
  have hbias : (Format.binary64.exponentBias : ℤ) = 1023 := rfl
  rw [toNat_eq b, hsign]
  unfold unpack at h ⊢
  dsimp only at h ⊢
  split_ifs at h ⊢ with hall hzero hleast hzero
  · rw [hall, hzero, rank]
    rfl
  · exact absurd rfl h.1
  · rw [hleast, hzero, rank]
    rfl
  · rw [hleast, rank, hbias]
    push_cast
    rfl
  · rw [rank, hbias, BitVec.toNat_append,
      ← Nat.shiftLeft_add_eq_or_of_lt (BitVec.isLt _), Nat.shiftLeft_eq]
    push_cast
    norm_num
    ring

theorem toNat_lt {b : BitVec Format.binary64.numBits}
    (h : IsMagnitude (unpack Format.binary64 b)) : b.toNat < 2 ^ 63 := by
  have hsign := toNat_unpackSign h
  have hexponent : (unpackExponent b).toNat < 2 ^ 11 := BitVec.isLt _
  have hmantissa : (unpackMantissa b).toNat < 2 ^ 52 := BitVec.isLt _
  rw [toNat_eq b]
  omega

/-! ## Order -/

/-- **Of two finite numbers the one with the larger pattern is larger.** -/
theorem value_lt_of_rank_lt {u w : UnpackedFloat} (hu : IsCanonical u)
    (hw : IsCanonical w) (hu' : IsPlus u) (hw' : IsPlus w)
    (h : rank u < rank w) : value u < value w := by
  have hpos : ∀ {m : ℕ} {e : ℤ}, 0 < m → (0 : ℚ) < m * 2 ^ e :=
    fun hm => mul_pos (by exact_mod_cast hm) (two_zpow_pos _)
  cases u with
  | notANumber => exact hu.elim
  | infinity sign => exact hu.elim
  | zero sign =>
    cases w with
    | notANumber => exact hw.elim
    | infinity sign' => exact hw.elim
    | zero sign' => exact absurd h (lt_irrefl 0)
    | finite sign' m' e' hm' =>
      obtain rfl : sign' = .positive := hw'
      rw [value_positive]
      exact hpos hm'
  | finite sign m e hm =>
    obtain rfl : sign = .positive := hu'
    cases w with
    | notANumber => exact hw.elim
    | infinity sign' => exact hw.elim
    | zero sign' =>
      change (e + 1074) * 2 ^ 52 + (m : ℤ) < 0 at h
      have hleast := hu.2.1
      omega
    | finite sign' m' e' hm' =>
      obtain rfl : sign' = .positive := hw'
      rw [value_positive, value_positive]
      change (e + 1074) * 2 ^ 52 + (m : ℤ) < (e' + 1074) * 2 ^ 52 + m' at h
      have hcompare := compares_magnitude hu.1 hw.1 hu.2 hw.2
      have hlt : (compare e e').then (compare m m') = .lt := by
        obtain ⟨hbits, hleast, hfull⟩ := hu
        obtain ⟨hbits', hleast', hfull'⟩ := hw
        rcases lt_trichotomy e e' with he | rfl | he
        · rw [Int.compare_eq_lt.mpr he]
          rfl
        · have hm : m < m' := by omega
          rw [Int.compare_eq_eq.mpr rfl, Nat.compare_eq_lt.mpr hm]
          rfl
        · omega
      rwa [hlt] at hcompare

section Floats

variable {x y : Float} (hx : IsMagnitude x.toModel.unpack)
  (hy : IsMagnitude y.toModel.unpack)

include hx in
/-- A number of positive sign keeps its bits as its place in the order. -/
theorem totalKey_eq_rank : totalKey x = rank x.toModel.unpack := by
  exact (if_pos (toNat_lt hx)).trans (toNat_eq_rank hx)

theorem eq_infinity_of_isMagnitude {u : UnpackedFloat} (hu : IsMagnitude u)
    (hinfinite : u.isFinite = false) : u = .infinity .positive := by
  cases u with
  | notANumber => exact absurd rfl hu.1
  | infinity sign =>
    obtain rfl : sign = .positive := hu.2
    rfl
  | zero sign => cases hinfinite
  | finite sign m e hm => cases hinfinite

/-- No finite double has the bits of an infinite one. -/
theorem rank_lt_of_isFinite (hfinite : x.isFinite = true) :
    rank x.toModel.unpack < 2047 * 2 ^ 52 := by
  change x.toModel.unpack.isFinite = true at hfinite
  cases hu : x.toModel.unpack with
  | notANumber => rw [hu] at hfinite; cases hfinite
  | infinity sign => rw [hu] at hfinite; cases hfinite
  | zero sign => exact (by norm_num : (0 : ℤ) < 2047 * 2 ^ 52)
  | finite sign m e hm =>
    obtain ⟨hbits, -, he⟩ := unpack_eq_finite hu
    change (e + 1074) * 2 ^ 52 + (m : ℤ) < 2047 * 2 ^ 52
    omega

include hx hy

theorem lt_of_totalKey_lt (h : totalKey x < totalKey y) : x < y := by
  rw [totalKey_eq_rank hx, totalKey_eq_rank hy] at h
  cases hfinite' : y.isFinite with
  | false =>
    have hinfinite := eq_infinity_of_isMagnitude hy hfinite'
    cases hfinite : x.isFinite with
    | false =>
      rw [eq_infinity_of_isMagnitude hx hfinite, hinfinite] at h
      exact absurd h (lt_irrefl _)
    | true => exact lt_of_infinity hinfinite hfinite
  | true =>
    cases hfinite : x.isFinite with
    | false =>
      rw [eq_infinity_of_isMagnitude hx hfinite] at h
      exact absurd h (rank_lt_of_isFinite hfinite').not_gt
    | true =>
      rw [lt_iff_toRat hfinite hfinite']
      exact value_lt_of_rank_lt (isCanonical_of_isFinite hfinite)
        (isCanonical_of_isFinite hfinite') hx.2 hy.2 h

theorem eq_of_totalKey_eq (h : totalKey x = totalKey y) : x = y := by
  have hnat : x.toModel.toBits.toNat = y.toModel.toBits.toNat := by
    rw [totalKey_eq_rank hx, totalKey_eq_rank hy] at h
    exact_mod_cast (toNat_eq_rank hx).trans (h.trans (toNat_eq_rank hy).symm)
  have hbits := UInt64.toNat_inj.mp hnat
  obtain ⟨⟨b, hb⟩⟩ := x
  obtain ⟨⟨b', hb'⟩⟩ := y
  obtain rfl : b = b' := hbits
  rfl

/-- **Numbers of positive sign are sorted as usual.** -/
theorem totalKey_le_iff : totalKey x ≤ totalKey y ↔ x ≤ y := by
  constructor
  · intro h
    rcases h.eq_or_lt with heq | hlt
    · obtain rfl := eq_of_totalKey_eq hx hy heq
      obtain ⟨k, hk⟩ := exists_key_of_ne hx.1
      exact le_iff.mpr ⟨k, hk, k, hk, le_rfl⟩
    · exact Double.le_of_lt (lt_of_totalKey_lt hx hy hlt)
  · intro h
    by_contra hgt
    exact not_lt_of_le h (lt_of_totalKey_lt hy hx (not_le.mp hgt))

/-- **Numbers of positive sign are in one place exactly if they are equal.** -/
theorem totalKey_eq_iff : totalKey x = totalKey y ↔ (x == y) = true := by
  rw [beq_iff_le, ← totalKey_le_iff hx hy, ← totalKey_le_iff hy hx]
  exact le_antisymm_iff

end Floats

/-! ## Sums of magnitudes -/

/-- A finite double of positive sign. -/
theorem isMagnitude_of_isFinite {x : Float} (hx : x.isFinite = true)
    (hplus : IsPlus x.toModel.unpack) : IsMagnitude x.toModel.unpack := by
  refine ⟨fun hnan => ?_, hplus⟩
  change x.toModel.unpack.isFinite = true at hx
  rw [hnan] at hx
  cases hx

/-- **The magnitude of a finite double** is finite and of positive sign. -/
theorem isFinite_abs {x : Float} (hx : x.isFinite = true) :
    x.abs.isFinite = true ∧ IsPlus x.abs.toModel.unpack := by
  have habs : x.abs.toModel.unpack
      = (Float.Model.pack x.toModel.unpack.abs).unpack := rfl
  change x.toModel.unpack.isFinite = true at hx
  change x.abs.toModel.unpack.isFinite = true ∧ _
  rw [habs]
  cases hu : x.toModel.unpack with
  | notANumber => rw [hu] at hx; cases hx
  | infinity sign => rw [hu] at hx; cases hx
  | zero sign => exact ⟨by cases sign <;> rfl, isPlus_unpack_pack rfl⟩
  | finite sign m e hm =>
    obtain ⟨-, -, he⟩ := unpack_eq_finite hu
    exact ⟨isFinite_unpack_pack he, isPlus_unpack_pack rfl⟩

/-- **The sum of two magnitudes** is a magnitude, infinite if it is too large. -/
theorem isMagnitude_abs_add_abs {x y : Float} (hx : x.isFinite = true)
    (hy : y.isFinite = true) : IsMagnitude (x.abs + y.abs).toModel.unpack := by
  obtain ⟨hfinite, hplus⟩ := isFinite_abs hx
  obtain ⟨hfinite', hplus'⟩ := isFinite_abs hy
  cases hsum : (x.abs + y.abs).isFinite with
  | true => exact isMagnitude_of_isFinite hsum (isPlus_add hplus hplus')
  | false =>
    obtain ⟨sign, hinfinite, -⟩ := (rounds_add hfinite hfinite').infinite hsum
    have hsign := isPlus_add hplus hplus'
    rw [hinfinite] at hsign ⊢
    exact ⟨nofun, hsign⟩

end Stepwise.Double
