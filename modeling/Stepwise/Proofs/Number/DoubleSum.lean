import Stepwise.Proofs.Number.DoubleOrder

/-!
# Sums that stay finite

A finite double to which something is added that is not negative does not come
to minus infinity: a negative sum is no larger in magnitude than the double was,
and the rounding does not lift it above that (`Double.exponent_round_le`). So if
it is known to be less than some finite double, it is finite itself
(`Double.isFinite_add_of_lt_sub`).
-/

namespace Stepwise.Double

open Float.Model (UnpackedFloat Format)
open Float.Model.UnpackedFloat

/-! ## Signs -/

/-- Not a number, or of positive sign. -/
def IsPlus : UnpackedFloat → Prop
  | .notANumber => True
  | .infinity sign | .zero sign | .finite sign _ _ _ => sign = .positive

theorem isPlus_unpack {b : BitVec Format.binary64.numBits}
    (h : unpackSign b = 0#1) : IsPlus (unpack Format.binary64 b) := by
  unfold unpack
  rw [h]
  dsimp only
  split_ifs <;> first | rfl | trivial

/-- **A positive sign is kept** when a double is put together. -/
theorem isPlus_unpack_pack {u : UnpackedFloat} (h : IsPlus u) :
    IsPlus (Float.Model.pack u).unpack := by
  refine isPlus_unpack ?_
  change unpackSign (pack Format.binary64 u) = 0#1
  cases u with
  | notANumber => exact unpackSign_packComponents _ _ _
  | infinity sign =>
    obtain rfl : sign = .positive := h
    exact unpackSign_packComponents _ _ _
  | zero sign =>
    obtain rfl : sign = .positive := h
    exact unpackSign_packComponents _ _ _
  | finite sign m e hm =>
    obtain rfl : sign = .positive := h
    unfold pack
    dsimp only
    split_ifs <;> exact unpackSign_packComponents _ _ _

theorem isPlus_roundWithAccuracy {m : Nat} {e : Int} {accuracy : Accuracy} :
    IsPlus (roundWithAccuracy Format.binary64 .positive m e accuracy) := by
  unfold roundWithAccuracy
  dsimp only
  split_ifs <;> rfl

theorem isPlus_normalize {n e : Int} (hn : 0 ≤ n) :
    IsPlus (UnpackedFloat.normalize Format.binary64 n e .positive) := by
  unfold UnpackedFloat.normalize
  split
  · next h =>
    rw [Int.compare_eq_lt] at h
    omega
  · rfl
  · exact isPlus_roundWithAccuracy

/-- **Products of positive sign.** -/
theorem isPlus_mul {x y : Float} (hx : IsPlus x.toModel.unpack)
    (hy : IsPlus y.toModel.unpack) : IsPlus (x * y).toModel.unpack := by
  refine isPlus_unpack_pack ?_
  revert hx hy
  generalize x.toModel.unpack = u
  generalize y.toModel.unpack = v
  intro hu hv
  cases u <;> cases v <;> first
    | trivial
    | cases hu; cases hv; first | rfl | exact isPlus_roundWithAccuracy

/-- **Sums of positive sign.** -/
theorem isPlus_add {x y : Float} (hx : IsPlus x.toModel.unpack)
    (hy : IsPlus y.toModel.unpack) : IsPlus (x + y).toModel.unpack := by
  refine isPlus_unpack_pack ?_
  revert hx hy
  generalize x.toModel.unpack = u
  generalize y.toModel.unpack = v
  intro hu hv
  cases u with
  | finite sign m e hm =>
    obtain rfl : sign = .positive := hu
    cases v with
    | finite sign' m' e' hm' =>
      obtain rfl : sign' = .positive := hv
      exact isPlus_normalize
        (Int.add_nonneg (Int.natCast_nonneg _) (Int.natCast_nonneg _))
    | zero sign' => rfl
    | _ => exact hv
  | _ => cases v <;> cases hu <;> cases hv <;> first | rfl | trivial

theorem isPlus_ofScientific (n : Nat) (e : Int) :
    IsPlus (ofScientific Format.binary64 n e) := by
  unfold ofScientific
  split
  · rfl
  split
  · rfl
  split
  · rfl
  split
  · exact isPlus_roundWithAccuracy
  · exact isPlus_roundWithAccuracy

theorem isPlus_ofNat (n : Nat) : IsPlus (Float.ofNat n).toModel.unpack := by
  have hone : IsPlus (Float.ofBits 0x3FF0000000000000).toModel.unpack :=
    isPlus_unpack_pack (isPlus_unpack (by decide))
  change IsPlus (Float.ofScientific n false 0).toModel.unpack
  unfold Float.ofScientific
  split
  · exact isPlus_mul (isPlus_unpack_pack (isPlus_normalize (by omega))) hone
  · exact isPlus_unpack_pack (isPlus_ofScientific n 0)

/-! ## Sizes -/

theorem isFinite_unpack {b : BitVec Format.binary64.numBits}
    (h : unpackExponent b ≠ -1#_) :
    (unpack Format.binary64 b).isFinite = true := by
  unfold unpack
  dsimp only
  rw [if_neg h]
  split_ifs <;> rfl

/-- A mantissa and an exponent that is not too large make a finite double. -/
theorem isFinite_unpack_pack {sign : Sign} {m : Nat} {e : Int} {hm : 0 < m}
    (he : e ≤ 971) :
    (Float.Model.pack (.finite sign m e hm)).unpack.isFinite = true := by
  refine isFinite_unpack ?_
  change unpackExponent (pack Format.binary64 (.finite sign m e hm)) ≠ -1#11
  have hbiased : (e + 1023 + 52).toNat < 2047 := by omega
  unfold pack
  dsimp only
  rw [if_neg (by change ¬ 2048 ≤ (e + 1023 + 52).toNat + 1; omega)]
  split
  · rw [unpackExponent_packComponents]
    intro heq
    have hnat : (e + 1023 + 52).toNat % 2048 = 2047 :=
      congrArg BitVec.toNat heq
    omega
  · rw [unpackExponent_packComponents]
    decide

/-- **How large a double is** when it is taken apart. -/
theorem unpack_eq_finite {b : BitVec Format.binary64.numBits} {sign : Sign}
    {m : Nat} {e : Int} {hm : 0 < m}
    (h : unpack Format.binary64 b = .finite sign m e hm) :
    m < 2 ^ 53 ∧ -1074 ≤ e ∧ e ≤ 971 := by
  have hmantissa : (unpackMantissa b).toNat < 2 ^ 52 := BitVec.isLt _
  have hexponent : (unpackExponent b).toNat < 2048 := BitVec.isLt _
  have hbias : (Format.binary64.exponentBias : Int) = 1023 := rfl
  unfold unpack at h
  dsimp only at h
  split_ifs at h with hinfinite _ hsubnormal hzero
  · -- a subnormal double, which has the least exponent
    cases h
    have hexponent : (unpackExponent b).toNat = 0 :=
      congrArg BitVec.toNat hsubnormal
    rw [hexponent, hbias]
    omega
  · cases h
    have hleast : (unpackExponent b).toNat ≠ 0 := fun heq =>
      hsubnormal (BitVec.eq_of_toNat_eq heq)
    have hlast : (unpackExponent b).toNat ≠ 2047 := fun heq =>
      hinfinite (BitVec.eq_of_toNat_eq heq)
    refine ⟨BitVec.isLt _, ?_, ?_⟩
    all_goals
      rw [hbias]
      omega

theorem mantissa_shiftRight (em : ExtendedMantissa) (n : Nat) :
    (em >>> n).mantissa = em.mantissa / 2 ^ n := by
  induction n with
  | zero => exact (Nat.div_one _).symm
  | succ n ih =>
    change (em >>> n).mantissa / 2 = _
    rw [ih, Nat.div_div_eq_div_mul, Nat.pow_succ]

theorem roundedMantissa_le (em : ExtendedMantissa) :
    em.roundedMantissa ≤ em.mantissa + 1 := by
  obtain ⟨m, _ | _, _ | _⟩ := em
  · exact Nat.le_succ m
  · exact Nat.le_succ m
  · change m + m % 2 ≤ m + 1
    omega
  · exact Nat.le_refl _

theorem log2_lt {m n : Nat} (hn : 0 < n) (h : m < 2 ^ n) : m.log2 < n := by
  rcases Nat.eq_zero_or_pos m with rfl | hm
  · exact hn
  · exact (Nat.log2_lt hm.ne').mpr h

/-- A number of up to 53 bits above some exponent is not shifted beyond it. -/
theorem exponent_shiftToTargetExponent_le {n : Nat} {e limit : Int}
    (hlimit : -1074 ≤ limit) (he : e ≤ limit)
    (hn : n < 2 ^ (53 + (limit - e).toNat)) :
    (shiftToTargetExponent Format.binary64 n e .exact).2 ≤ limit := by
  have hlog := log2_lt (by omega) hn
  change e + ((max (n.log2 + 1 + e - 53) (-1074) - e).toNat : Int) ≤ limit
  omega

theorem exists_shiftToTargetExponent (n : Nat) (e : Int) :
    ∃ k : Nat, (shiftToTargetExponent Format.binary64 n e .exact).2 = e + k
      ∧ (shiftToTargetExponent Format.binary64 n e .exact).1.mantissa
        = n / 2 ^ k :=
  ⟨_, rfl, mantissa_shiftRight _ _⟩

/-- **A number below a double**: `n` at the exponent `e` is less than the
mantissa `m` at the exponent `limit`. -/
structure LiesBelow (n : Nat) (e : Int) (m : Nat) (limit : Int) : Prop where
  bits : m < 2 ^ 53
  least : -1074 ≤ limit
  le : e ≤ limit
  lt : n < m * 2 ^ (limit - e).toNat

section LiesBelow

variable {n m : Nat} {e limit : Int}

theorem LiesBelow.lt_two_pow (h : LiesBelow n e m limit) :
    n < 2 ^ (53 + (limit - e).toNat) := by
  rw [Nat.pow_add]
  exact h.lt.trans (Nat.mul_lt_mul_of_pos_right h.bits (Nat.two_pow_pos _))

variable {sign sign' : Sign} {m' : Nat} {e' : Int} {hm' : 0 < m'}

/-- **Rounding does not lift a number** above a double that it lies below. -/
theorem exponent_roundWithAccuracy_le (hbelow : LiesBelow n e m limit)
    (h : roundWithAccuracy Format.binary64 sign n e .exact
      = .finite sign' m' e' hm') : e' ≤ limit := by
  obtain ⟨k, hexponent, hmantissa⟩ := exists_shiftToTargetExponent n e
  have hshifted := exponent_shiftToTargetExponent_le hbelow.least hbelow.le
    hbelow.lt_two_pow
  have hrounded := roundedMantissa_le
    (shiftToTargetExponent Format.binary64 n e .exact).1
  unfold roundWithAccuracy at h
  generalize shiftToTargetExponent Format.binary64 n e .exact = shifted
    at h hexponent hmantissa hshifted hrounded
  obtain ⟨em, e₁⟩ := shifted
  dsimp only at h hexponent hmantissa hshifted hrounded
  -- what is shifted out leaves room for rounding up
  have hroom : em.mantissa < m * 2 ^ (limit - e₁).toNat := by
    rw [hmantissa]
    refine Nat.div_lt_of_lt_mul (hbelow.lt.trans_eq ?_)
    rw [Nat.mul_left_comm, ← Nat.pow_add]
    congr 2
    omega
  have hfits : em.roundedMantissa < 2 ^ (53 + (limit - e₁).toNat) := by
    rw [Nat.pow_add]
    exact (hrounded.trans hroom).trans_lt
      (Nat.mul_lt_mul_of_pos_right hbelow.bits (Nat.two_pow_pos _))
  have hlast :=
    exponent_shiftToTargetExponent_le hbelow.least hshifted hfits
  split_ifs at h
  cases h
  exact hlast

theorem exponent_round_le (hbelow : LiesBelow n e m limit)
    (h : UnpackedFloat.round Format.binary64 sign n e
      = .finite sign' m' e' hm') : e' ≤ limit := by
  obtain ⟨k, hround⟩ : ∃ k : Nat, UnpackedFloat.round Format.binary64 sign n e
      = roundWithAccuracy Format.binary64 sign (n <<< k) (e - k) .exact :=
    ⟨_, rfl⟩
  have hle := hbelow.le
  have hshift : (limit - (e - k)).toNat = (limit - e).toNat + k := by omega
  have hshifted : n <<< k < m * 2 ^ (limit - (e - k)).toNat := by
    rw [Nat.shiftLeft_eq, hshift, Nat.pow_add, ← Nat.mul_assoc]
    exact Nat.mul_lt_mul_of_pos_right hbelow.lt (Nat.two_pow_pos k)
  rw [hround] at h
  exact exponent_roundWithAccuracy_le
    ⟨hbelow.bits, hbelow.least, by omega, hshifted⟩ h

theorem isFinite_unpack_pack_round (hbelow : LiesBelow n e m limit)
    (hlimit : limit ≤ 971) :
    (Float.Model.pack
      (UnpackedFloat.round Format.binary64 sign n e)).unpack.isFinite
        = true := by
  cases h : UnpackedFloat.round Format.binary64 sign n e with
  | zero sign => cases sign <;> rfl
  | finite sign' m' e' hm' =>
    exact isFinite_unpack_pack
      ((exponent_round_le hbelow h).trans hlimit)
  | _ =>
    unfold UnpackedFloat.round roundWithAccuracy at h
    dsimp only at h
    split_ifs at h

end LiesBelow

/-! ## Sums -/

theorem ne_negInfinity_of_isPlus {u : UnpackedFloat} (h : IsPlus u) :
    u ≠ .infinity .negative := by
  rintro rfl
  cases h

theorem ne_negInfinity_of_isFinite {u : UnpackedFloat} (h : u.isFinite = true) :
    u ≠ .infinity .negative := by
  rintro rfl
  cases h

/-- A positive number is added to a negative one. -/
theorem unpack_pack_add_ne_negInfinity {m m' : Nat} {e e' : Int} {hm : 0 < m}
    {hm' : 0 < m'} (hlt : m < 2 ^ 53) (he : -1074 ≤ e ∧ e ≤ 971) :
    (Float.Model.pack (add Format.binary64 (.finite .negative m e hm)
      (.finite .positive m' e' hm'))).unpack ≠ .infinity .negative := by
  unfold add decreaseExponent UnpackedFloat.normalize
  dsimp only [Sign.apply]
  split
  · -- the sum lies below what it is made from
    refine ne_negInfinity_of_isFinite (isFinite_unpack_pack_round
      ⟨hlt, he.1, min_le_left e e', ?_⟩ he.2)
    rw [Nat.shiftLeft_eq, Nat.shiftLeft_eq]
    have hpos : 0 < m * 2 ^ (e - min e e').toNat :=
      Nat.mul_pos hm (Nat.two_pow_pos _)
    have hpos' : 0 < m' * 2 ^ (e' - min e e').toNat :=
      Nat.mul_pos hm' (Nat.two_pow_pos _)
    omega
  · exact ne_negInfinity_of_isFinite rfl
  · exact ne_negInfinity_of_isPlus (isPlus_unpack_pack isPlus_roundWithAccuracy)

/-- **A finite double and something that is not negative** do not sum up to minus
infinity. -/
theorem unpack_add_ne_negInfinity {x y : Float} (hx : x.isFinite = true)
    (hy : IsPlus y.toModel.unpack) :
    (x + y).toModel.unpack ≠ .infinity .negative := by
  change (Float.Model.pack (add Format.binary64 x.toModel.unpack
    y.toModel.unpack)).unpack ≠ _
  change x.toModel.unpack.isFinite = true at hx
  revert hy
  cases hu : x.toModel.unpack with
  | notANumber => rw [hu] at hx; cases hx
  | infinity sign => rw [hu] at hx; cases hx
  | zero sign =>
    cases y.toModel.unpack with
    | zero sign' =>
      intro _
      cases sign <;> cases sign' <;> exact ne_negInfinity_of_isFinite rfl
    | _ => exact fun hy => ne_negInfinity_of_isPlus (isPlus_unpack_pack hy)
  | finite sign m e hm =>
    obtain ⟨hlt, he⟩ := unpack_eq_finite hu
    cases y.toModel.unpack with
    | zero sign' =>
      exact fun _ => ne_negInfinity_of_isFinite (isFinite_unpack_pack he.2)
    | finite sign' m' e' hm' =>
      rintro ⟨⟩
      cases sign with
      | negative => exact unpack_pack_add_ne_negInfinity hlt he
      | positive =>
        refine ne_negInfinity_of_isPlus
          (isPlus_unpack_pack (isPlus_normalize ?_))
        exact Int.add_nonneg (Int.natCast_nonneg _) (Int.natCast_nonneg _)
    | _ => exact fun hy => ne_negInfinity_of_isPlus (isPlus_unpack_pack hy)

/-- Nothing is less than minus infinity. -/
theorem not_lt_negInfinity {x y : Float}
    (h : y.toModel.unpack = .infinity .negative) : ¬ x < y := by
  rw [lt_iff]
  rintro ⟨k, hk, l, hl, hlt⟩
  rw [key, h] at hl
  cases Option.some.inj hl
  unfold key at hk
  cases hx : x.toModel.unpack with
  | notANumber => rw [hx] at hk; cases hk
  | _ sign =>
    rw [hx] at hk
    cases Option.some.inj hk
    rw [Prod.Lex.toLex_lt_toLex] at hlt
    cases sign <;> simp [Sign.apply] at hlt

theorem sub_notANumber (u : UnpackedFloat) :
    sub Format.binary64 u .notANumber = .notANumber := by
  cases u <;> rfl

theorem sub_infinity {u : UnpackedFloat} (h : u.isFinite = true) :
    sub Format.binary64 u (.infinity .positive) = .infinity .negative := by
  cases u with
  | notANumber => cases h
  | infinity sign => cases h
  | zero sign => rfl
  | finite sign m e hm => rfl

/-- **A sum that is known to stay below a finite double** is finite, if what is
added is not negative. -/
theorem isFinite_add_of_lt_sub {x y z d : Float} (hx : x.isFinite = true)
    (hy : IsPlus y.toModel.unpack) (hz : z.isFinite = true)
    (h : d < z - (x + y)) : (x + y).isFinite = true := by
  change z.toModel.unpack.isFinite = true at hz
  have hsub : (z - (x + y)).toModel.unpack
      = (Float.Model.pack (sub Format.binary64 z.toModel.unpack
        (x + y).toModel.unpack)).unpack := rfl
  change (x + y).toModel.unpack.isFinite = true
  cases hs : (x + y).toModel.unpack with
  | zero sign => rfl
  | finite sign m e hm => rfl
  | notANumber =>
    have hnan : (z - (x + y)).toModel.unpack = .notANumber := by
      rw [hsub, hs, sub_notANumber]
      rfl
    obtain ⟨k, -, l, hl, -⟩ := lt_iff.mp h
    rw [key, hnan] at hl
    cases hl
  | infinity sign =>
    cases sign with
    | negative => exact absurd hs (unpack_add_ne_negInfinity hx hy)
    | positive =>
      refine absurd h (not_lt_negInfinity ?_)
      rw [hsub, hs, sub_infinity hz]
      rfl

/-- A finite double above zero is of positive sign. -/
theorem isPlus_of_not_le {x : Float} (hx : x.isFinite = true)
    (h : ¬ x ≤ 0) : IsPlus x.toModel.unpack := by
  have hle : x ≤ 0
      ↔ x.toModel.unpack.le (0 : Float).toModel.unpack = true :=
    decide_eq_true_iff
  have hzero : (0 : Float).toModel.unpack = .zero .positive := by rfl
  rw [hle, hzero] at h
  change x.toModel.unpack.isFinite = true at hx
  revert h hx
  rcases x.toModel.unpack with _ | _ | sign | ⟨sign, m, e, hm⟩
  · exact nofun
  · exact nofun
  · exact fun h => absurd rfl h
  · cases sign with
    | negative => exact fun h => absurd rfl h
    | positive => exact fun _ _ => rfl

end Stepwise.Double
