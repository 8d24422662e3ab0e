import Mathlib

/-!
# The order of doubles

Doubles are compared by their class, exponent and mantissa, turned around for
negative numbers; a NaN compares with nothing. With these put together into a key
in a linear order (`Double.orderKey`), the comparison is the one of the keys
(`Double.compare_eq`), and the laws of an order hold for all doubles that have a
key. Finite doubles have one.
-/

namespace Stepwise.Double

open Float.Model (UnpackedFloat)
open Float.Model.UnpackedFloat (Sign)

/-! ## Keys -/

/-- The place of a double among all that are not NaN: its class, then its
exponent, then its mantissa. -/
def orderKey : UnpackedFloat → Option (Int ×ₗ Int ×ₗ Int)
  | .notANumber => none
  | .infinity sign => some (toLex (sign.apply 2, toLex (0, 0)))
  | .zero _ => some (toLex (0, toLex (0, 0)))
  | .finite sign m e _ =>
    some (toLex (sign.apply 1, toLex (sign.apply e, sign.apply m)))

theorem compare_toLex {α β : Type} [LinearOrder α] [LinearOrder β]
    (a a' : α) (b b' : β) :
    compare (toLex (a, b)) (toLex (a', b'))
      = (compare a a').then (compare b b') :=
  rfl

theorem compare_neg (a b : Int) :
    compare (-a) (-b) = (compare a b).swap := by
  rw [Int.compare_swap, Int.compare_eq_ite_lt, Int.compare_eq_ite_lt]
  simp only [Int.neg_lt_neg_iff]

theorem compare_natCast (a b : Nat) :
    compare (a : Int) (b : Int) = compare a b := by
  rw [Int.compare_eq_ite_lt, Nat.compare_eq_ite_lt]
  simp only [Int.ofNat_lt]

/-- **The comparison of doubles is the one of their keys.** -/
theorem compare_eq (u v : UnpackedFloat) :
    u.compare v
      = (orderKey u).bind fun k => (orderKey v).map (compare k) := by
  -- classes that differ decide the comparison, so only numbers of one sign
  -- have to be looked into
  rcases u with ⟨_ | _⟩ | _ | s | ⟨_ | _, m, e, h⟩ <;>
    rcases v with ⟨_ | _⟩ | _ | s' | ⟨_ | _, m', e', h'⟩ <;>
    simp only [orderKey, Option.bind_some, Option.bind_none, Option.map_some,
      Option.map_none, compare_toLex, Sign.apply]
  case finite.negative.finite.negative =>
    rw [compare_neg e, compare_neg m, compare_natCast, ← Ordering.swap_then]
    rfl
  case finite.positive.finite.positive =>
    rw [compare_natCast]
    rfl
  all_goals rfl

/-- The key of a double, if it is not NaN. -/
def key (x : Float) : Option (Int ×ₗ Int ×ₗ Int) :=
  orderKey x.toModel.unpack

/-! ## The laws of an order -/

section Laws

variable {x y z : Float}

/-- Only NaN has no key. -/
theorem exists_key_of_ne (h : x.toModel.unpack ≠ .notANumber) :
    ∃ k, key x = some k := by
  unfold key
  cases hx : x.toModel.unpack with
  | notANumber => exact absurd hx h
  | _ => exact ⟨_, rfl⟩

theorem exists_key (h : x.isFinite = true) : ∃ k, key x = some k := by
  refine exists_key_of_ne fun hx => ?_
  change x.toModel.unpack.isFinite = true at h
  rw [hx] at h
  cases h

/-- **Less is less in the order of the keys.** -/
theorem lt_iff : x < y ↔ ∃ k ∈ key x, ∃ l ∈ key y, k < l := by
  have h : x < y
      ↔ (x.toModel.unpack.compare y.toModel.unpack == some .lt) = true :=
    decide_eq_true_iff
  rw [h, compare_eq, beq_iff_eq]
  change ((key x).bind fun k => (key y).map (compare k)) = some .lt ↔ _
  cases key x <;> cases key y <;> simp [compare_lt_iff_lt]

theorem le_iff : x ≤ y ↔ ∃ k ∈ key x, ∃ l ∈ key y, k ≤ l := by
  have h : x ≤ y
      ↔ (x.toModel.unpack.compare y.toModel.unpack).any (·.isLE) = true :=
    decide_eq_true_iff
  rw [h, compare_eq]
  change ((key x).bind fun k => (key y).map (compare k)).any (·.isLE) = true ↔ _
  cases key x <;> cases key y <;> simp [Ordering.isLE_iff_ne_gt, compare_le_iff_le]

/-- **Equal doubles** have one key. -/
theorem beq_iff : (x == y) = true ↔ ∃ k ∈ key x, k ∈ key y := by
  have h : (x == y) = true
      ↔ (x.toModel.unpack.compare y.toModel.unpack == some .eq) = true :=
    Iff.rfl
  rw [h, compare_eq, beq_iff_eq]
  change ((key x).bind fun k => (key y).map (compare k)) = some .eq ↔ _
  cases key x <;> cases key y <;> simp [compare_eq_iff_eq]
  exact eq_comm

theorem not_lt_of_lt (h : x < y) : ¬ y < x := by
  rw [lt_iff] at h ⊢
  obtain ⟨k, hk, l, hl, hlt⟩ := h
  rintro ⟨l', hl', k', hk', hlt'⟩
  cases Option.mem_unique hk hk'
  cases Option.mem_unique hl hl'
  exact lt_asymm hlt hlt'

protected theorem le_of_lt (h : x < y) : x ≤ y := by
  rw [lt_iff] at h
  obtain ⟨k, hk, l, hl, hlt⟩ := h
  exact le_iff.mpr ⟨k, hk, l, hl, hlt.le⟩

theorem not_lt_of_le (h : x ≤ y) : ¬ y < x := by
  rw [le_iff] at h
  rw [lt_iff]
  obtain ⟨k, hk, l, hl, hle⟩ := h
  rintro ⟨l', hl', k', hk', hlt⟩
  cases Option.mem_unique hk hk'
  cases Option.mem_unique hl hl'
  exact hle.not_gt hlt

/-- **Doubles are equal** if each is at most the other. -/
theorem beq_iff_le : (x == y) = true ↔ x ≤ y ∧ y ≤ x := by
  rw [beq_iff, le_iff, le_iff]
  constructor
  · rintro ⟨k, hk, hl⟩
    exact ⟨⟨k, hk, k, hl, le_rfl⟩, ⟨k, hl, k, hk, le_rfl⟩⟩
  · rintro ⟨⟨k, hk, l, hl, hle⟩, l', hl', k', hk', hle'⟩
    cases Option.mem_unique hk hk'
    cases Option.mem_unique hl hl'
    exact ⟨k, hk, le_antisymm hle hle' ▸ hl⟩

protected theorem lt_of_lt_of_le (h : x < y) (h' : y ≤ z) : x < z := by
  rw [lt_iff] at h ⊢
  rw [le_iff] at h'
  obtain ⟨k, hk, l, hl, hlt⟩ := h
  obtain ⟨l', hl', m, hm, hle⟩ := h'
  cases Option.mem_unique hl hl'
  exact ⟨k, hk, m, hm, hlt.trans_le hle⟩

/-- What can be compared is no NaN, so it equals itself. -/
theorem le_self_of_le (h : x ≤ y) : x ≤ x ∧ y ≤ y := by
  rw [le_iff] at h
  obtain ⟨k, hk, l, hl, -⟩ := h
  exact ⟨le_iff.mpr ⟨k, hk, k, hk, le_rfl⟩, le_iff.mpr ⟨l, hl, l, hl, le_rfl⟩⟩

/-- **Of two finite doubles** that are not equal one is less. -/
theorem lt_or_lt (hx : x.isFinite = true) (hy : y.isFinite = true)
    (h : (x == y) = false) : x < y ∨ y < x := by
  obtain ⟨k, hk⟩ := exists_key hx
  obtain ⟨l, hl⟩ := exists_key hy
  have hne : k ≠ l := by
    rintro rfl
    rw [beq_iff.mpr ⟨k, hk, hl⟩] at h
    cases h
  rw [lt_iff, lt_iff]
  exact (lt_or_gt_of_ne hne).imp (fun hlt => ⟨k, hk, l, hl, hlt⟩)
    fun hlt => ⟨l, hl, k, hk, hlt⟩

protected theorem le_of_not_lt (hx : x.isFinite = true) (hy : y.isFinite = true)
    (h : ¬ x < y) : y ≤ x := by
  obtain ⟨k, hk⟩ := exists_key hx
  obtain ⟨l, hl⟩ := exists_key hy
  exact le_iff.mpr ⟨l, hl, k, hk,
    le_of_not_gt fun hlt => h (lt_iff.mpr ⟨k, hk, l, hl, hlt⟩)⟩

/-- A finite double that exceeds nothing which `x` does not reach is less than
whatever `x` is less than. -/
theorem lt_of_not_lt_of_lt (hz : z.isFinite = true) (hzx : ¬ x < z)
    (hxy : x < y) : z < y := by
  rw [lt_iff] at hzx hxy ⊢
  obtain ⟨k, hk, l, hl, hlt⟩ := hxy
  obtain ⟨m, hm⟩ := exists_key hz
  refine ⟨m, hm, l, hl, lt_of_le_of_lt (le_of_not_gt fun hkm => ?_) hlt⟩
  exact hzx ⟨k, hk, m, hm, hkm⟩

end Laws

end Stepwise.Double
