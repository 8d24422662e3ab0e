import Stepwise.Proofs.Number.DoubleWhole
import Stepwise.Roots.Scan

/-!
# The grid of a scan

The points of a scan are `start + i * step`, computed in doubles, and the end of the
range, which takes the place of every point that does not keep clear of it. Rounding
keeps the order, so the points that are kept are the first ones
(`ScanSettings.IsAccepted.exists_grid_eq`), and they come in order, all of them
before the end.

Two things go wrong at the extremes of what is accepted. A point has to keep clear of
the end by a part of the step, so when the step exceeds the range by as much, not even
the start is kept. And when the step is below the spacing of doubles it is lost in the
sum, and neighbouring points are equal. Against the second it is enough that the step
is some units in the last place of the ends (`isGrid_samples`).
-/

namespace Stepwise

open Double
open Float.Model.UnpackedFloat (Sign)

/-- The point `i` steps from the start of a range. -/
def ScanSettings.point (s : ScanSettings) (i : ℕ) : Float :=
  s.start + Float.ofNat i * s.step

/-- Whether a point keeps clear of the end of the range. -/
def ScanSettings.keeps (s : ScanSettings) (x : Float) : Bool :=
  decide (s.step * 1e-9 < s.stop - x)

/-- **What is known of settings that a scan accepts.** -/
structure ScanSettings.IsAccepted (s : ScanSettings) : Prop where
  start : s.start.isFinite = true
  stop : s.stop.isFinite = true
  step : s.step.isFinite = true
  order : ¬ s.stop ≤ s.start
  positive : ¬ s.step ≤ 0
  size : ¬ Float.ofNat maxScanSamples < s.span

theorem ScanSettings.isAccepted_of_validate {scan : ScanSettings}
    (h : scan.validate = .ok ()) : scan.IsAccepted := by
  unfold validate at h
  split at h
  · cases h
  next hfinite =>
  split at h
  · cases h
  next horder =>
  split at h
  · cases h
  next hstep =>
  split at h
  · cases h
  next hsize =>
  rw [Bool.not_eq_true', Bool.not_eq_false, Bool.and_eq_true,
    Bool.and_eq_true] at hfinite
  exact ⟨hfinite.1.1, hfinite.1.2, hfinite.2, horder, hstep, hsize⟩

/-- **The part of a range that keeps some property** is an initial one, if the
property goes down. -/
theorem exists_filter_range_eq {p : ℕ → Bool} {n : ℕ}
    (h : ∀ i j, i < j → j < n → p j = true → p i = true) :
    ∃ k ≤ n, (List.range n).filter p = List.range k := by
  induction n with
  | zero => exact ⟨0, le_rfl, rfl⟩
  | succ n ih =>
    by_cases hn : p n = true
    · refine ⟨n + 1, le_rfl, List.filter_eq_self.mpr fun i hi => ?_⟩
      rcases (Nat.lt_succ_iff.mp (List.mem_range.mp hi)).lt_or_eq with hlt | rfl
      · exact h i n hlt n.lt_succ_self hn
      · exact hn
    · obtain ⟨k, hk, heq⟩ :=
        ih fun i j hij hj => h i j hij (hj.trans n.lt_succ_self)
      refine ⟨k, hk.trans n.le_succ, ?_⟩
      rw [List.range_succ, List.filter_append, heq,
        List.filter_cons_of_neg hn, List.filter_nil, List.append_nil]

/-- How far a rounding is from a number, in terms of a part of the rounding. -/
theorem abs_sub_le_of_abs_le {v r c : ℚ} (hclose : |r - v| ≤ unitRoundoff * |v|)
    (hr : |r| ≤ 2 ^ 51 * c) : |r - v| ≤ 1 / 3 * c := by
  have hunit : unitRoundoff = 1 / 4 / 2 ^ 51 := by
    rw [unitRoundoff]
    norm_num
  have htriangle : |v| ≤ |r| + |r - v| := by
    have hle := abs_sub r (r - v)
    rwa [sub_sub_cancel] at hle
  rw [hunit] at hclose
  linarith [abs_nonneg (r - v)]

section Points

variable {scan : ScanSettings} (h : scan.IsAccepted)

include h

/-! ## The range -/

theorem ScanSettings.IsAccepted.start_lt_stop :
    toRat scan.start < toRat scan.stop := by
  have horder := h.order
  rwa [le_iff_toRat h.stop h.start, not_le] at horder

theorem ScanSettings.IsAccepted.step_pos : 0 < toRat scan.step := by
  have hpositive := h.positive
  rwa [le_iff_toRat h.step isFinite_zero, toRat_zero, not_le] at hpositive

/-- **The width of a range** does not overflow, or the scan would be too long. -/
theorem ScanSettings.IsAccepted.isFinite_width :
    (scan.stop - scan.start).isFinite = true := by
  by_contra hinfinite
  have hwidth := (rounds_sub h.stop h.start).unpack_eq_infinity
    (Bool.not_eq_true _ ▸ hinfinite) (sub_nonneg.mpr h.start_lt_stop.le)
  obtain ⟨m, e, hm, hstep⟩ := exists_unpack_eq_of_pos h.step h.step_pos
  have hspan : scan.span.toModel.unpack = .infinity .positive :=
    unpack_div_infinity hwidth hstep
  exact h.size (lt_of_infinity hspan
    (toRat_ofNat (by norm_num [maxScanSamples])).1)

/-- How many points are computed. -/
theorem ScanSettings.IsAccepted.span_le :
    scan.span.toUInt64.toNat ≤ maxScanSamples :=
  toNat_toUInt64_le (by norm_num [maxScanSamples]) h.size

/-- What lies within the range has a finite distance from its end. -/
theorem ScanSettings.IsAccepted.isFinite_stop_sub {x : Float}
    (hx : x.isFinite = true) (hstart : toRat scan.start ≤ toRat x)
    (hstop : toRat x ≤ toRat scan.stop) : (scan.stop - x).isFinite = true := by
  have hwidth := h.isFinite_width
  rw [(rounds_sub h.stop h.start).isFinite_iff] at hwidth
  rw [(rounds_sub h.stop hx).isFinite_iff]
  refine lt_of_le_of_lt ?_ hwidth
  rw [abs_of_nonneg (by linarith), abs_of_nonneg (by linarith)]
  linarith

/-! ## Points that are kept -/

/-- **A point that is kept is finite**, since it lies before the end. -/
theorem ScanSettings.IsAccepted.isFinite_of_keeps {i : ℕ}
    (hkept : scan.keeps (scan.point i) = true) :
    (scan.point i).isFinite = true :=
  isFinite_add_of_lt_sub h.start
    (isPlus_mul (isPlus_ofNat i) (isPlus_of_not_le h.step h.positive))
    h.stop (of_decide_eq_true hkept)

omit h in
/-- What a finite point is made from. -/
theorem ScanSettings.isFinite_multiple {i : ℕ}
    (hpoint : (scan.point i).isFinite = true) :
    (Float.ofNat i * scan.step).isFinite = true :=
  (isFinite_of_isFinite_add hpoint).2

/-- A multiple of the step is not negative. -/
theorem ScanSettings.IsAccepted.multiple_nonneg {i : ℕ} (hi : i ≤ maxScanSamples)
    (hmultiple : (Float.ofNat i * scan.step).isFinite = true) :
    0 ≤ toRat (Float.ofNat i * scan.step) := by
  obtain ⟨hofNat, hvalue⟩ := toRat_ofNat (n := i)
    (hi.trans_lt (by norm_num [maxScanSamples]))
  refine ((rounds_mul hofNat h.step).rounded hmultiple).ge 0
    isRepresentable_zero ?_
  rw [hvalue]
  exact mul_nonneg (Nat.cast_nonneg i) h.step_pos.le

theorem ScanSettings.IsAccepted.start_le_point {i : ℕ} (hi : i ≤ maxScanSamples)
    (hpoint : (scan.point i).isFinite = true) :
    toRat scan.start ≤ toRat (scan.point i) := by
  have hmultiple := ScanSettings.isFinite_multiple hpoint
  have hnonneg := h.multiple_nonneg hi hmultiple
  exact ((rounds_add h.start hmultiple).rounded hpoint).ge _
    (isRepresentable_toRat h.start) (by linarith)

/-- The first point is the start. -/
theorem ScanSettings.IsAccepted.point_zero :
    (scan.point 0).isFinite = true
      ∧ toRat (scan.point 0) = toRat scan.start := by
  obtain ⟨hofNat, hvalue⟩ := toRat_ofNat (n := 0) (by norm_num)
  have hproduct := rounds_mul hofNat h.step
  rw [hvalue, Nat.cast_zero, zero_mul] at hproduct
  obtain ⟨hfinite, hzero⟩ := hproduct.toRat_eq isRepresentable_zero
    (abs_zero.trans_le largest_pos.le)
  have hsum := rounds_add h.start hfinite
  rw [hzero, add_zero] at hsum
  exact hsum.toRat_eq (isRepresentable_toRat h.start)
    (abs_toRat_le_largest h.start)

/-- **Points come in order**, and one before a finite point is finite. -/
theorem ScanSettings.IsAccepted.point_le {i j : ℕ} (hij : i < j)
    (hj : j ≤ maxScanSamples) (hpoint : (scan.point j).isFinite = true) :
    (scan.point i).isFinite = true
      ∧ toRat (scan.point i) ≤ toRat (scan.point j) := by
  have hmultiple := ScanSettings.isFinite_multiple hpoint
  have hofNat : ∀ {n : ℕ}, n ≤ maxScanSamples →
      (Float.ofNat n).isFinite = true ∧ toRat (Float.ofNat n) = n :=
    fun hn => toRat_ofNat (hn.trans_lt (by norm_num [maxScanSamples]))
  have hstep := h.step_pos
  have hcast : (i : ℚ) ≤ j := by exact_mod_cast hij.le
  -- the earlier multiple is smaller, so it does not overflow either
  have hmultiple' : (Float.ofNat i * scan.step).isFinite = true := by
    rw [(rounds_mul (hofNat hj).1 h.step).isFinite_iff, (hofNat hj).2] at hmultiple
    rw [(rounds_mul (hofNat (hij.le.trans hj)).1 h.step).isFinite_iff,
      (hofNat (hij.le.trans hj)).2]
    refine lt_of_le_of_lt ?_ hmultiple
    rw [abs_of_nonneg (by positivity), abs_of_nonneg (by positivity)]
    exact mul_le_mul_of_nonneg_right hcast hstep.le
  have hnext := toRat_step_add_le h.step hstep hij hj hmultiple' hmultiple
  have hnonneg := h.multiple_nonneg (hij.le.trans hj) hmultiple'
  have hpoint' : (scan.point i).isFinite = true := by
    have hbound := (rounds_add h.start hmultiple).isFinite_iff.mp hpoint
    have hstart := (abs_toRat_le_largest h.start).trans_lt
      largest_lt_overflowBound
    refine (rounds_add h.start hmultiple').isFinite_iff.mpr (abs_lt.mpr ⟨?_, ?_⟩)
    · linarith [(abs_lt.mp hstart).1]
    · linarith [(abs_lt.mp hbound).2]
  exact ⟨hpoint', (rounds_add h.start hmultiple').toRat_le
    (rounds_add h.start hmultiple) hpoint' hpoint (by linarith)⟩

/-- **A point that is kept lies before the end.** -/
theorem ScanSettings.IsAccepted.lt_stop_of_keeps {x : Float}
    (hx : x.isFinite = true) (hkept : scan.keeps x = true) :
    toRat x < toRat scan.stop := by
  have hlt : scan.step * 1e-9 < scan.stop - x := of_decide_eq_true hkept
  have hcut : IsPlus (scan.step * 1e-9).toModel.unpack :=
    isPlus_mul (isPlus_of_not_le h.step h.positive)
      (isPlus_unpack (by decide +kernel))
  have hdistance := rounds_sub h.stop hx
  by_contra hbeyond
  cases hfinite : (scan.stop - x).isFinite with
  | true =>
    have hpos := toRat_pos_of_lt hcut hfinite hlt
    have hle := (hdistance.rounded hfinite).le 0 isRepresentable_zero
      (by linarith)
    exact hpos.not_ge hle
  | false =>
    obtain ⟨sign, hinfinite, hsign⟩ := hdistance.infinite hfinite
    cases sign with
    | negative => exact not_lt_negInfinity hinfinite hlt
    | positive =>
      rw [Sign.apply, Int.cast_one, one_mul] at hsign
      linarith

/-- What precedes a point that is kept has no smaller distance from the end. -/
theorem ScanSettings.IsAccepted.keeps_of_le {x y : Float}
    (hx : x.isFinite = true) (hy : y.isFinite = true)
    (hstart : toRat scan.start ≤ toRat x) (hxy : toRat x ≤ toRat y)
    (hkept : scan.keeps y = true) : scan.keeps x = true := by
  have hstop := (h.lt_stop_of_keeps hy hkept).le
  refine decide_eq_true (Double.lt_of_lt_of_le (of_decide_eq_true hkept) ?_)
  exact sub_le_sub_of_toRat_le h.stop hx hy
    (h.isFinite_stop_sub hx hstart (hxy.trans hstop))
    (h.isFinite_stop_sub hy (hstart.trans hxy) hstop) hxy

/-- **The samples of a scan are finite.** -/
theorem ScanSettings.IsAccepted.isFinite_of_mem_grid {x : Float}
    (hx : x ∈ scan.grid) : x.isFinite = true := by
  rcases List.mem_append.mp hx with hx | hx
  · obtain ⟨hmem, hkept⟩ := List.mem_filter.mp hx
    obtain ⟨i, -, rfl⟩ := List.mem_map.mp hmem
    exact h.isFinite_of_keeps hkept
  · rw [List.mem_singleton.mp hx]
    exact h.stop

/-- Whether the start is kept is told by the width of the range. -/
theorem ScanSettings.IsAccepted.keeps_point_zero :
    scan.keeps (scan.point 0) = true
      ↔ scan.step * 1e-9 < scan.stop - scan.start := by
  obtain ⟨hfinite, hvalue⟩ := h.point_zero
  have hstart : scan.keeps scan.start = true
      ↔ scan.step * 1e-9 < scan.stop - scan.start := decide_eq_true_iff
  rw [← hstart]
  exact ⟨h.keeps_of_le h.start hfinite le_rfl hvalue.ge,
    h.keeps_of_le hfinite h.start hvalue.ge hvalue.le⟩

/-- **The grid of a scan** is made of its first points and the end. -/
theorem ScanSettings.IsAccepted.exists_grid_eq :
    ∃ k, scan.grid = (List.range k).map scan.point ++ [scan.stop]
      ∧ ∀ i, i < k ↔ i ≤ scan.span.toUInt64.toNat
        ∧ scan.keeps (scan.point i) = true := by
  have hdown : ∀ i j, i < j → j < scan.span.toUInt64.toNat + 1 →
      scan.keeps (scan.point j) = true → scan.keeps (scan.point i) = true := by
    intro i j hij hj hkept
    have hj' : j ≤ maxScanSamples := (Nat.lt_succ_iff.mp hj).trans h.span_le
    have hfinite := h.isFinite_of_keeps hkept
    obtain ⟨hfinite', hle⟩ := h.point_le hij hj' hfinite
    exact h.keeps_of_le hfinite' hfinite
      (h.start_le_point (hij.le.trans hj') hfinite') hle hkept
  obtain ⟨k, -, hrange⟩ :=
    exists_filter_range_eq (p := fun i => scan.keeps (scan.point i)) hdown
  refine ⟨k, ?_, fun i => ?_⟩
  · rw [← hrange]
    exact congrArg (· ++ [scan.stop]) List.filter_map
  · rw [← List.mem_range, ← hrange, List.mem_filter, List.mem_range,
      Nat.lt_succ_iff]

/-! ## Steps that are not lost -/

/-- **Neighbouring points differ** if the step is some units in the last place of
the ends: what is lost of two sums is less than what is left of the step. -/
theorem ScanSettings.IsAccepted.point_lt {i j : ℕ} (hij : i < j)
    (hj : j ≤ maxScanSamples) (hkept : scan.keeps (scan.point j) = true)
    (hscale : max |toRat scan.start| |toRat scan.stop|
      ≤ 2 ^ 51 * toRat scan.step) :
    toRat (scan.point i) < toRat (scan.point j) := by
  have hpoint := h.isFinite_of_keeps hkept
  obtain ⟨hpoint', hle⟩ := h.point_le hij hj hpoint
  have hmultiple := ScanSettings.isFinite_multiple hpoint
  have hmultiple' := ScanSettings.isFinite_multiple hpoint'
  have hstep := h.step_pos
  have hnext := toRat_step_add_le h.step hstep hij hj hmultiple' hmultiple
  refine lt_of_le_of_ne hle fun heq => ?_
  -- both sums are rounded to one double between the ends
  have hsize : |toRat (scan.point j)| ≤ 2 ^ 51 * toRat scan.step := by
    refine le_trans ?_ hscale
    exact abs_le_max_abs_abs (h.start_le_point hj hpoint)
      (h.lt_stop_of_keeps hpoint hkept).le
  have herror := abs_toRat_add_sub_le h.start hmultiple hpoint
  have herror' := abs_toRat_add_sub_le h.start hmultiple' hpoint'
  change |toRat (scan.point j) - _| ≤ _ at herror
  change |toRat (scan.point i) - _| ≤ _ at herror'
  rw [heq] at herror'
  have hlost := abs_le.mp (abs_sub_le_of_abs_le herror hsize)
  have hlost' := abs_le.mp (abs_sub_le_of_abs_le herror' hsize)
  linarith [hlost.1, hlost'.2]

/-! ## All samples -/

omit h in
/-- Two steps that are in some relation, and in it with the end. -/
theorem ScanSettings.pairwise_points {R : Float → Float → Prop} {k : ℕ}
    (hpoints : ∀ i j, i < j → j < k → R (scan.point i) (scan.point j))
    (hstop : ∀ i < k, R (scan.point i) scan.stop) :
    ((List.range k).map scan.point ++ [scan.stop]).Pairwise R := by
  refine List.pairwise_append.mpr ⟨List.pairwise_map.mpr ?_,
    List.pairwise_singleton R _, fun x hx y hy => ?_⟩
  · exact List.pairwise_lt_range.imp_of_mem fun _ hj hij =>
      hpoints _ _ hij (List.mem_range.mp hj)
  · obtain ⟨i, hi, rfl⟩ := List.mem_map.mp hx
    rw [List.mem_singleton.mp hy]
    exact hstop i (List.mem_range.mp hi)

end Points

/-- **What the points of a scan are**: the first ones of its grid and the end of its
range, in order. The start is among them unless the step is too large for the range,
and no two are equal unless the step is too small for its ends. -/
structure IsGrid (scan : ScanSettings) (xs : List Float) : Prop where
  steps : ∃ k, xs = (List.range k).map scan.point ++ [scan.stop]
  length_le : xs.length ≤ maxScanSamples + 2
  start : scan.step * 1e-9 < scan.stop - scan.start →
    ∃ x, xs.head? = some x ∧ (x == scan.start) = true
  dropped : ¬ scan.step * 1e-9 < scan.stop - scan.start → xs = [scan.stop]
  stop : xs.getLast? = some scan.stop
  sorted : xs.Pairwise (· ≤ ·)
  increasing : max |toRat scan.start| |toRat scan.stop| ≤ 2 ^ 51 * toRat scan.step →
    xs.Pairwise (· < ·)

theorem ScanSettings.IsAccepted.isGrid {scan : ScanSettings}
    (h : scan.IsAccepted) : IsGrid scan scan.grid := by
  obtain ⟨k, hgrid, hmem⟩ := h.exists_grid_eq
  rw [hgrid]
  have hkept : ∀ {i}, i < k → scan.keeps (scan.point i) = true :=
    fun hi => ((hmem _).mp hi).2
  have hle : ∀ {i}, i < k → i ≤ maxScanSamples :=
    fun hi => ((hmem _).mp hi).1.trans h.span_le
  have hfinite : ∀ {i}, i < k → (scan.point i).isFinite = true :=
    fun hi => h.isFinite_of_keeps (hkept hi)
  have hstop : ∀ i < k, scan.point i < scan.stop := fun i hi =>
    (lt_iff_toRat (hfinite hi) h.stop).mpr
      (h.lt_stop_of_keeps (hfinite hi) (hkept hi))
  have hstart : 0 < k ↔ scan.step * 1e-9 < scan.stop - scan.start := by
    rw [hmem 0, ← h.keeps_point_zero]
    exact and_iff_right (Nat.zero_le _)
  refine ⟨⟨k, rfl⟩, ?_, fun hwide => ?_, fun hnarrow => ?_,
    List.getLast?_concat, ?_, fun hscale => ?_⟩
  · rw [List.length_append, List.length_map, List.length_range,
      List.length_singleton]
    have hbound : k ≤ maxScanSamples + 1 := by
      by_contra hlarge
      have hlast := hle (i := k - 1) (by omega)
      omega
    omega
  · obtain ⟨l, rfl⟩ := Nat.exists_eq_succ_of_ne_zero (hstart.mpr hwide).ne'
    obtain ⟨hpoint, hvalue⟩ := h.point_zero
    refine ⟨scan.point 0, ?_, (beq_iff_toRat hpoint h.start).mpr hvalue⟩
    rw [List.range_succ_eq_map]
    rfl
  · obtain rfl : k = 0 := Nat.eq_zero_of_not_pos (mt hstart.mp hnarrow)
    rfl
  · refine ScanSettings.pairwise_points (fun i j hij hj => ?_)
      fun i hi => Double.le_of_lt (hstop i hi)
    exact (le_iff_toRat (hfinite (hij.trans hj)) (hfinite hj)).mpr
      (h.point_le hij (hle hj) (hfinite hj)).2
  · refine ScanSettings.pairwise_points (fun i j hij hj => ?_) hstop
    exact (lt_iff_toRat (hfinite (hij.trans hj)) (hfinite hj)).mpr
      (h.point_lt hij (hle hj) (hkept hj) hscale)

/-- What is sampled if the settings are accepted. -/
theorem samples_eq_ok {f : Float → Float} {scan : ScanSettings}
    (h : scan.validate = .ok ()) :
    samples f scan = .ok (scan.grid.map fun x => ⟨x, f x⟩) := by
  unfold samples
  rw [h]

/-- **The sampling grid** of any function and any settings that are accepted. -/
theorem isGrid_samples (f : Float → Float) (scan : ScanSettings)
    (h : scan.validate = .ok ()) :
    ∃ points, samples f scan = .ok points
      ∧ IsGrid scan (points.map Sample.x) := by
  refine ⟨_, samples_eq_ok h, ?_⟩
  rw [List.map_map]
  exact (List.map_id scan.grid).symm ▸
    (ScanSettings.isAccepted_of_validate h).isGrid

/-- A quarter divides the range. -/
theorem isGrid_samples_quarters :
    (⟨0, 1, 0.25⟩ : ScanSettings).validate = .ok ()
      ∧ ∃ points, samples (fun x => x) ⟨0, 1, 0.25⟩ = .ok points
        ∧ IsGrid ⟨0, 1, 0.25⟩ (points.map Sample.x) :=
  ⟨rfl, isGrid_samples (fun x => x) ⟨0, 1, 0.25⟩ rfl⟩

/-- **Steps that are too large and too small**: of the range from 0 to 1 only the end
is sampled in steps of `10¹⁰`, and at `10¹⁶` steps of a half do not increase. -/
theorem samples_extreme_steps :
    (∃ points, samples (fun x => x) ⟨0, 1, 1e10⟩ = .ok points
        ∧ points.map Sample.x = [1])
      ∧ ∃ points, samples (fun x => x) ⟨1e16, 1e16 + 4, 0.5⟩ = .ok points
        ∧ ¬ (points.map Sample.x).Pairwise (· < ·) :=
  ⟨⟨_, rfl, rfl⟩, _, samples_eq_ok rfl, by decide +kernel⟩

end Stepwise
