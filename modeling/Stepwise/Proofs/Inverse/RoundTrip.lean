import Stepwise.Calculator.Linear
import Stepwise.Proofs.Inverse.Agreement
import Stepwise.Proofs.RatMatrix.Text

/-!
# Inverting the texts of an inverse

The calculator shows an inverse as texts, and these can be given to it again.
They are read as the very matrix that was shown, which is the inverse of the one
that was given first and so has that one as its inverse. As an inverse is found
by each method that is offered for its order, and there is only one, inverting
twice gives the matrix of the first grid, each of its numbers in lowest terms
(`Calculator.inverseView_inverseView`).
-/

namespace Stepwise

namespace RatMatrix

/-- A matrix that was made from rows has a row and a column. -/
theorem pos_of_ofRows_eq_ok {rows : List (List Rat)} {m : RatMatrix}
    (h : ofRows rows = .ok m) : 0 < m.rows ∧ 0 < m.cols := by
  unfold ofRows at h
  split at h
  · cases h
  · rename_i first rest
    simp only at h
    split at h
    · cases h
    · split at h
      · cases h
      · obtain rfl := Except.ok.inj h
        exact ⟨Nat.succ_pos _, Nat.pos_of_ne_zero ‹_›⟩

/-- A matrix that was read has a row and a column. -/
theorem pos_of_parse_eq_ok {grid : List (List String)} {m : RatMatrix}
    (h : parse grid = .ok m) : 0 < m.rows ∧ 0 < m.cols := by
  unfold parse at h
  cases hrows : grid.mapM parseVector with
  | error e =>
    rw [hrows] at h
    cases h
  | ok rows =>
    rw [hrows] at h
    exact pos_of_ofRows_eq_ok h

end RatMatrix

namespace Calculator

variable {cells : List (List String)} {method : InverseMethod}

theorem inverseView_of_parse_eq_ok {a : RatMatrix}
    (hparse : RatMatrix.parse cells = .ok a) :
    inverseView cells method
      = ((a.invert method).mapError .inversionFailed).map fun worked =>
          ⟨worked.result.toStrings, worked.trace.map stepView⟩ := by
  unfold inverseView readMatrix
  rw [hparse]
  rfl

/-- **An inverse is shown** when the cells are read and the matrix is
inverted. -/
theorem inverseView_eq_ok_iff {view : InverseView} :
    inverseView cells method = .ok view ↔
      ∃ a worked, RatMatrix.parse cells = .ok a
        ∧ a.invert method = .ok worked
        ∧ view = ⟨worked.result.toStrings, worked.trace.map stepView⟩ := by
  constructor
  · intro h
    cases hparse : RatMatrix.parse cells with
    | error e =>
      unfold inverseView readMatrix at h
      rw [hparse] at h
      cases h
    | ok a =>
      rw [inverseView_of_parse_eq_ok hparse] at h
      cases hinvert : a.invert method with
      | error e =>
        rw [hinvert] at h
        cases h
      | ok worked =>
        rw [hinvert] at h
        exact ⟨a, worked, rfl, hinvert, (Except.ok.inj h).symm⟩
  · rintro ⟨a, worked, hparse, hinvert, rfl⟩
    rw [inverseView_of_parse_eq_ok hparse, hinvert]
    rfl

/-- **Inverting twice gives the matrix back**, through the texts of its inverse
and by any two methods that are offered for its order. -/
theorem inverseView_inverseView {cells : List (List String)}
    {first : InverseMethod} {view : InverseView}
    (h : inverseView cells first = .ok view) :
    ∃ a, RatMatrix.parse cells = .ok a
      ∧ ∀ second : InverseMethod, (second = .adjugate → a.rows ≤ 3) →
        ∃ again, inverseView view.inverse second = .ok again
          ∧ again.inverse = a.toStrings := by
  obtain ⟨a, worked, hparse, hinvert, rfl⟩ := inverseView_eq_ok_iff.mp h
  obtain ⟨hrows, hcols⟩ := RatMatrix.pos_of_parse_eq_ok hparse
  have hinverse : a.IsInverse worked.result :=
    RatMatrix.isInverse_of_invert_eq_ok hrows hinvert
  have hrows' : 0 < worked.result.rows := hinverse.rows_eq ▸ hrows
  have hcols' : 0 < worked.result.cols := hinverse.cols_eq ▸ hrows
  have hread : RatMatrix.parse worked.result.toStrings
      = .ok worked.result := by
    rw [RatMatrix.parse_toStrings, if_neg (Nat.ne_of_gt hrows'),
      if_neg (Nat.ne_of_gt hcols')]
  refine ⟨a, hparse, fun second hle => ?_⟩
  have hdecides := RatMatrix.decides_invert hinverse.symm.square second hrows'
    (fun hsecond => hinverse.rows_eq ▸ hle hsecond)
  obtain ⟨back, hback, hresult⟩ :=
    (hdecides.eq_ok_iff a).mpr hinverse.symm
  exact ⟨_, inverseView_eq_ok_iff.mpr ⟨_, _, hread, hback, rfl⟩,
    congrArg RatMatrix.toStrings hresult⟩

/-- A matrix given by a decimal and by a fraction that is not in lowest terms,
inverted by the adjugate, then back by either method. -/
theorem inverseView_decimal_fraction :
    (∃ view, inverseView [["0,5", "1"], ["6/4", "2"]] .adjugate = .ok view
        ∧ view.inverse = [["-4", "2"], ["3", "-1"]])
      ∧ ∀ second : InverseMethod, ∃ again,
        inverseView [["-4", "2"], ["3", "-1"]] second = .ok again
          ∧ again.inverse = [["1/2", "1"], ["3/2", "2"]] := by
  let m : RatMatrix := ⟨2, 2, #[1 / 2, 1, 3 / 2, 2], rfl⟩
  have hread : RatMatrix.parse [["0,5", "1"], ["6/4", "2"]] = .ok m := by
    decide +kernel
  have htexts : m.toStrings = [["1/2", "1"], ["3/2", "2"]] := by
    decide +kernel
  cases hview : inverseView [["0,5", "1"], ["6/4", "2"]] .adjugate with
  | error e =>
    have hok : (inverseView [["0,5", "1"], ["6/4", "2"]] .adjugate).isOk
        = true := by decide +kernel
    rw [hview] at hok
    cases hok
  | ok view =>
    have hinverse : (inverseView [["0,5", "1"], ["6/4", "2"]]
        .adjugate).toOption.map InverseView.inverse
          = some [["-4", "2"], ["3", "-1"]] := by decide +kernel
    rw [hview] at hinverse
    obtain ⟨a, hparse, hagain⟩ := inverseView_inverseView hview
    obtain rfl : m = a := Except.ok.inj (hread.symm.trans hparse)
    rw [htexts, Option.some.inj hinverse] at hagain
    exact ⟨⟨view, rfl, Option.some.inj hinverse⟩, fun second =>
      hagain second fun _ => by decide⟩

end Calculator

end Stepwise
