/-!
# Comparing doubles

A comparison of doubles is one of their signs, significands and exponents (`Float.Model.UnpackedFloat`).  Comparisons
with a NaN fail, so a double between bounds is a number; if the bounds are finite so is the double.
-/

namespace SpeechDispatch.Doubles

open Float.Model

theorem le_iff {x y : Float} : x ≤ y ↔ x.toModel.unpack.le y.toModel.unpack = true :=
  ⟨fun h => of_decide_eq_true h, fun h => decide_eq_true h⟩

theorem lt_iff {x y : Float} : x < y ↔ x.toModel.unpack.lt y.toModel.unpack = true :=
  ⟨fun h => of_decide_eq_true h, fun h => decide_eq_true h⟩

theorem unpack_zero : (0 : Float).toModel.unpack = .zero .positive := by rfl

theorem not_isNaN_isInf_of_isFinite {x : Float} (h : x.isFinite = true) : x.isNaN = false ∧ x.isInf = false := by
  change x.toModel.unpack.isFinite = true at h
  change x.toModel.unpack.isNaN = false ∧ x.toModel.unpack.isInf = false
  cases hunpack : x.toModel.unpack with
  | zero | finite => exact ⟨rfl, rfl⟩
  | notANumber | infinity =>
    rw [hunpack] at h
    cases h

/-- Neither a NaN nor an infinity is between zero and a finite double. -/
theorem isFinite_of_le_of_le {x y : Float} (hzero : 0 ≤ x) (hle : x ≤ y) (hy : y.isFinite = true) :
    x.isFinite = true := by
  rw [le_iff, unpack_zero] at hzero
  rw [le_iff] at hle
  change y.toModel.unpack.isFinite = true at hy
  change x.toModel.unpack.isFinite = true
  cases hx : x.toModel.unpack with
  | zero | finite => rfl
  | notANumber =>
    rw [hx] at hzero
    cases hzero
  | infinity sign =>
    rw [hx] at hzero hle
    cases sign with
    | negative => cases hzero
    | positive =>
      cases hbound : y.toModel.unpack with
      | notANumber | zero | finite =>
        rw [hbound] at hle
        cases hle
      | infinity =>
        rw [hbound] at hy
        cases hy

/-- Of two finite doubles one is at most the other; here one of them is zero. -/
theorem zero_le_of_not_le {x : Float} (hx : x.isFinite = true) (hnot : ¬ x ≤ 0) : 0 ≤ x := by
  rw [le_iff, unpack_zero] at hnot ⊢
  change x.toModel.unpack.isFinite = true at hx
  cases hunpack : x.toModel.unpack with
  | notANumber | infinity =>
    rw [hunpack] at hx
    cases hx
  | zero => rfl
  | finite sign significand exponent hpos =>
    cases sign with
    | positive => rfl
    | negative =>
      rw [hunpack] at hnot
      exact absurd rfl hnot

end SpeechDispatch.Doubles
