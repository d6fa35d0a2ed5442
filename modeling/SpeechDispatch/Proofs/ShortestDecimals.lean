import SpeechDispatch.Proofs.Packing

/-!
# The shortest numeral of a double

The shortest numeral of a double is one that is rounded to it (`roundsTo_shortest`): on every grid only such numerals
are taken, and the finest grid has one, since the doubles are farther apart than its points.
-/

namespace SpeechDispatch.Decimal

open Doubles

/-- The number that a numeral stands for. -/
def Numeral.value (n : Numeral) : ℚ := n.significand * 10 ^ n.exponent

/-! ### Whole numbers for fractions -/

theorem zpow_eq_div (x : ℚ) (p : Int) : x ^ p = x ^ p.toNat / x ^ (-p).toNat := by
  obtain ⟨n, rfl | rfl⟩ := p.eq_nat_or_neg
  · simp
  · simp

theorem scaled_le_iff {a b : Nat} {p q : Int} :
    (scaled a p b q).1 ≤ (scaled a p b q).2 ↔ (a : ℚ) * 2 ^ p ≤ b * 10 ^ q := by
  rw [zpow_eq_div 2 p, zpow_eq_div 10 q, mul_div_assoc', mul_div_assoc',
    div_le_div_iff₀ (by positivity) (by positivity)]
  exact_mod_cast Iff.rfl

theorem scaled_lt_iff {a b : Nat} {p q : Int} :
    (scaled a p b q).1 < (scaled a p b q).2 ↔ (a : ℚ) * 2 ^ p < b * 10 ^ q := by
  rw [zpow_eq_div 2 p, zpow_eq_div 10 q, mul_div_assoc', mul_div_assoc',
    div_lt_div_iff₀ (by positivity) (by positivity)]
  exact_mod_cast Iff.rfl

theorem le_scaled_iff {a b : Nat} {p q : Int} :
    (scaled a p b q).2 ≤ (scaled a p b q).1 ↔ (b : ℚ) * 10 ^ q ≤ a * 2 ^ p := by
  rw [← not_lt, scaled_lt_iff, not_lt]

theorem lt_scaled_iff {a b : Nat} {p q : Int} :
    (scaled a p b q).2 < (scaled a p b q).1 ↔ (b : ℚ) * 10 ^ q < a * 2 ^ p := by
  rw [← not_le, scaled_le_iff, not_le]

namespace Binary

variable {x : Binary} {n : Numeral}

/-- Four times the lowest number that rounds to a double, in its unit. -/
def low (x : Binary) : Nat := if x.atPower then 4 * x.significand - 1 else 4 * x.significand - 2

/-- What a double covers: the numerals between two bounds, and the bounds if its significand is even. -/
theorem covers_iff : x.covers n = true ↔
    (x.low : ℚ) * 2 ^ (x.exponent - 2) ≤ n.value ∧ n.value ≤ (4 * x.significand + 2 : Nat) * 2 ^ (x.exponent - 2) ∧
      (x.significand % 2 = 1 → (x.low : ℚ) * 2 ^ (x.exponent - 2) < n.value ∧
        n.value < (4 * x.significand + 2 : Nat) * 2 ^ (x.exponent - 2)) := by
  have hcovers : x.covers n =
      let below := scaled x.low (x.exponent - 2) n.significand n.exponent
      let above := scaled (4 * x.significand + 2) (x.exponent - 2) n.significand n.exponent
      if x.significand % 2 = 0 then decide (below.1 ≤ below.2) && decide (above.2 ≤ above.1)
      else decide (below.1 < below.2) && decide (above.2 < above.1) := rfl
  rw [hcovers, Numeral.value]
  dsimp only
  by_cases heven : x.significand % 2 = 0
  · rw [if_pos heven, Bool.and_eq_true, decide_eq_true_eq, decide_eq_true_eq, scaled_le_iff, le_scaled_iff]
    exact ⟨fun h => ⟨h.1, h.2, fun hodd => by omega⟩, fun h => ⟨h.1, h.2.1⟩⟩
  · rw [if_neg heven, Bool.and_eq_true, decide_eq_true_eq, decide_eq_true_eq, scaled_lt_iff, lt_scaled_iff]
    exact ⟨fun h => ⟨h.1.le, h.2.le, fun _ => h⟩, fun h => h.2.2 (by omega)⟩

/-- A numeral that a double covers is rounded to it. -/
theorem roundsTo_of_covers (hx : IsSize x) (h : x.covers n = true) : RoundsTo n.value x.significand x.exponent := by
  have hunit : (0 : ℚ) < 2 ^ x.exponent := by positivity
  have hquarter : ∀ a : ℚ, a * 2 ^ (x.exponent - 2) = a / 4 * 2 ^ x.exponent := by
    intro a
    rw [zpow_sub₀ (by norm_num)]
    ring
  have hpos : (1 : ℚ) ≤ x.significand := by exact_mod_cast hx.double.pos
  have hlow : (4 * x.significand - 2 : ℚ) ≤ x.low ∧ (x.atPower = true → (4 * x.significand - 1 : ℚ) = x.low) := by
    have hpos' := hx.double.pos
    unfold low
    split
    · rw [Nat.cast_sub (by omega)]
      push_cast
      exact ⟨by linarith, fun _ => rfl⟩
    · rename_i hpower
      rw [Nat.cast_sub (by omega)]
      push_cast
      exact ⟨le_refl _, fun h => absurd h hpower⟩
  obtain ⟨hle, hge, hodd⟩ := covers_iff.1 h
  rw [hquarter, ← le_div_iff₀ hunit] at hle
  rw [hquarter, ← div_le_iff₀ hunit] at hge
  rw [hquarter, hquarter, ← lt_div_iff₀ hunit, ← div_lt_iff₀ hunit] at hodd
  push_cast at hge hodd
  refine ⟨⟨?_, ?_, fun h => ?_⟩, fun hpower hleast => ?_⟩
  · linarith
  · linarith
  · obtain ⟨hlt, hgt⟩ := hodd h
    constructor <;> linarith
  · have := hlow.2 (hx.atPower_iff.2 ⟨hpower, hleast⟩)
    linarith

/-! ### The finest grid -/

/-- The numerals around a number on a grid are next to each other. -/
theorem bounds_of_around (x : Binary) (exponent : Int) :
    (x.around exponent).1.value ≤ x.significand * 2 ^ x.exponent ∧
      x.significand * 2 ^ x.exponent < (x.around exponent).1.value + 10 ^ exponent := by
  have hunit : 0 < (scaled x.significand x.exponent 1 exponent).2 :=
    Nat.mul_pos (Nat.mul_pos Nat.one_pos (Nat.pow_pos (by decide))) (Nat.pow_pos (by decide))
  have hmultiple : ∀ count, scaled x.significand x.exponent count exponent =
      ((scaled x.significand x.exponent 1 exponent).1, count * (scaled x.significand x.exponent 1 exponent).2) := by
    intro count
    unfold scaled
    rw [Nat.one_mul, Nat.mul_assoc count]
  have hlower : (x.around exponent).1 = ⟨(scaled x.significand x.exponent 1 exponent).1 /
      (scaled x.significand x.exponent 1 exponent).2, exponent⟩ := rfl
  rw [hlower, Numeral.value]
  generalize scaled x.significand x.exponent 1 exponent = pair at hunit hmultiple
  constructor
  · rw [← le_scaled_iff, hmultiple]
    exact Nat.div_mul_le_self ..
  · have h := (scaled_lt_iff (a := x.significand) (b := pair.1 / pair.2 + 1) (p := x.exponent) (q := exponent)).1 (by
      rw [hmultiple]
      exact Nat.lt_mul_of_div_lt (Nat.lt_succ_self _) hunit)
    push_cast at h
    rwa [add_one_mul] at h

theorem two_pow_lt_ten_pow : (2 : ℚ) ^ 1075 < 10 ^ 324 := by
  have hleft : (2 : ℚ) ^ 93 ≤ 10 ^ 28 := by norm_num
  have hright : (2 : ℚ) ^ 52 < 10 ^ 16 := by norm_num
  calc
    (2 : ℚ) ^ 1075 = (2 ^ 93) ^ 11 * 2 ^ 52 := by rw [← pow_mul, ← pow_add]
    _ ≤ (10 ^ 28) ^ 11 * 2 ^ 52 :=
      mul_le_mul_of_nonneg_right (pow_le_pow_left₀ (by positivity) hleft 11) (by positivity)
    _ < (10 ^ 28) ^ 11 * 10 ^ 16 := mul_lt_mul_of_pos_left hright (by positivity)
    _ = 10 ^ 324 := by rw [← pow_mul, ← pow_add]

/-- Points of the finest grid are closer together than doubles. -/
theorem finestGrid_lt : (10 : ℚ) ^ finestGrid < 2 ^ (-1075 : Int) := by
  have hfine : finestGrid = -(324 : Nat) := rfl
  have hleast : (-1075 : Int) = -(1075 : Nat) := rfl
  rw [hfine, hleast, zpow_neg, zpow_neg, zpow_natCast, zpow_natCast]
  exact inv_strictAnti₀ (by positivity) two_pow_lt_ten_pow

theorem covers_lower (hx : IsSize x) : x.covers (x.around finestGrid).1 = true := by
  obtain ⟨hle, hlt⟩ := x.bounds_of_around finestGrid
  have hpos := hx.double.pos
  have hexponent := hx.double.least
  obtain ⟨least, hleast, hfine⟩ : ∃ least : ℚ, (∀ i : Int, -1075 ≤ i → least ≤ 2 ^ i) ∧ 10 ^ finestGrid < least :=
    ⟨2 ^ (-1075 : Int), fun i hi => zpow_le_zpow_right₀ (by norm_num) hi, finestGrid_lt⟩
  have hunit : (0 : ℚ) < 2 ^ (x.exponent - 2) := by positivity
  have hquarter : (2 : ℚ) ^ x.exponent = 4 * 2 ^ (x.exponent - 2) := by
    rw [zpow_sub₀ (by norm_num)]
    ring
  have hbelow : (x.low : ℚ) * 2 ^ (x.exponent - 2) ≤ x.significand * 2 ^ x.exponent - least := by
    unfold low
    split
    · rename_i hpower
      have hfull := (hx.atPower_iff.1 hpower).2
      have hsmall := hleast (x.exponent - 2) (by omega)
      rw [Nat.cast_sub (by omega), hquarter]
      push_cast
      linarith
    · have hsmall := hleast (x.exponent - 2 + 1) (by omega)
      rw [zpow_add_one₀ (by norm_num)] at hsmall
      rw [Nat.cast_sub (by omega), hquarter]
      push_cast
      linarith
  have habove : (x.significand : ℚ) * 2 ^ x.exponent < (4 * x.significand + 2 : Nat) * 2 ^ (x.exponent - 2) := by
    rw [hquarter]
    push_cast
    linarith
  have hstrict : (x.low : ℚ) * 2 ^ (x.exponent - 2) < (x.around finestGrid).1.value ∧
      (x.around finestGrid).1.value < (4 * x.significand + 2 : Nat) * 2 ^ (x.exponent - 2) :=
    ⟨by linarith, hle.trans_lt habove⟩
  exact covers_iff.2 ⟨hstrict.1.le, hstrict.2.le, fun _ => hstrict⟩

/-! ### All grids -/

theorem covers_of_onGrid? {exponent : Int} (h : x.onGrid? exponent = some n) : x.covers n = true := by
  unfold onGrid? at h
  dsimp only at h
  split at h
  · rename_i hboth
    rw [Bool.and_eq_true] at hboth
    cases h
    split
    · exact hboth.2
    · exact hboth.1
  split at h
  · rename_i hlower
    cases h
    exact hlower
  split at h
  · rename_i hupper
    cases h
    exact hupper
  · cases h

theorem covers_shortestFrom (hx : IsSize x) (count : Nat) : x.covers (x.shortestFrom count) = true := by
  induction count with
  | zero =>
    rw [shortestFrom]
    cases hgrid : x.onGrid? finestGrid with
    | some n => exact covers_of_onGrid? hgrid
    | none =>
      unfold onGrid? at hgrid
      dsimp only at hgrid
      rw [covers_lower hx] at hgrid
      split at hgrid
      · cases hgrid
      · rw [if_pos rfl] at hgrid
        cases hgrid
  | succ count ih =>
    rw [shortestFrom]
    cases hgrid : x.onGrid? (finestGrid + count + 1) with
    | some n => exact covers_of_onGrid? hgrid
    | none => exact ih

/-- The shortest numeral of a double is rounded to it. -/
theorem roundsTo_shortest (hx : IsSize x) : RoundsTo x.shortest.value x.significand x.exponent :=
  roundsTo_of_covers hx (covers_shortestFrom hx 632)

end Binary

end SpeechDispatch.Decimal
