import Mathlib.Data.Int.Log
import Mathlib.Data.Rat.Floor
import SpeechDispatch.Proofs.DecimalReading

/-!
# Doubles as numbers

A double that is no NaN, not infinite and not below zero stands for a number (`HasValue`), and two of them compare as
their numbers do (`le_iff_of_hasValue`).

Products and quotients of such doubles are those of the numbers, rounded.  Every number is rounded to a double
(`exists_roundsTo`), and a greater number never to a lesser double (`IsRounded.mono`), so what bounds the exact result
and is a double itself bounds the computed one.
-/

namespace SpeechDispatch.Doubles

open Float.Model Float.Model.UnpackedFloat

/-! ### The nearest whole number -/

theorem isNearest_natCast (m : Nat) : IsNearest m m := by
  refine ⟨?_, ?_, fun _ => ⟨?_, ?_⟩⟩ <;> linarith

theorem IsNearest.mono {m m' : Nat} {x x' : ℚ} (h : IsNearest m x) (h' : IsNearest m' x') (hle : x ≤ x') :
    m ≤ m' := by
  by_contra hnot
  have hlow := h.low
  have hhigh := h'.high
  have hstep : (m' : ℚ) + 1 ≤ m := by exact_mod_cast (by omega : m' + 1 ≤ m)
  -- Both numbers are in the middle between the two, of which one is odd.
  have hsucc : m = m' + 1 := by exact_mod_cast (by linarith : (m : ℚ) = m' + 1)
  by_cases hodd : m % 2 = 1
  · have := (h.odd hodd).1
    linarith
  · have := (h'.odd (by omega)).2
    linarith

theorem exists_isNearest {x : ℚ} (hx : 0 ≤ x) : ∃ m, IsNearest m x := by
  obtain ⟨n, hn⟩ : ∃ n, n = ⌊x⌋₊ := ⟨_, rfl⟩
  have hlow : (n : ℚ) ≤ x := hn ▸ Nat.floor_le hx
  have hhigh : x < n + 1 := hn ▸ Nat.lt_floor_add_one x
  obtain hbelow | hmiddle | habove := lt_trichotomy x (n + 1 / 2)
  · exact ⟨n, by linarith, hbelow.le, fun _ => ⟨by linarith, hbelow⟩⟩
  · by_cases heven : n % 2 = 0
    · exact ⟨n, by linarith, hmiddle.le, fun hodd => by omega⟩
    · refine ⟨n + 1, ?_, ?_, fun hodd => by omega⟩ <;> push_cast <;> linarith
  · refine ⟨n + 1, ?_, ?_, fun _ => ⟨?_, ?_⟩⟩ <;> push_cast <;> linarith

/-! ### The nearest double -/

private theorem two_mul_zpow_le {e e' : Int} (h : e < e') : 2 * (2 : ℚ) ^ e ≤ 2 ^ e' :=
  calc
    2 * (2 : ℚ) ^ e = 2 ^ (e + 1) := by rw [zpow_add_one₀ (by norm_num), mul_comm]
    _ ≤ 2 ^ e' := zpow_le_zpow_right₀ (by norm_num) (by omega)

theorem IsDouble.full_of_lt {m m' : Nat} {e e' : Int} (h : IsDouble m e) (h' : IsDouble m' e') (hlt : e < e') :
    2 ^ 52 ≤ m' := by
  have := h.least
  exact h'.full.resolve_right (by omega)

theorem IsDouble.lt_of_exponent_lt {m m' : Nat} {e e' : Int} (h : IsDouble m e) (h' : IsDouble m' e')
    (hlt : e < e') : (m : ℚ) * 2 ^ e < m' * 2 ^ e' := by
  have he : (0 : ℚ) < 2 ^ e := by positivity
  have hm : (m : ℚ) < 2 ^ 53 := by exact_mod_cast h.lt
  have hm' : (2 : ℚ) ^ 52 ≤ m' := by exact_mod_cast h.full_of_lt h' hlt
  calc
    (m : ℚ) * 2 ^ e < 2 ^ 53 * 2 ^ e := mul_lt_mul_of_pos_right hm he
    _ = 2 ^ 52 * (2 * 2 ^ e) := by ring
    _ ≤ m' * 2 ^ e' := mul_le_mul hm' (two_mul_zpow_le hlt) (by positivity) (by positivity)

/-- Doubles compare by their exponents first. -/
theorem IsDouble.compare_eq {m m' : Nat} {e e' : Int} (h : IsDouble m e) (h' : IsDouble m' e') :
    compare ((m : ℚ) * 2 ^ e) (m' * 2 ^ e') = (compare e e').then (compare m m') := by
  obtain hlt | rfl | hgt := lt_trichotomy e e'
  · rw [compare_lt_iff_lt.2 hlt, compare_lt_iff_lt.2 (h.lt_of_exponent_lt h' hlt)]
    rfl
  · have he : (0 : ℚ) < 2 ^ e := by positivity
    have hscale : compare ((m : ℚ) * 2 ^ e) (m' * 2 ^ e) = compare m m' := by
      obtain hlt | rfl | hgt := lt_trichotomy m m'
      · rw [compare_lt_iff_lt.2 hlt, compare_lt_iff_lt.2 (mul_lt_mul_of_pos_right (by exact_mod_cast hlt) he)]
      · rw [compare_eq_iff_eq.2 rfl, compare_eq_iff_eq.2 rfl]
      · rw [compare_gt_iff_gt.2 hgt, compare_gt_iff_gt.2 (mul_lt_mul_of_pos_right (by exact_mod_cast hgt) he)]
    rw [hscale, compare_eq_iff_eq.2 rfl]
    rfl
  · rw [compare_gt_iff_gt.2 hgt, compare_gt_iff_gt.2 (h'.lt_of_exponent_lt h hgt)]
    rfl

/-- What is rounded to a double with a leading bit is not below all that is rounded to doubles of lesser exponents. -/
private theorem RoundsTo.low {v : ℚ} {m : Nat} {e : Int} (h : RoundsTo v m e) (hfull : 2 ^ 52 ≤ m)
    (hleast : -1074 < e) : ((2 : ℚ) ^ 52 - 1 / 4) * 2 ^ e ≤ v := by
  have he : (0 : ℚ) < 2 ^ e := by positivity
  refine (le_div_iff₀ he).1 ?_
  by_cases hpower : m = 2 ^ 52
  · have := h.atPower hpower hleast
    rw [hpower] at this
    exact_mod_cast this
  · have hlow := h.nearest.low
    have hm : (2 : ℚ) ^ 52 + 1 ≤ m := by exact_mod_cast (by omega : 2 ^ 52 + 1 ≤ m)
    linarith

private theorem RoundsTo.high {v : ℚ} {m : Nat} {e : Int} (h : RoundsTo v m e) (hdouble : IsDouble m e) :
    v < ((2 : ℚ) ^ 53 - 1 / 2) * 2 ^ e := by
  have he : (0 : ℚ) < 2 ^ e := by positivity
  have hlt := hdouble.lt
  refine (div_lt_iff₀ he).1 ?_
  by_cases hlast : m = 2 ^ 53 - 1
  · have hodd := (h.nearest.odd (by rw [hlast]; decide)).2
    have hm : (m : ℚ) + 1 = 2 ^ 53 := by exact_mod_cast (by omega : m + 1 = 2 ^ 53)
    linarith
  · have hhigh := h.nearest.high
    have hm : (m : ℚ) + 2 ≤ 2 ^ 53 := by exact_mod_cast (by omega : m + 2 ≤ 2 ^ 53)
    linarith

/-- A greater number is not rounded to a lesser double. -/
theorem RoundsTo.mono {v v' : ℚ} {m m' : Nat} {e e' : Int} (h : RoundsTo v m e) (hdouble : IsDouble m e)
    (h' : RoundsTo v' m' e') (hdouble' : IsDouble m' e') (hle : v ≤ v') : (m : ℚ) * 2 ^ e ≤ m' * 2 ^ e' := by
  obtain hlt | rfl | hgt := lt_trichotomy e e'
  · exact (hdouble.lt_of_exponent_lt hdouble' hlt).le
  · have he : (0 : ℚ) < 2 ^ e := by positivity
    have hquotients : v / 2 ^ e ≤ v' / 2 ^ e := div_le_div_of_nonneg_right hle he.le
    exact mul_le_mul_of_nonneg_right (by exact_mod_cast h.nearest.mono h'.nearest hquotients) he.le
  · have hleast : -1074 < e := lt_of_le_of_lt hdouble'.least hgt
    have hlow := h.low (hdouble'.full_of_lt hdouble hgt) hleast
    have hhigh := h'.high hdouble'
    have hscale := two_mul_zpow_le hgt
    have hbetween : ((2 : ℚ) ^ 53 - 1 / 2) * 2 ^ e' ≤ (2 ^ 52 - 1 / 4) * 2 ^ e :=
      calc
        ((2 : ℚ) ^ 53 - 1 / 2) * 2 ^ e' = (2 ^ 52 - 1 / 4) * (2 * 2 ^ e') := by ring
        _ ≤ (2 ^ 52 - 1 / 4) * 2 ^ e := mul_le_mul_of_nonneg_left hscale (by norm_num)
    linarith

/-- The least double above zero. -/
def leastDouble : ℚ := 2 ^ (-1074 : Int)

theorem leastDouble_pos : 0 < leastDouble := by
  unfold leastDouble
  positivity

theorem leastDouble_le_thousandth : leastDouble ≤ 1 / 1000 :=
  calc
    leastDouble ≤ 2 ^ (-10 : Int) := zpow_le_zpow_right₀ (by norm_num) (by decide)
    _ ≤ 1 / 1000 := by norm_num

/-- Every number from the least double on is rounded to a double. -/
theorem exists_roundsTo {v : ℚ} (hv : leastDouble ≤ v) : ∃ m e, IsDouble m e ∧ RoundsTo v m e := by
  have hpos : 0 < v := lt_of_lt_of_le leastDouble_pos hv
  obtain ⟨k, hlow, hhigh⟩ : ∃ k : Int, (2 : ℚ) ^ k ≤ v ∧ v < 2 ^ (k + 1) :=
    ⟨Int.log 2 v, Int.zpow_log_le_self (by norm_num) hpos, Int.lt_zpow_succ_log_self (by norm_num) v⟩
  -- The exponent with which the whole part has 53 bits, or the least.
  obtain ⟨e, he⟩ : ∃ e, e = max (k - 52) (-1074) := ⟨_, rfl⟩
  have hunit : (0 : ℚ) < 2 ^ e := by positivity
  have hlt : v / 2 ^ e < (2 ^ 53 : Nat) := by
    rw [div_lt_iff₀ hunit]
    calc
      v < 2 ^ (k + 1) := hhigh
      _ ≤ 2 ^ (53 + e) := zpow_le_zpow_right₀ (by norm_num) (by omega)
      _ = (2 ^ 53 : Nat) * 2 ^ e := by rw [zpow_add₀ (by norm_num)]; norm_num
  have hfull : -1074 < e → ((2 ^ 52 : Nat) : ℚ) ≤ v / 2 ^ e := by
    intro hleast
    rw [le_div_iff₀ hunit]
    calc
      ((2 ^ 52 : Nat) : ℚ) * 2 ^ e = 2 ^ (52 + e) := by rw [zpow_add₀ (by norm_num)]; norm_num
      _ ≤ 2 ^ k := zpow_le_zpow_right₀ (by norm_num) (by omega)
      _ ≤ v := hlow
  have hone : ((1 : Nat) : ℚ) ≤ v / 2 ^ e := by
    by_cases hleast : e = -1074
    · rw [hleast, Nat.cast_one, one_le_div (by positivity)]
      exact hv
    · have := hfull (by omega)
      exact le_trans (by norm_num) this
  obtain ⟨m, hm⟩ := exists_isNearest (x := v / 2 ^ e) (by positivity)
  have hmpos : 1 ≤ m := (isNearest_natCast 1).mono hm hone
  have hmtop : m ≤ 2 ^ 53 := hm.mono (isNearest_natCast (2 ^ 53)) hlt.le
  have hmfull : 2 ^ 52 ≤ m ∨ e = -1074 := by
    by_cases hleast : e = -1074
    · exact .inr hleast
    · exact .inl ((isNearest_natCast (2 ^ 52)).mono hm (hfull (by omega)))
  by_cases hcarry : m = 2 ^ 53
  · have hhalf : v / 2 ^ (e + 1) = v / 2 ^ e / 2 := by
      rw [zpow_add_one₀ (by norm_num), div_div]
    have hbelow := hm.low
    rw [hcarry] at hbelow
    push_cast at hbelow hlt
    refine ⟨2 ^ 52, e + 1, ⟨by norm_num, by norm_num, by omega, .inl le_rfl⟩, ⟨?_, fun _ _ => ?_⟩⟩
    · rw [hhalf]
      refine ⟨?_, ?_, fun hodd => absurd hodd (by decide)⟩ <;> push_cast <;> linarith
    · rw [hhalf]
      push_cast
      linarith
  · refine ⟨m, e, ⟨hmpos, by omega, by omega, hmfull⟩, hm, fun hpower hleast => ?_⟩
    have := hfull hleast
    rw [hpower]
    linarith

theorem RoundsTo.pos {v : ℚ} {m : Nat} {e : Int} (h : RoundsTo v m e) (hdouble : IsDouble m e) : 0 < v := by
  have he : (0 : ℚ) < 2 ^ e := by positivity
  have hm : (1 : ℚ) ≤ m := by exact_mod_cast hdouble.pos
  have hlow := (le_div_iff₀ he).1 h.nearest.low
  exact lt_of_lt_of_le (mul_pos (by linarith) he) hlow

/-- A number of moderate size is rounded to a double that is not infinite. -/
theorem RoundsTo.exponent_le {v : ℚ} {m : Nat} {e : Int} (h : RoundsTo v m e) (hdouble : IsDouble m e)
    (hv : v ≤ 2 ^ 1000) : e ≤ 971 := by
  obtain hfull | hleast := hdouble.full
  · have hlow := h.zpow_lt hfull
    rw [← zpow_natCast] at hv
    have := lt_of_zpow_lt (hlow.trans_le hv)
    omega
  · omega

/-! ### Rounded numbers -/

/-- What a number is rounded to, as a number. -/
def IsRounded (v w : ℚ) : Prop :=
  v = 0 ∧ w = 0 ∨ ∃ m e, IsDouble m e ∧ RoundsTo v m e ∧ w = m * 2 ^ e

namespace IsRounded

variable {v v' w w' : ℚ}

theorem nonneg (h : IsRounded v w) : 0 ≤ w := by
  obtain ⟨-, rfl⟩ | ⟨m, e, -, -, rfl⟩ := h
  · exact le_rfl
  · positivity

theorem mono (h : IsRounded v w) (h' : IsRounded v' w') (hle : v ≤ v') : w ≤ w' := by
  obtain ⟨-, rfl⟩ | ⟨m, e, hdouble, hrounds, rfl⟩ := h
  · exact h'.nonneg
  · obtain ⟨rfl, -⟩ | ⟨m', e', hdouble', hrounds', rfl⟩ := h'
    · exact absurd hle (not_le.2 (hrounds.pos hdouble))
    · exact hrounds.mono hdouble hrounds' hdouble' hle

theorem unique (h : IsRounded v w) (h' : IsRounded v w') : w = w' := le_antisymm (h.mono h' le_rfl) (h'.mono h le_rfl)

end IsRounded

/-! ### The numbers of doubles -/

/-- What stands for a number that is zero or more. -/
inductive Holds : UnpackedFloat → ℚ → Prop
  | zero (sign : Sign) : Holds (.zero sign) 0
  | finite {m e} (h : IsDouble m e) : Holds (.finite .positive m e h.pos) (m * 2 ^ e)

/-- The number for which a double stands that is zero or more. -/
def HasValue (x : Float) (v : ℚ) : Prop := Holds x.toModel.unpack v

namespace Holds

variable {u u' : UnpackedFloat} {v v' : ℚ}

theorem nonneg (h : Holds u v) : 0 ≤ v := by
  cases h with
  | zero => exact le_rfl
  | finite => positivity

theorem unique (h : Holds u v) (h' : Holds u v') : v = v' := by
  cases h <;> cases h' <;> rfl

theorem eq_zero_or_le (h : Holds u v) : v = 0 ∨ leastDouble ≤ v := by
  cases h with
  | zero => exact .inl rfl
  | @finite m e h =>
    have hm : (1 : ℚ) ≤ m := by exact_mod_cast h.pos
    have he : leastDouble ≤ 2 ^ e := zpow_le_zpow_right₀ (by norm_num) h.least
    exact .inr (he.trans (le_mul_of_one_le_left (by positivity) hm))

/-- The number of a double is not rounded. -/
theorem isRounded (h : Holds u v) : IsRounded v v := by
  cases h with
  | zero => exact .inl ⟨rfl, rfl⟩
  | @finite m e h => exact .inr ⟨m, e, h, roundsTo_self m e, rfl⟩

/-- What stands for numbers compares as they do. -/
theorem compare_eq (h : Holds u v) (h' : Holds u' v') : u.compare u' = some (compare v v') := by
  cases h with
  | zero =>
    cases h' with
    | zero => rw [compare_eq_iff_eq.2 rfl]; rfl
    | @finite m e hdouble =>
      have hpos : (0 : ℚ) < m * 2 ^ e := mul_pos (by exact_mod_cast hdouble.pos) (by positivity)
      rw [compare_lt_iff_lt.2 hpos]
      rfl
  | @finite m e hdouble =>
    cases h' with
    | zero =>
      have hpos : (0 : ℚ) < m * 2 ^ e := mul_pos (by exact_mod_cast hdouble.pos) (by positivity)
      rw [compare_gt_iff_gt.2 hpos]
      rfl
    | @finite m' e' hdouble' =>
      rw [hdouble.compare_eq hdouble']
      rfl

theorem le_iff (h : Holds u v) (h' : Holds u' v') : u.le u' = true ↔ v ≤ v' := by
  rw [UnpackedFloat.le, h.compare_eq h', ← compare_le_iff_le]
  cases compare v v' <;> simp

theorem lt_iff (h : Holds u v) (h' : Holds u' v') : u.lt u' = true ↔ v < v' := by
  rw [UnpackedFloat.lt, h.compare_eq h', ← compare_lt_iff_lt]
  cases compare v v' <;> simp

theorem zero_le_of_le (h : Holds u v) (hle : u.le u' = true) : (UnpackedFloat.zero .positive).le u' = true := by
  cases u' with
  | notANumber => cases h <;> cases hle
  | zero => rfl
  | infinity sign | finite sign =>
    cases sign with
    | positive => rfl
    | negative => cases h <;> cases hle

theorem lt_infinity (h : Holds u v) : u.lt (.infinity .positive) = true := by cases h <;> rfl

end Holds

theorem eq_infinity_of_le {u : UnpackedFloat} (h : (UnpackedFloat.infinity .positive).le u = true) :
    u = .infinity .positive := by
  cases u with
  | infinity sign =>
    cases sign with
    | positive => rfl
    | negative => cases h
  | notANumber | zero | finite => cases h

theorem le_iff_of_hasValue {x y : Float} {v w : ℚ} (hx : HasValue x v) (hy : HasValue y w) : x ≤ y ↔ v ≤ w :=
  Doubles.le_iff.trans (hx.le_iff hy)

theorem lt_iff_of_hasValue {x y : Float} {v w : ℚ} (hx : HasValue x v) (hy : HasValue y w) : x < y ↔ v < w :=
  Doubles.lt_iff.trans (hx.lt_iff hy)

/-- The significand and the exponent of a double are as they are stored. -/
theorem isDouble_of_unpack {x : Float} {sign : Sign} {m : Nat} {e : Int} {hpos : 0 < m}
    (h : x.toModel.unpack = .finite sign m e hpos) : IsDouble m e := by
  have hfinite : x.isFinite = true := by
    change x.toModel.unpack.isFinite = true
    rw [h]
    rfl
  have hne : x.toBits.toNat % size63 ≠ 0 := by
    intro hzero
    rw [unpack_of_size_eq_zero hzero] at h
    cases h
  obtain ⟨hsize, hunpack⟩ := exists_unpack hfinite hne
  rw [h] at hunpack
  obtain ⟨-, rfl, rfl⟩ := UnpackedFloat.finite.inj hunpack
  exact hsize.double

theorem hasValue_of_unpack {x : Float} {m : Nat} {e : Int} {hpos : 0 < m}
    (h : x.toModel.unpack = .finite .positive m e hpos) : HasValue x (m * 2 ^ e) := by
  rw [HasValue, h]
  exact .finite (isDouble_of_unpack h)

/-- A double that is at least zero is a number or infinite. -/
theorem exists_hasValue_or_eq_infinity {x : Float} (h : 0 ≤ x) :
    (∃ v, HasValue x v) ∨ x.toModel.unpack = .infinity .positive := by
  rw [Doubles.le_iff, unpack_zero] at h
  cases hunpack : x.toModel.unpack with
  | notANumber =>
    rw [hunpack] at h
    cases h
  | zero sign =>
    refine .inl ⟨0, ?_⟩
    rw [HasValue, hunpack]
    exact .zero sign
  | infinity sign =>
    cases sign with
    | positive => exact .inr rfl
    | negative =>
      rw [hunpack] at h
      cases h
  | finite sign m e hpos =>
    cases sign with
    | positive => exact .inl ⟨_, hasValue_of_unpack hunpack⟩
    | negative =>
      rw [hunpack] at h
      cases h

/-! ### Computing with doubles -/

theorem holds_pack_zero (sign : Sign) : Holds (Float.Model.pack (.zero sign)).unpack 0 := by
  have hunpack : (Float.Model.pack (.zero sign)).unpack = .zero sign := by cases sign <;> rfl
  rw [hunpack]
  exact .zero sign

theorem hasValue_zero : HasValue (0 : Float) 0 := holds_pack_zero _

theorem holds_pack {m : Nat} {e : Int} (hdouble : IsDouble m e) (htop : e ≤ 971) :
    Holds (Float.Model.pack (.finite .positive m e hdouble.pos)).unpack (m * 2 ^ e) := by
  rw [unpack_pack hdouble htop]
  exact .finite hdouble

theorem mul_of_roundsTo {m₁ m₂ : Nat} {e₁ e₂ : Int} (h₁ : IsDouble m₁ e₁) (h₂ : IsDouble m₂ e₂) {m : Nat} {e : Int}
    (hdouble : IsDouble m e) (h : RoundsTo ((m₁ * 2 ^ e₁) * (m₂ * 2 ^ e₂)) m e) :
    UnpackedFloat.mul .binary64 (.finite .positive m₁ e₁ h₁.pos) (.finite .positive m₂ e₂ h₂.pos) =
      .finite .positive m e hdouble.pos := by
  have hvalue : ((m₁ * m₂ : Nat) : ℚ) / (1 : Nat) * 2 ^ (e₁ + e₂) = (m₁ * 2 ^ e₁) * (m₂ * 2 ^ e₂) := by
    rw [zpow_add₀ (by norm_num)]
    push_cast
    ring
  have hbits : e₁ + e₂ ≤ -1074 ∨ 2 ^ 52 ≤ m₁ * m₂ / 1 := by
    rw [Nat.div_one]
    obtain hfull | hleast := h₁.full
    · exact .inr (hfull.trans (Nat.le_mul_of_pos_right _ h₂.pos))
    · obtain hfull | hleast' := h₂.full
      · exact .inr (hfull.trans (Nat.le_mul_of_pos_left _ h₁.pos))
      · exact .inl (by omega)
  have hround := roundWithAccuracy_of_roundsTo Nat.one_pos hdouble (hvalue ▸ h) hbits .positive
  rwa [Nat.div_one, Nat.mod_one] at hround

/-- Numbers that are zero, or neither too small nor too large for a double. -/
def IsModerate (v : ℚ) : Prop := v = 0 ∨ leastDouble ≤ v ∧ v ≤ 2 ^ 1000

theorem isModerate_of_le {v : ℚ} (hlow : v = 0 ∨ leastDouble ≤ v) (hhigh : v ≤ 2 ^ 53) : IsModerate v :=
  hlow.imp_right fun hlow => ⟨hlow, hhigh.trans (pow_le_pow_right₀ (by norm_num) (by decide))⟩

/-- A product of doubles is the product of their numbers, rounded. -/
theorem exists_hasValue_mul {x y : Float} {v w : ℚ} (hx : HasValue x v) (hy : HasValue y w)
    (hsize : IsModerate (v * w)) : ∃ z, HasValue (x * y) z ∧ IsRounded (v * w) z := by
  change ∃ z, Holds (Float.Model.pack (UnpackedFloat.mul .binary64 x.toModel.unpack y.toModel.unpack)).unpack z ∧ _
  unfold HasValue at hx hy
  generalize x.toModel.unpack = a, y.toModel.unpack = b at hx hy ⊢
  cases hx with
  | zero =>
    refine ⟨0, ?_, .inl ⟨zero_mul _, rfl⟩⟩
    cases hy <;> exact holds_pack_zero _
  | @finite m₁ e₁ h₁ =>
    cases hy with
    | zero => exact ⟨0, holds_pack_zero _, .inl ⟨mul_zero _, rfl⟩⟩
    | @finite m₂ e₂ h₂ =>
      have hm₁ : (0 : ℚ) < m₁ := by exact_mod_cast h₁.pos
      have hm₂ : (0 : ℚ) < m₂ := by exact_mod_cast h₂.pos
      obtain ⟨hlow, hhigh⟩ := hsize.resolve_left (by positivity)
      obtain ⟨m, e, hdouble, hrounds⟩ := exists_roundsTo hlow
      refine ⟨m * 2 ^ e, ?_, .inr ⟨m, e, hdouble, hrounds, rfl⟩⟩
      rw [mul_of_roundsTo h₁ h₂ hdouble hrounds]
      exact holds_pack hdouble (hrounds.exponent_le hdouble hhigh)

/-- A quotient of doubles is the quotient of their numbers, rounded. -/
theorem exists_hasValue_div {x y : Float} {v w : ℚ} (hx : HasValue x v) (hy : HasValue y w) (hw : w ≠ 0)
    (hsize : IsModerate (v / w)) : ∃ z, HasValue (x / y) z ∧ IsRounded (v / w) z := by
  change ∃ z, Holds (Float.Model.pack (UnpackedFloat.div .binary64 x.toModel.unpack y.toModel.unpack)).unpack z ∧ _
  unfold HasValue at hx hy
  generalize x.toModel.unpack = a, y.toModel.unpack = b at hx hy ⊢
  cases hy with
  | zero => exact absurd rfl hw
  | @finite m₂ e₂ h₂ =>
    cases hx with
    | zero => exact ⟨0, holds_pack_zero _, .inl ⟨zero_div _, rfl⟩⟩
    | @finite m₁ e₁ h₁ =>
      have hm₁ : (0 : ℚ) < m₁ := by exact_mod_cast h₁.pos
      have hm₂ : (0 : ℚ) < m₂ := by exact_mod_cast h₂.pos
      obtain ⟨hlow, hhigh⟩ := hsize.resolve_left (by positivity)
      obtain ⟨m, e, hdouble, hrounds⟩ := exists_roundsTo hlow
      refine ⟨m * 2 ^ e, ?_, .inr ⟨m, e, hdouble, hrounds, rfl⟩⟩
      rw [div_of_roundsTo h₁.pos h₂.pos hdouble hrounds]
      exact holds_pack hdouble (hrounds.exponent_le hdouble hhigh)

/-- A whole number of at most 53 bits is a double. -/
theorem hasValue_ofNat {n : Nat} (hn : n < 2 ^ 53) : HasValue (Float.ofNat n) n := by
  by_cases hzero : n = 0
  · subst hzero
    exact holds_pack_zero _
  have hpos : 0 < n := Nat.pos_of_ne_zero hzero
  obtain ⟨m, e, hm, hvalue, hunpack⟩ := exists_unpack_ofNat hpos hn
  obtain ⟨m', e', hm', hvalue', hunpack'⟩ := exists_unpack_powerOfTen (k := 0) (by decide)
  have hword : HasValue n.toUInt64.toFloat n := hvalue ▸ hasValue_of_unpack hunpack
  have hone : HasValue Float.exactlyRepresentablePowersOfTen[0] 1 := by
    have := hasValue_of_unpack hunpack'
    rwa [hvalue', pow_zero] at this
  have hsize : IsModerate ((n : ℚ) * 1) := by
    have hlow : (1 : ℚ) ≤ n := by exact_mod_cast hpos
    have hleast := leastDouble_le_thousandth
    rw [mul_one]
    exact isModerate_of_le (.inr (by linarith)) (by exact_mod_cast hn.le)
  obtain ⟨z, hz, hrounded⟩ := exists_hasValue_mul hword hone hsize
  have hread : Float.ofNat n = n.toUInt64.toFloat * Float.exactlyRepresentablePowersOfTen[0] := by
    change Float.ofScientific n false 0 = _
    unfold Float.ofScientific
    rw [dif_pos ⟨hn, by decide⟩]
    rfl
  rw [mul_one] at hrounded
  obtain rfl := hrounded.unique hword.isRounded
  exact hread ▸ hz

/-! ### Whole parts -/

theorem mantissa_eq_floor {em : ExtendedMantissa} {x : ℚ} (h : Represents em x) : (em.mantissa : Int) = ⌊x⌋ := by
  obtain ⟨m, roundBit, stickyBit⟩ := em
  symm
  rw [Int.floor_eq_iff]
  cases roundBit <;> cases stickyBit <;>
    simp only [Represents, lowEnd, Bool.false_eq_true, if_true, if_false, add_zero] at h <;>
    push_cast <;> constructor <;> linarith

theorem roundToInt_eq_floor (m : Nat) (e : Int) : roundToInt .positive m e = ⌊(m : ℚ) * 2 ^ e⌋ := by
  obtain ⟨left, hleft⟩ : ∃ left, left = (e - 0).toNat := ⟨_, rfl⟩
  obtain ⟨right, hright⟩ : ∃ right, right = (0 - (e - left)).toNat := ⟨_, rfl⟩
  have hshifted : Represents (.ofMantissaAndAccuracy (m <<< left) .exact) (m <<< left : Nat) := by
    have h := represents_div (m <<< left) Nat.one_pos
    rwa [Nat.div_one, Nat.mod_one, Nat.cast_one, div_one] at h
  have hvalue : ((m <<< left : Nat) : ℚ) / 2 ^ right = m * 2 ^ e := by
    have hexponent : e = left - right := by omega
    rw [Nat.shiftLeft_eq, hexponent, zpow_sub₀ (by norm_num), zpow_natCast, zpow_natCast]
    push_cast
    ring
  unfold roundToInt decreaseExponent
  dsimp only
  unfold shiftToExponent
  dsimp only
  rw [← hleft, ← hright]
  change ((_ : Nat) : Int) = _
  rw [mantissa_eq_floor (hshifted.shiftRight right), hvalue]

/-- A double is turned into the whole part of its number. -/
theorem toInt64_of_hasValue {x : Float} {v : ℚ} (h : HasValue x v) (hv : v < 2 ^ 63) :
    x.toModel.toInt64.toInt = ⌊v⌋ := by
  have hfloor : (0 : Int) ≤ ⌊v⌋ ∧ ⌊v⌋ < 2 ^ 63 := by
    refine ⟨Int.floor_nonneg.2 h.nonneg, Int.floor_lt.2 ?_⟩
    exact_mod_cast hv
  change (Int64.ofIntClamp (UnpackedFloat.toInt _ _ x.toModel.unpack)).toInt = _
  unfold HasValue at h
  generalize x.toModel.unpack = u at h ⊢
  have hwhole : ∀ low high, u.toInt low high = ⌊v⌋ := by
    intro low high
    cases h with
    | zero => exact Int.floor_zero.symm
    | @finite m e => exact roundToInt_eq_floor m e
  have hmax : Int64.maxValue.toInt = 2 ^ 63 - 1 := rfl
  have hmin : Int64.minValue.toInt = -2 ^ 63 := rfl
  rw [hwhole, Int64.toInt_ofIntClamp (by omega) (by omega)]

end SpeechDispatch.Doubles
