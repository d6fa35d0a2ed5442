import SpeechDispatch.Proofs.Doubles
import SpeechDispatch.Proofs.ShortestDecimals
import SpeechDispatch.Proofs.TomlScalars

/-!
# Reading the digits of a double

Digits with some of them behind a point are read as the double to which the number they write is rounded
(`nearest_of_roundsTo`).  So a finite double is read as it was written (`exists_write`).
-/

namespace SpeechDispatch.Doubles

open Float.Model Float.Model.UnpackedFloat

/-! ### Whole numbers and powers of ten -/

theorem roundsTo_self (m : Nat) (e : Int) : RoundsTo (m * 2 ^ e) m e := by
  have hunit : (0 : ℚ) < 2 ^ e := by positivity
  have hone : (m : ℚ) * 2 ^ e / 2 ^ e = m := mul_div_cancel_right₀ _ hunit.ne'
  refine ⟨⟨?_, ?_, fun _ => ⟨?_, ?_⟩⟩, fun _ _ => ?_⟩ <;> rw [hone] <;> linarith

/-- A double is not rounded. -/
theorem roundWithAccuracy_exact {m : Nat} {e : Int} (h : IsDouble m e) (hfull : e ≤ -1074 ∨ 2 ^ 52 ≤ m) (sign : Sign) :
    roundWithAccuracy .binary64 sign m e .exact = .finite sign m e h.pos := by
  have hself : RoundsTo ((m : ℚ) / (1 : Nat) * 2 ^ e) m e := by
    rw [Nat.cast_one, div_one]
    exact roundsTo_self m e
  have hround := roundWithAccuracy_of_roundsTo Nat.one_pos h hself (by rwa [Nat.div_one]) sign
  rwa [Nat.div_one, Nat.mod_one] at hround

/-- A whole number that a significand holds is stored as it is. -/
theorem exists_unpack_ofNat {m : Nat} (hpos : 0 < m) (hlt : m < 2 ^ 53) :
    ∃ (n : Nat) (e : Int) (hn : 0 < n), (n : ℚ) * 2 ^ e = m ∧
      (Float.Model.ofUInt64 m.toUInt64).unpack = .finite .positive n e hn := by
  have hlog : m.log2 < 53 := (Nat.log2_lt hpos.ne').2 hlt
  obtain ⟨count, hcount⟩ : ∃ count, count = 52 - m.log2 := ⟨_, rfl⟩
  have hlow : 2 ^ 52 ≤ m * 2 ^ count :=
    calc
      2 ^ 52 = 2 ^ m.log2 * 2 ^ count := by rw [← pow_add]; congr 1; omega
      _ ≤ m * 2 ^ count := Nat.mul_le_mul_right _ (Nat.log2_self_le hpos.ne')
  have hhigh : m * 2 ^ count < 2 ^ 53 :=
    calc
      m * 2 ^ count < 2 ^ (m.log2 + 1) * 2 ^ count := Nat.mul_lt_mul_of_pos_right Nat.lt_log2_self (Nat.two_pow_pos _)
      _ = 2 ^ 53 := by rw [← pow_add]; congr 1; omega
  have hdouble : IsDouble (m * 2 ^ count) (0 - count) := ⟨by omega, hhigh, by omega, .inl hlow⟩
  have hround : UnpackedFloat.ofUInt64 .binary64 m.toUInt64 =
      .finite .positive (m * 2 ^ count) (0 - count) hdouble.pos := by
    have hword : m.toUInt64.toNat = m := Nat.mod_eq_of_lt (by omega)
    have hcompare : compare (m : Int) 0 = .gt := Int.compare_eq_gt.2 (by omega)
    have hshift : (0 - max ((m.log2 : Int) + 0 - 52) (-1074)).toNat = count := by omega
    unfold UnpackedFloat.ofUInt64 UnpackedFloat.ofNat UnpackedFloat.ofInt UnpackedFloat.normalize
    rw [hword, hcompare]
    dsimp only
    unfold UnpackedFloat.round decreaseExponent
    dsimp only
    rw [Int.toNat_natCast, targetExponent_totalExponent, hshift, Nat.shiftLeft_eq]
    exact roundWithAccuracy_exact hdouble (.inr hlow) _
  refine ⟨m * 2 ^ count, 0 - count, hdouble.pos, ?_, ?_⟩
  · have hunit : (2 : ℚ) ^ count ≠ 0 := by positivity
    rw [zero_sub, zpow_neg, zpow_natCast]
    push_cast
    exact mul_inv_cancel_right₀ hunit _
  · unfold Float.Model.ofUInt64
    rw [hround]
    exact unpack_pack hdouble (by omega) _

/-- Whether a double is a power of ten. -/
def isPowerOfTen (k : Nat) : UnpackedFloat → Bool
  | .finite .positive n e _ => n * 2 ^ e.toNat == 10 ^ k * 2 ^ (-e).toNat
  | _ => false

theorem isPowerOfTen_exactlyRepresentable :
    ∀ k : Fin 23, isPowerOfTen k (Float.exactlyRepresentablePowersOfTen[k]).toModel.unpack = true := by
  decide +kernel

theorem exists_unpack_powerOfTen {k : Nat} (hk : k < 23) :
    ∃ (n : Nat) (e : Int) (hn : 0 < n), (n : ℚ) * 2 ^ e = 10 ^ k ∧
      (Float.exactlyRepresentablePowersOfTen[k]).toModel.unpack = .finite .positive n e hn := by
  have h : isPowerOfTen k (Float.exactlyRepresentablePowersOfTen[k]).toModel.unpack = true :=
    isPowerOfTen_exactlyRepresentable ⟨k, hk⟩
  generalize (Float.exactlyRepresentablePowersOfTen[k]).toModel.unpack = u at h ⊢
  cases u with
  | notANumber | infinity | zero => cases h
  | finite sign n e hn =>
    cases sign with
    | negative => cases h
    | positive =>
      refine ⟨n, e, hn, ?_, rfl⟩
      have hvalue : n * 2 ^ e.toNat = 10 ^ k * 2 ^ (-e).toNat := eq_of_beq h
      have hunit : (2 : ℚ) ^ (-e).toNat ≠ 0 := by positivity
      rw [Decimal.zpow_eq_div 2 e, mul_div_assoc', div_eq_iff hunit]
      exact_mod_cast hvalue

/-! ### Quotients by powers of ten -/

/-- Digits with a point among them are read as the double to which they are rounded. -/
theorem ofScientific_of_roundsTo {digits places : Nat} (hdigits : 0 < digits) (hplaces : places ≤ 2048 + digits.log2)
    (hpoint : 0 < places) {m : Nat} {e : Int} (hdouble : IsDouble m e) (h : RoundsTo (digits / 10 ^ places) m e) :
    Float.ofScientific digits true places = .ofModel (.pack (.finite .positive m e hdouble.pos)) := by
  unfold Float.ofScientific
  by_cases hfast : digits < 2 ^ 53 ∧ places ≤ 22
  · rw [dif_pos hfast]
    have hindex : places < 23 := by omega
    obtain ⟨n, i, hn, hvalue, hunpack⟩ := exists_unpack_ofNat hdigits hfast.1
    obtain ⟨n', i', hn', hvalue', hunpack'⟩ := exists_unpack_powerOfTen hindex
    rw [if_pos rfl]
    change Float.ofModel (.pack (UnpackedFloat.div .binary64 (Float.Model.ofUInt64 digits.toUInt64).unpack
      (Float.exactlyRepresentablePowersOfTen[places]).toModel.unpack)) = _
    rw [hunpack, hunpack', div_of_roundsTo hn hn' hdouble (by rwa [hvalue, hvalue'])]
  · rw [dif_neg hfast, if_pos rfl]
    have hexponent : Int.negOfNat places = -(places : Int) := Int.negOfNat_eq
    dsimp only
    rw [hexponent]
    have hten : 0 < 10 ^ (-(-(places : Int))).toNat := Nat.pow_pos (by decide)
    have hvalue : ((digits : ℚ) * 2 ^ (0 : Int)) / ((10 ^ (-(-(places : Int))).toNat : Nat) * 2 ^ (0 : Int)) =
        digits / 10 ^ places := by
      rw [zpow_zero, mul_one, mul_one, Nat.cast_pow, Nat.cast_ofNat, neg_neg, Int.toNat_natCast]
    have hbits : (2 : Int) ^ Format.binary64.exponentBits = 2048 := rfl
    unfold Float.Model.ofScientific UnpackedFloat.ofScientific
    rw [dif_neg hdigits.ne', hbits, if_neg (by omega), if_neg (by omega), if_neg (by omega)]
    exact congrArg (fun u => Float.ofModel (.pack u)) (div_of_roundsTo hdigits hten hdouble (hvalue ▸ h))

end SpeechDispatch.Doubles

namespace SpeechDispatch.Decimal

open Doubles

/-- What is rounded to a double is neither too small nor too large to be read. -/
theorem bounds_of_roundsTo {b : Binary} (hb : IsSize b) {v : ℚ} (h : RoundsTo v b.significand b.exponent) :
    (10 : ℚ) ^ Binary.finestGrid < v ∧ v < 10 ^ 324 := by
  have hunit : (0 : ℚ) < 2 ^ b.exponent := by positivity
  have hpos : (1 : ℚ) ≤ b.significand := by exact_mod_cast hb.double.pos
  have hlt : (b.significand : ℚ) + 1 ≤ 2 ^ 53 := by exact_mod_cast hb.double.lt
  have hlow := (le_div_iff₀ hunit).1 h.nearest.low
  have hhigh := (div_le_iff₀ hunit).1 h.nearest.high
  constructor
  · have hleast : (2 : ℚ) ^ (-1075 : Int) ≤ 2 ^ (b.exponent - 1) := by
      have := hb.double.least
      exact zpow_le_zpow_right₀ (by norm_num) (by omega)
    calc
      (10 : ℚ) ^ Binary.finestGrid < 2 ^ (-1075 : Int) := Binary.finestGrid_lt
      _ ≤ 2 ^ (b.exponent - 1) := hleast
      _ = 1 / 2 * 2 ^ b.exponent := by rw [zpow_sub_one₀ (by norm_num)]; ring
      _ ≤ (b.significand - 1 / 2) * 2 ^ b.exponent := mul_le_mul_of_nonneg_right (by linarith) hunit.le
      _ ≤ v := hlow
  · have htop : (2 : ℚ) ^ b.exponent ≤ 2 ^ 971 := by
      rw [← zpow_natCast]
      exact zpow_le_zpow_right₀ (by norm_num) hb.top
    calc
      v ≤ (b.significand + 1 / 2) * 2 ^ b.exponent := hhigh
      _ ≤ 2 ^ 53 * 2 ^ b.exponent := mul_le_mul_of_nonneg_right (by linarith) hunit.le
      _ ≤ 2 ^ 53 * 2 ^ 971 := mul_le_mul_of_nonneg_left htop (by positivity)
      _ = 2 ^ 1024 := (pow_add ..).symm
      _ ≤ 2 ^ 1075 := pow_le_pow_right₀ (by norm_num) (by decide)
      _ < 10 ^ 324 := Binary.two_pow_lt_ten_pow

/-- The number of digits of a number whose size is limited on both sides. -/
theorem length_bounds {digits places : Nat} (hlow : 10 ^ places < digits * 10 ^ 324)
    (hhigh : digits < 10 ^ 324 * 10 ^ places) :
    (Nat.toDigits 10 digits).length ≤ 324 + places ∧ places < (Nat.toDigits 10 digits).length + 324 ∧
      (Nat.toDigits 10 digits).length ≤ digits.log2 + 1 := by
  have hcount : ∀ k, 0 < k → ((Nat.toDigits 10 digits).length ≤ k ↔ digits < 10 ^ k) :=
    fun k hk => Nat.length_toDigits_le_iff (by decide) hk
  have hpos : 0 < (Nat.toDigits 10 digits).length := by
    rw [List.length_pos_iff]
    simp
  generalize (Nat.toDigits 10 digits).length = length at *
  refine ⟨(hcount _ (by omega)).2 (by rwa [pow_add]), ?_, (hcount _ (by omega)).2 ?_⟩
  · have hlt : digits * 10 ^ 324 < 10 ^ (length + 324) := by
      rw [pow_add]
      exact Nat.mul_lt_mul_of_pos_right ((hcount length hpos).1 (Nat.le_refl _)) (by positivity)
    exact (Nat.pow_lt_pow_iff_right (by decide)).1 (hlow.trans hlt)
  · exact Nat.lt_log2_self.trans_le (Nat.pow_le_pow_left (by decide) _)

/-- The digits of a number that is rounded to a double are read as that double. -/
theorem nearest_of_roundsTo {b : Binary} (hb : IsSize b) {digits places : Nat} (hpoint : 0 < places)
    (h : RoundsTo (digits / 10 ^ places) b.significand b.exponent) :
    nearest digits (-places) = .ofModel (.pack (.finite .positive b.significand b.exponent hb.double.pos)) := by
  obtain ⟨hlow, hhigh⟩ := bounds_of_roundsTo hb h
  have hten : (0 : ℚ) < 10 ^ places := by positivity
  have hlow' : 10 ^ places < digits * 10 ^ 324 := by
    have hfine : Binary.finestGrid = -(324 : Nat) := rfl
    rw [hfine, zpow_neg, zpow_natCast, lt_div_iff₀ hten, inv_mul_lt_iff₀ (by positivity), mul_comm] at hlow
    exact_mod_cast hlow
  have hhigh' : digits < 10 ^ 324 * 10 ^ places := by
    rw [div_lt_iff₀ hten] at hhigh
    exact_mod_cast hhigh
  have hdigits : 0 < digits := by
    by_contra hzero
    rw [Nat.eq_zero_of_not_pos hzero, Nat.zero_mul] at hlow'
    exact Nat.not_lt_zero _ hlow'
  obtain ⟨hlong, hshort, hlog⟩ := length_bounds hlow' hhigh'
  have hnegative : decide (-(places : Int) < 0) = true := decide_eq_true (by omega)
  unfold nearest
  dsimp only
  generalize (Nat.toDigits 10 digits).length = length at *
  have hsmall : ¬(digits = 0 || (length : Int) + -places < -400) = true := by
    rw [Bool.or_eq_true, decide_eq_true_eq, decide_eq_true_eq]
    omega
  rw [if_neg hsmall, if_neg (by omega), hnegative, Int.natAbs_neg, Int.natAbs_natCast]
  exact ofScientific_of_roundsTo hdigits (by omega) hpoint hb.double h

end SpeechDispatch.Decimal

namespace SpeechDispatch.Toml

open Decimal Doubles

theorem toList_signText (x : Float) : (signText x).toList = signChars (decide (size63 ≤ x.toBits.toNat)) := by
  unfold signText signChars
  by_cases h : size63 ≤ x.toBits.toNat
  · rw [if_pos h, decide_eq_true h]
    rfl
  · rw [if_neg h, decide_eq_false h]
    rfl

/-- The numeral as which the size of a double is written. -/
def sizeNumeral (x : Float) : Numeral :=
  if x.toBits.toNat % size63 = 0 then ⟨0, 0⟩ else (Binary.ofFloat x).shortest

theorem isWrittenAs_sizeText {x : Float} (hfinite : x.isFinite = true) :
    IsWrittenAs (sizeNumeral x) (floatForm.sizeText x).toList := by
  unfold sizeNumeral FloatForm.sizeText
  by_cases hzero : x.toBits.toNat % size63 = 0
  · rw [if_pos hzero, if_pos hzero]
    exact ⟨['0'], ['0'], 1, by decide, isWhole_toDigits 0, List.cons_ne_nil _ _, List.forall_mem_singleton.2 rfl, rfl,
      rfl⟩
  · rw [if_neg hzero, if_neg hzero]
    obtain ⟨hsize, -⟩ := exists_unpack hfinite hzero
    refine isWrittenAs_positional (Nat.pos_of_ne_zero fun hnone => ?_)
    have hlow := (bounds_of_roundsTo hsize (Binary.roundsTo_shortest hsize)).1
    rw [Numeral.value, hnone, Nat.cast_zero, zero_mul] at hlow
    exact absurd hlow (not_lt.2 (by positivity))

/-- The size of a double is read as the double without its sign. -/
theorem exists_nearest {x : Float} (hfinite : x.isFinite = true) {digits places k : Nat} (hpoint : 0 < places)
    (hdigits : digits = (sizeNumeral x).significand * 10 ^ k)
    (hplaces : (-places : Int) = (sizeNumeral x).exponent - k) :
    ∃ y, nearest digits (-places) = y ∧ y.isFinite = true ∧ x.toModel.unpack =
      if size63 ≤ x.toBits.toNat then y.toModel.unpack.neg else y.toModel.unpack := by
  unfold sizeNumeral at hdigits hplaces
  by_cases hzero : x.toBits.toNat % size63 = 0
  · rw [if_pos hzero, Nat.zero_mul] at hdigits
    have hread : nearest digits (-places) = 0 := by
      rw [hdigits]
      rfl
    refine ⟨0, hread, rfl, ?_⟩
    rw [unpack_of_size_eq_zero hzero, unpack_zero, signOf]
    split <;> rfl
  · rw [if_neg hzero] at hdigits hplaces
    obtain ⟨hsize, hunpack⟩ := exists_unpack hfinite hzero
    have hvalue : (digits : ℚ) / 10 ^ places = (Binary.ofFloat x).shortest.value := by
      have hten : (10 : ℚ) ^ places ≠ 0 := by positivity
      have hexponent : (Binary.ofFloat x).shortest.exponent = k - places := by omega
      rw [hdigits, Numeral.value, hexponent, zpow_sub₀ (by norm_num), zpow_natCast, zpow_natCast, mul_div_assoc']
      push_cast
      rfl
    have hread := nearest_of_roundsTo hsize hpoint (hvalue ▸ Binary.roundsTo_shortest hsize)
    refine ⟨_, hread, ?_, ?_⟩
    · change (Float.Model.pack _).unpack.isFinite = true
      rw [unpack_pack hsize.double hsize.top]
      rfl
    · rw [hunpack, unpack_pack hsize.double hsize.top, signOf]
      by_cases hneg : size63 ≤ x.toBits.toNat
      · rw [if_pos hneg, if_pos hneg]
        rfl
      · rw [if_neg hneg, if_neg hneg]

theorem eq_of_unpack {x y : Float} (hx : x.isFinite = true) (hy : y.isFinite = true)
    (h : x.toModel.unpack = if size63 ≤ x.toBits.toNat then y.toModel.unpack.neg else y.toModel.unpack) :
    (if decide (size63 ≤ x.toBits.toNat) then -y else y) = x := by
  have hpack : ∀ {z : Float}, z.isFinite = true → Float.ofModel (.pack z.toModel.unpack) = z :=
    fun hz => congrArg Float.ofModel (pack_unpack hz)
  by_cases hneg : size63 ≤ x.toBits.toNat
  · rw [if_pos (decide_eq_true hneg), ← hpack hx, h, if_pos hneg]
    rfl
  · rw [decide_eq_false hneg, if_neg Bool.false_ne_true, ← hpack hx, h, if_neg hneg, hpack hy]

/-- A finite double is written in digits with a point, after its sign, and read from them again. -/
theorem exists_write {x : Float} (hfinite : x.isFinite = true) :
    ∃ (n : Numeral) (chars : List Char), IsWrittenAs n chars ∧
      (floatForm.write x).toList = signChars (decide (size63 ≤ x.toBits.toNat)) ++ chars ∧
      float? (signChars (decide (size63 ≤ x.toBits.toNat)) ++ chars) = some x := by
  have hwritten := isWrittenAs_sizeText hfinite
  obtain ⟨hnan, hinf⟩ := not_isNaN_isInf_of_isFinite hfinite
  refine ⟨_, _, hwritten, ?_, ?_⟩
  · rw [FloatForm.write_eq, hnan, hinf, if_neg Bool.false_ne_true, if_neg Bool.false_ne_true, String.toList_append,
      toList_signText]
  · obtain ⟨whole, fraction, k, hchars, hwhole, hne, hfraction, hdigits, hplaces⟩ := hwritten
    obtain ⟨y, hy, hfiniteY, hunpackY⟩ := exists_nearest hfinite (List.length_pos_iff.2 hne) hdigits hplaces
    rw [hchars, float?_decimals _ hwhole hne hfraction, hy]
    dsimp only
    rw [(not_isNaN_isInf_of_isFinite hfiniteY).2, if_neg Bool.false_ne_true, eq_of_unpack hfinite hfiniteY hunpackY]

end SpeechDispatch.Toml
