import SpeechDispatch.Decimal.Shortest
import SpeechDispatch.Proofs.Rounding

/-!
# The bits of doubles

A finite double is the sign, significand and exponent that its bits hold (`exists_unpack`), and these give its bits
again (`pack_unpack`, `unpack_pack`).
-/

namespace SpeechDispatch.Doubles

open Float.Model Float.Model.UnpackedFloat Decimal

variable {bits : BitVec Format.binary64.numBits}

/-! ### The parts of the bits -/

theorem toNat_unpackMantissa : (unpackMantissa bits).toNat = bits.toNat % 2 ^ 52 := by
  simp [unpackMantissa]

theorem toNat_unpackExponent : (unpackExponent bits).toNat = bits.toNat / 2 ^ 52 % 2 ^ 11 := by
  simp [unpackExponent, Nat.shiftRight_eq_div_pow]

theorem toNat_unpackSign : (unpackSign bits).toNat = bits.toNat / 2 ^ 63 % 2 := by
  change ((bits.extractLsb 63 63).cast rfl).toNat = _
  simp [Nat.shiftRight_eq_div_pow]

theorem toNat_packComponents (s : Sign) (exponent : BitVec 11) (mantissa : BitVec 52) :
    (packComponents .binary64 s exponent mantissa).toNat =
      s.toBitVec.toNat * 2 ^ 63 + exponent.toNat * 2 ^ 52 + mantissa.toNat := by
  have hmantissa := mantissa.isLt
  have hexponent := exponent.isLt
  rw [packComponents, BitVec.toNat_append, BitVec.toNat_append, ← Nat.shiftLeft_add_eq_or_of_lt hexponent,
    ← Nat.shiftLeft_add_eq_or_of_lt hmantissa, Nat.shiftLeft_eq, Nat.shiftLeft_eq]
  ring

theorem toBitVec_ofBitVec (b : BitVec 1) : (Sign.ofBitVec b).toBitVec = b := by
  revert b
  decide

theorem ofBitVec_toBitVec (s : Sign) : Sign.ofBitVec s.toBitVec = s := by
  cases s <;> rfl

theorem unpackSign_packComponents (s : Sign) (exponent : BitVec 11) (mantissa : BitVec 52) :
    unpackSign (packComponents .binary64 s exponent mantissa) = s.toBitVec := by
  have hmantissa := mantissa.isLt
  have hexponent := exponent.isLt
  have hsign := s.toBitVec.isLt
  refine BitVec.eq_of_toNat_eq ?_
  rw [toNat_unpackSign, toNat_packComponents]
  omega

theorem packComponents_unpack :
    packComponents .binary64 (Sign.ofBitVec (unpackSign bits)) (unpackExponent bits) (unpackMantissa bits) = bits := by
  have hbits : bits.toNat < 2 ^ 64 := bits.isLt
  refine BitVec.eq_of_toNat_eq ?_
  rw [toNat_packComponents, toBitVec_ofBitVec, toNat_unpackSign, toNat_unpackExponent, toNat_unpackMantissa]
  omega

/-! ### Finite doubles -/

theorem toNat_one_append (mantissa : BitVec 52) : (1#1 ++ mantissa).toNat = 2 ^ 52 + mantissa.toNat := by
  rw [BitVec.toNat_append, ← Nat.shiftLeft_add_eq_or_of_lt mantissa.isLt]
  rfl

theorem unpack_zero_bits (hexponent : unpackExponent bits = 0#11) (hmantissa : unpackMantissa bits = 0#52) :
    UnpackedFloat.unpack .binary64 bits = .zero (Sign.ofBitVec (unpackSign bits)) := by
  have htop : unpackExponent bits ≠ -1#11 := by
    rw [hexponent]
    decide
  unfold UnpackedFloat.unpack
  dsimp only
  rw [if_neg htop, if_pos hexponent, dif_pos hmantissa]

theorem unpack_subnormal (hzero : unpackExponent bits = 0#11) (hpos : 0 < (unpackMantissa bits).toNat) :
    UnpackedFloat.unpack .binary64 bits =
      .finite (Sign.ofBitVec (unpackSign bits)) (unpackMantissa bits).toNat (-1074) hpos := by
  have htop : unpackExponent bits ≠ -1#11 := by
    rw [hzero]
    decide
  have hmantissa : unpackMantissa bits ≠ 0#52 := by
    intro h
    rw [h] at hpos
    exact absurd hpos (by decide)
  have hvalue : ((unpackExponent bits).toNat : Int) - 1075 + 1 = -1074 := by
    rw [hzero]
    rfl
  unfold UnpackedFloat.unpack
  dsimp only
  rw [if_neg htop, if_pos hzero, dif_neg hmantissa]
  congr 1

theorem unpack_normal (hne : (unpackExponent bits).toNat ≠ 0) (htop : (unpackExponent bits).toNat ≠ 2047)
    (hpos : 0 < 2 ^ 52 + (unpackMantissa bits).toNat) :
    UnpackedFloat.unpack .binary64 bits =
      .finite (Sign.ofBitVec (unpackSign bits)) (2 ^ 52 + (unpackMantissa bits).toNat)
        ((unpackExponent bits).toNat - 1075) hpos := by
  have hne' : unpackExponent bits ≠ 0#11 := fun h => hne (congrArg BitVec.toNat h)
  have htop' : unpackExponent bits ≠ -1#11 := fun h => htop (congrArg BitVec.toNat h)
  unfold UnpackedFloat.unpack
  dsimp only
  rw [if_neg htop', if_neg hne']
  congr 1
  exact toNat_one_append _

/-- A finite double is zero, or below all with a leading bit, or has one. -/
theorem unpack_cases (h : (UnpackedFloat.unpack .binary64 bits).isFinite = true) :
    (unpackExponent bits = 0#11 ∧ unpackMantissa bits = 0#52 ∧
      UnpackedFloat.unpack .binary64 bits = .zero (Sign.ofBitVec (unpackSign bits))) ∨
    (unpackExponent bits = 0#11 ∧ 0 < (unpackMantissa bits).toNat) ∨
    ((unpackExponent bits).toNat ≠ 0 ∧ (unpackExponent bits).toNat ≠ 2047) := by
  by_cases hexponent : unpackExponent bits = 0#11
  · by_cases hmantissa : unpackMantissa bits = 0#52
    · exact .inl ⟨hexponent, hmantissa, unpack_zero_bits hexponent hmantissa⟩
    · exact .inr (.inl ⟨hexponent, Nat.pos_of_ne_zero fun hzero => hmantissa (BitVec.eq_of_toNat_eq hzero)⟩)
  · refine .inr (.inr ⟨fun hzero => hexponent (BitVec.eq_of_toNat_eq hzero), fun hall => ?_⟩)
    have htop : unpackExponent bits = -1#11 := BitVec.eq_of_toNat_eq hall
    unfold UnpackedFloat.unpack at h
    dsimp only at h
    rw [if_pos htop] at h
    split at h <;> cases h

/-- The exponent as it is stored. -/
def storedExponent (e : Int) : Nat :=
  (e + (Format.binary64.exponentBias : Int) + (Format.binary64.mantissaBitsWithoutImplicit : Int)).toNat

theorem storedExponent_eq (e : Int) : storedExponent e = (e + 1075).toNat := by
  have hbias : (Format.binary64.exponentBias : Int) = 1023 := rfl
  have hbits : (Format.binary64.mantissaBitsWithoutImplicit : Int) = 52 := rfl
  rw [storedExponent, hbias, hbits]
  omega

theorem pack_finite {s : Sign} {m : Nat} {e : Int} (hpos : 0 < m) :
    UnpackedFloat.pack .binary64 (.finite s m e hpos) =
      if 2 ^ 11 ≤ storedExponent e + 1 then packedInfinity .binary64 s
      else if m.log2 + 1 = 53 then packComponents .binary64 s (BitVec.ofNat 11 (storedExponent e)) (BitVec.ofNat 52 m)
      else packComponents .binary64 s 0#11 (BitVec.ofNat 52 m) := rfl

/-- The bits of a double with a leading bit. -/
theorem pack_normal {s : Sign} {fraction binade : Nat} (hfraction : fraction < 2 ^ 52) (htop : binade < 2047)
    (hpos : 0 < 2 ^ 52 + fraction) :
    UnpackedFloat.pack .binary64 (.finite s (2 ^ 52 + fraction) (binade - 1075) hpos) =
      packComponents .binary64 s (BitVec.ofNat 11 binade) (BitVec.ofNat 52 fraction) := by
  have hstored : storedExponent (binade - 1075) = binade := by
    rw [storedExponent_eq]
    omega
  have hlog : (2 ^ 52 + fraction).log2 + 1 = 53 := by
    have h52 := (Nat.log2_eq_iff (k := 52) hpos.ne').2 ⟨by omega, by omega⟩
    rw [h52]
  have hcut : BitVec.ofNat 52 (2 ^ 52 + fraction) = BitVec.ofNat 52 fraction := by
    refine BitVec.eq_of_toNat_eq ?_
    rw [BitVec.toNat_ofNat, BitVec.toNat_ofNat, Nat.add_mod_left]
  rw [pack_finite, hstored, if_neg (by omega), if_pos hlog, hcut]

/-- The bits of a double without a leading bit. -/
theorem pack_subnormal {s : Sign} {fraction : Nat} (hfraction : fraction < 2 ^ 52) (hpos : 0 < fraction) :
    UnpackedFloat.pack .binary64 (.finite s fraction (-1074) hpos) =
      packComponents .binary64 s 0#11 (BitVec.ofNat 52 fraction) := by
  have hlog : fraction.log2 + 1 ≠ 53 := by
    have := (Nat.log2_lt hpos.ne').2 hfraction
    omega
  have hfits : ¬2 ^ 11 ≤ storedExponent (-1074) + 1 := by decide
  rw [pack_finite, if_neg hfits, if_neg hlog]

theorem pack_unpack_bits (h : (UnpackedFloat.unpack .binary64 bits).isFinite = true) :
    UnpackedFloat.pack .binary64 (UnpackedFloat.unpack .binary64 bits) = bits := by
  have hmantissa : (unpackMantissa bits).toNat < 2 ^ 52 := (unpackMantissa bits).isLt
  have hexponent : (unpackExponent bits).toNat < 2 ^ 11 := (unpackExponent bits).isLt
  obtain ⟨hzero, hnone, heq⟩ | ⟨hzero, hpos⟩ | ⟨hne, htop⟩ := unpack_cases h
  · rw [heq]
    refine Eq.trans ?_ packComponents_unpack
    rw [hzero, hnone]
    rfl
  · rw [unpack_subnormal hzero hpos, pack_subnormal hmantissa hpos, BitVec.ofNat_toNat, BitVec.setWidth_eq, ← hzero,
      packComponents_unpack]
  · rw [unpack_normal hne htop (by omega), pack_normal hmantissa (by omega), BitVec.ofNat_toNat, BitVec.ofNat_toNat,
      BitVec.setWidth_eq, BitVec.setWidth_eq, packComponents_unpack]

/-- A finite double is packed again as it was. -/
theorem pack_unpack {v : Float.Model} (h : v.isFinite = true) : Float.Model.pack v.unpack = v := by
  obtain ⟨bits, hvalid⟩ := v
  have heq : UInt64.ofBitVec (UnpackedFloat.pack .binary64 (UnpackedFloat.unpack .binary64 bits.toBitVec)) = bits := by
    rw [pack_unpack_bits h]
  unfold Float.Model.pack Float.Model.unpack
  congr 1

/-- What is packed is unpacked again, if its exponent is not too large. -/
theorem unpack_pack {m : Nat} {e : Int} (h : IsDouble m e) (htop : e ≤ 971) (s : Sign) :
    (Float.Model.pack (.finite s m e h.pos)).unpack = .finite s m e h.pos := by
  obtain ⟨hpos, hlt, hleast, hfull⟩ := h
  change UnpackedFloat.unpack .binary64 (UnpackedFloat.pack .binary64 (.finite s m e hpos)) = _
  by_cases hlead : 2 ^ 52 ≤ m
  · obtain ⟨fraction, rfl⟩ := Nat.exists_eq_add_of_le hlead
    obtain ⟨binade, hbinade⟩ : ∃ binade : Nat, e = binade - 1075 := ⟨(e + 1075).toNat, by omega⟩
    subst hbinade
    have hfraction : fraction < 2 ^ 52 := by omega
    have hexponent : (BitVec.ofNat 11 binade).toNat = binade := BitVec.toNat_ofNat .. ▸ Nat.mod_eq_of_lt (by omega)
    have hmantissa : (BitVec.ofNat 52 fraction).toNat = fraction := BitVec.toNat_ofNat .. ▸ Nat.mod_eq_of_lt hfraction
    have hstored : (unpackExponent
        (packComponents .binary64 s (BitVec.ofNat 11 binade) (BitVec.ofNat 52 fraction))).toNat = binade := by
      rw [unpackExponent_packComponents, hexponent]
    have hkept : (unpackMantissa
        (packComponents .binary64 s (BitVec.ofNat 11 binade) (BitVec.ofNat 52 fraction))).toNat = fraction := by
      rw [unpackMantissa_packComponents, hmantissa]
    rw [pack_normal hfraction (by omega), unpack_normal (by omega) (by omega) (by omega)]
    congr 1
    · rw [unpackSign_packComponents, ofBitVec_toBitVec]
    · rw [hkept]
    · rw [hstored]
  · have hleast' := hfull.resolve_left hlead
    subst hleast'
    have hfraction : m < 2 ^ 52 := by omega
    have hmantissa : (BitVec.ofNat 52 m).toNat = m := BitVec.toNat_ofNat .. ▸ Nat.mod_eq_of_lt hfraction
    have hkept : (unpackMantissa (packComponents .binary64 s 0#11 (BitVec.ofNat 52 m))).toNat = m := by
      rw [unpackMantissa_packComponents, hmantissa]
    rw [pack_subnormal hfraction, unpack_subnormal (unpackExponent_packComponents ..) (by omega)]
    congr 1
    rw [unpackSign_packComponents, ofBitVec_toBitVec]

/-! ### The size of a double -/

def bitsOf (x : Float) : BitVec Format.binary64.numBits := x.toBits.toBitVec

theorem toNat_bitsOf (x : Float) : (bitsOf x).toNat = x.toBits.toNat := rfl

/-- The sign of a double, which its first bit is. -/
def signOf (x : Float) : Sign := if size63 ≤ x.toBits.toNat then .negative else .positive

theorem ofBitVec_unpackSign (x : Float) : Sign.ofBitVec (unpackSign (bitsOf x)) = signOf x := by
  have hbits : x.toBits.toNat < 2 ^ 64 := x.toBits.toNat_lt
  have hsign : (unpackSign (bitsOf x)).toNat = x.toBits.toNat / 2 ^ 63 % 2 := toNat_unpackSign
  unfold Sign.ofBitVec signOf
  by_cases hneg : size63 ≤ x.toBits.toNat
  · rw [if_pos hneg, if_neg]
    intro hzero
    rw [hzero] at hsign
    change 0 = _ at hsign
    unfold size63 at hneg
    omega
  · rw [if_neg hneg, if_pos]
    refine BitVec.eq_of_toNat_eq (hsign.trans ?_)
    change _ = 0
    unfold size63 at hneg
    omega

/-- A positive number that is the size of a finite double. -/
structure IsSize (b : Binary) : Prop where
  double : IsDouble b.significand b.exponent
  top : b.exponent ≤ 971
  atPower_iff : b.atPower = true ↔ b.significand = 2 ^ 52 ∧ -1074 < b.exponent

theorem toNat_unpackMantissa_bitsOf (x : Float) :
    (unpackMantissa (bitsOf x)).toNat = x.toBits.toNat % size63 % leadingBit := by
  rw [toNat_unpackMantissa, toNat_bitsOf]
  unfold size63 leadingBit
  omega

theorem toNat_unpackExponent_bitsOf (x : Float) :
    (unpackExponent (bitsOf x)).toNat = x.toBits.toNat % size63 / leadingBit := by
  rw [toNat_unpackExponent, toNat_bitsOf]
  unfold size63 leadingBit
  omega

theorem isSize_subnormal {fraction : Nat} (hpos : 0 < fraction) (hlt : fraction < leadingBit) :
    IsSize ⟨fraction, -1074, false⟩ := by
  have hbelow : leadingBit < 2 ^ 53 := by decide
  have htop : (-1074 : Int) ≤ 971 := by decide
  exact ⟨⟨hpos, hlt.trans hbelow, Int.le_refl _, .inr rfl⟩, htop, nofun, fun h => absurd h.2 (Int.lt_irrefl _)⟩

theorem isSize_normal {fraction binade : Nat} (hlt : fraction < leadingBit) (hne : binade ≠ 0) (htop : binade < 2047) :
    IsSize ⟨fraction + leadingBit, Int.ofNat binade - 1075, fraction = 0 && 1 < binade⟩ := by
  refine ⟨⟨Nat.add_pos_right _ (by decide), ?_, ?_, .inl (Nat.le_add_left ..)⟩, ?_, ?_⟩
  · unfold leadingBit at *
    change fraction + 2 ^ 52 < 2 ^ 53
    omega
  · change -1074 ≤ (binade : Int) - 1075
    omega
  · change (binade : Int) - 1075 ≤ 971
    omega
  · change (decide (fraction = 0) && decide (1 < binade)) = true ↔
      fraction + 2 ^ 52 = 2 ^ 52 ∧ -1074 < (binade : Int) - 1075
    rw [Bool.and_eq_true, decide_eq_true_eq, decide_eq_true_eq]
    omega

/-- What a finite double holds that is not zero. -/
theorem exists_unpack {x : Float} (hfinite : x.isFinite = true) (hne : x.toBits.toNat % size63 ≠ 0) :
    ∃ h : IsSize (Binary.ofFloat x), x.toModel.unpack =
      .finite (signOf x) (Binary.ofFloat x).significand (Binary.ofFloat x).exponent h.double.pos := by
  have hmantissa := toNat_unpackMantissa_bitsOf x
  have hexponent := toNat_unpackExponent_bitsOf x
  have hlast : (unpackExponent (bitsOf x)).toNat < 2 ^ 11 := (unpackExponent (bitsOf x)).isLt
  have hlt : x.toBits.toNat % size63 % leadingBit < leadingBit := Nat.mod_lt _ (by decide)
  have hsize : Binary.ofFloat x = if x.toBits.toNat % size63 / leadingBit = 0
      then ⟨x.toBits.toNat % size63 % leadingBit, -1074, false⟩
      else ⟨x.toBits.toNat % size63 % leadingBit + leadingBit, Int.ofNat (x.toBits.toNat % size63 / leadingBit) - 1075,
        x.toBits.toNat % size63 % leadingBit = 0 && 1 < x.toBits.toNat % size63 / leadingBit⟩ := rfl
  rw [← Nat.div_add_mod (x.toBits.toNat % size63) leadingBit] at hne
  generalize x.toBits.toNat % size63 % leadingBit = fraction at *
  generalize x.toBits.toNat % size63 / leadingBit = binade at *
  change (UnpackedFloat.unpack .binary64 (bitsOf x)).isFinite = true at hfinite
  change ∃ h, UnpackedFloat.unpack .binary64 (bitsOf x) = _
  obtain ⟨hzero, hnone, -⟩ | ⟨hzero, hpos⟩ | ⟨hbinade, htop⟩ := unpack_cases hfinite
  · rw [hzero] at hexponent
    rw [hnone] at hmantissa
    rw [← hexponent, ← hmantissa] at hne
    exact absurd rfl hne
  · have hbinade : binade = 0 := by
      rw [← hexponent, hzero]
      rfl
    rw [if_pos hbinade] at hsize
    rw [hsize, unpack_subnormal hzero hpos, ofBitVec_unpackSign]
    refine ⟨isSize_subnormal (hmantissa ▸ hpos) hlt, ?_⟩
    congr 1
  · rw [if_neg (hexponent ▸ hbinade)] at hsize
    rw [hsize, unpack_normal hbinade htop (by omega), ofBitVec_unpackSign]
    refine ⟨isSize_normal hlt (hexponent ▸ hbinade) (by omega), ?_⟩
    congr 1
    · rw [hmantissa, Nat.add_comm]
      rfl
    · rw [hexponent]
      rfl

theorem unpack_of_size_eq_zero {x : Float} (h : x.toBits.toNat % size63 = 0) :
    x.toModel.unpack = .zero (signOf x) := by
  have hmantissa := toNat_unpackMantissa_bitsOf x
  have hexponent := toNat_unpackExponent_bitsOf x
  rw [h] at hmantissa hexponent
  rw [← ofBitVec_unpackSign]
  exact unpack_zero_bits (BitVec.eq_of_toNat_eq hexponent) (BitVec.eq_of_toNat_eq hmantissa)

end SpeechDispatch.Doubles
