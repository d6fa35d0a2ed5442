import Mathlib.Algebra.Order.Field.Power
import Mathlib.Data.Nat.Cast.Order.Field
import Mathlib.Tactic.FieldSimp
import Mathlib.Tactic.Linarith
import Mathlib.Tactic.NormNum
import Mathlib.Tactic.Positivity
import Mathlib.Tactic.Ring

/-!
# Rounding quotients to doubles

A quotient of doubles is computed as a whole significand with two bits on what is cut off, which is shifted to the
exponent of the result and rounded.  Here the significand with its bits stands for a rational number (`Represents`), so
that a quotient is rounded to each double in whose interval it lies (`div_of_roundsTo`).
-/

namespace SpeechDispatch.Doubles

open Float.Model Float.Model.UnpackedFloat

/-! ### Significands with two bits more -/

/-- The least number that a significand with its bits stands for. -/
def lowEnd (em : ExtendedMantissa) : ℚ := em.mantissa + if em.roundBit then 1 / 2 else 0

/-- The numbers that a significand with its bits stands for. -/
def Represents (em : ExtendedMantissa) (x : ℚ) : Prop :=
  if em.stickyBit then lowEnd em < x ∧ x < lowEnd em + 1 / 2 else x = lowEnd em

theorem lowEnd_shiftRightOne (em : ExtendedMantissa) : lowEnd em.shiftRightOne = em.mantissa / 2 := by
  have hhalves : (em.mantissa : ℚ) = 2 * (em.mantissa / 2 : Nat) + (em.mantissa % 2 : Nat) := by
    exact_mod_cast (Nat.div_add_mod em.mantissa 2).symm
  have hbit : em.mantissa % 2 = 0 ∨ em.mantissa % 2 = 1 := by omega
  unfold lowEnd ExtendedMantissa.shiftRightOne
  obtain hbit | hbit := hbit
  · rw [hbit, Nat.cast_zero] at hhalves
    rw [hbit, bne_self_eq_false, if_neg Bool.false_ne_true]
    linarith
  · rw [hbit, Nat.cast_one] at hhalves
    rw [hbit]
    change (_ : ℚ) + 1 / 2 = _
    linarith

theorem Represents.shiftRightOne {em : ExtendedMantissa} {x : ℚ} (h : Represents em x) :
    Represents em.shiftRightOne (x / 2) := by
  obtain ⟨m, roundBit, stickyBit⟩ := em
  rw [Represents, lowEnd_shiftRightOne]
  change if (roundBit || stickyBit) = true then (m : ℚ) / 2 < x / 2 ∧ x / 2 < (m : ℚ) / 2 + 1 / 2 else x / 2 = m / 2
  cases roundBit <;> cases stickyBit <;>
    simp only [Represents, lowEnd, Bool.false_eq_true, if_true, if_false, add_zero, Bool.or_true, Bool.or_false] at h ⊢
  · rw [h]
  · constructor <;> linarith
  · constructor <;> linarith
  · constructor <;> linarith

theorem Represents.shiftRight {em : ExtendedMantissa} {x : ℚ} (h : Represents em x) (n : Nat) :
    Represents (em >>> n) (x / 2 ^ n) := by
  induction n with
  | zero =>
    rw [pow_zero, div_one]
    exact h
  | succ n ih =>
    rw [pow_succ, ← div_div]
    exact ih.shiftRightOne

/-- A fraction with the rest that was cut off by the division of whole numbers. -/
theorem represents_div (a : Nat) {b : Nat} (hb : 0 < b) :
    Represents (.ofMantissaAndAccuracy (a / b) (accuracyOfFraction (a % b) b)) (a / b) := by
  have hb' : (0 : ℚ) < b := by exact_mod_cast hb
  have hsplit : (a : ℚ) / b = (a / b : Nat) + (a % b : Nat) / (b : ℚ) := by
    have hmod : (a : ℚ) = b * (a / b : Nat) + (a % b : Nat) := by exact_mod_cast (Nat.div_add_mod a b).symm
    field_simp
    linarith
  have hlt : a % b < b := Nat.mod_lt a hb
  rw [hsplit]
  generalize a % b = r at hlt ⊢
  generalize a / b = m
  unfold accuracyOfFraction
  split
  · rename_i hzero
    rw [hzero]
    simp [Represents, lowEnd, ExtendedMantissa.ofMantissaAndAccuracy]
  · rename_i hpos
    have hr : (0 : ℚ) < r := by exact_mod_cast Nat.pos_of_ne_zero hpos
    have hr' : (r : ℚ) < b := by exact_mod_cast hlt
    obtain hcompare | hcompare | hcompare := Nat.lt_trichotomy (2 * r) b
    · rw [Nat.compare_eq_lt.2 hcompare]
      have hhalf : (r : ℚ) / b < 1 / 2 := by
        rw [div_lt_div_iff₀ hb' (by norm_num)]
        exact_mod_cast (by omega : r * 2 < 1 * b)
      have hpos' : 0 < (r : ℚ) / b := div_pos hr hb'
      simp only [Represents, lowEnd, ExtendedMantissa.ofMantissaAndAccuracy, if_true, Bool.false_eq_true, if_false,
        add_zero]
      constructor <;> linarith
    · rw [Nat.compare_eq_eq.2 hcompare]
      have hhalf : (r : ℚ) / b = 1 / 2 := by
        rw [div_eq_div_iff hb'.ne' (by norm_num)]
        exact_mod_cast (by omega : r * 2 = 1 * b)
      simp only [Represents, lowEnd, ExtendedMantissa.ofMantissaAndAccuracy, if_true, Bool.false_eq_true, if_false,
        hhalf]
    · rw [Nat.compare_eq_gt.2 hcompare]
      have hhalf : 1 / 2 < (r : ℚ) / b := by
        rw [div_lt_div_iff₀ (by norm_num) hb']
        exact_mod_cast (by omega : 1 * b < r * 2)
      have hone : (r : ℚ) / b < 1 := (div_lt_one hb').2 hr'
      simp only [Represents, lowEnd, ExtendedMantissa.ofMantissaAndAccuracy, if_true]
      constructor <;> linarith

/-! ### The nearest whole number -/

/-- A whole number to which a number is rounded: it is at most one half away, and if it is odd, less than one half. -/
structure IsNearest (m : Nat) (x : ℚ) : Prop where
  low : (m : ℚ) - 1 / 2 ≤ x
  high : x ≤ (m : ℚ) + 1 / 2
  odd : m % 2 = 1 → (m : ℚ) - 1 / 2 < x ∧ x < (m : ℚ) + 1 / 2

theorem roundedMantissa_of_isNearest {em : ExtendedMantissa} {x : ℚ} (h : Represents em x) {m : Nat}
    (hm : IsNearest m x) : em.roundedMantissa = m := by
  obtain ⟨n, roundBit, stickyBit⟩ := em
  obtain ⟨hlow, hhigh, hodd⟩ := hm
  cases roundBit <;> cases stickyBit <;>
    simp only [Represents, lowEnd, Bool.false_eq_true, if_true, if_false, add_zero] at h
  · -- The number is whole.
    have hle : n < m + 1 := by exact_mod_cast (by linarith : (n : ℚ) < m + 1)
    have hge : m < n + 1 := by exact_mod_cast (by linarith : (m : ℚ) < n + 1)
    change n = m
    omega
  · have hle : n < m + 1 := by exact_mod_cast (by linarith : (n : ℚ) < m + 1)
    have hge : m < n + 1 := by exact_mod_cast (by linarith : (m : ℚ) < n + 1)
    change n = m
    omega
  · -- The number is in the middle.
    have hle : n < m + 1 := by exact_mod_cast (by linarith : (n : ℚ) < m + 1)
    have hge : m < n + 2 := by exact_mod_cast (by linarith : (m : ℚ) < n + 2)
    have heven : m % 2 = 0 := by
      by_contra hne
      obtain ⟨hlow', hhigh'⟩ := hodd (by omega)
      have hle' : n < m := by exact_mod_cast (by linarith : (n : ℚ) < m)
      have hge' : m < n + 1 := by exact_mod_cast (by linarith : (m : ℚ) < n + 1)
      omega
    change n + n % 2 = m
    omega
  · have hle : n < m := by exact_mod_cast (by linarith : (n : ℚ) < m)
    have hge : m < n + 2 := by exact_mod_cast (by linarith : (m : ℚ) < n + 2)
    change n + 1 = m
    omega

/-! ### The nearest double -/

/-- The significand and the exponent of a positive double as they are stored: the significand has all its bits unless
the exponent is the least. -/
structure IsDouble (m : Nat) (e : Int) : Prop where
  pos : 0 < m
  lt : m < 2 ^ 53
  least : -1074 ≤ e
  full : 2 ^ 52 ≤ m ∨ e = -1074

/-- A number that is rounded to a double.  Below a power of two the doubles are closer together. -/
structure RoundsTo (v : ℚ) (m : Nat) (e : Int) : Prop where
  nearest : IsNearest m (v / 2 ^ e)
  atPower : m = 2 ^ 52 → -1074 < e → (m : ℚ) - 1 / 4 ≤ v / 2 ^ e

theorem RoundsTo.lt_zpow {v : ℚ} {m : Nat} {e : Int} (h : RoundsTo v m e) (hdouble : IsDouble m e) :
    v < 2 ^ (e + 53) := by
  have he : (0 : ℚ) < 2 ^ e := by positivity
  have hm : (m : ℚ) + 1 ≤ 2 ^ 53 := by exact_mod_cast hdouble.lt
  calc
    v ≤ ((m : ℚ) + 1 / 2) * 2 ^ e := (div_le_iff₀ he).1 h.nearest.high
    _ < 2 ^ 53 * 2 ^ e := mul_lt_mul_of_pos_right (by linarith) he
    _ = 2 ^ (e + 53) := by rw [zpow_add₀ (by norm_num), mul_comm]; norm_num

theorem RoundsTo.zpow_lt {v : ℚ} {m : Nat} {e : Int} (h : RoundsTo v m e) (hfull : 2 ^ 52 ≤ m) :
    (2 : ℚ) ^ (e + 51) < v := by
  have he : (0 : ℚ) < 2 ^ e := by positivity
  have hm : (2 : ℚ) ^ 52 ≤ m := by exact_mod_cast hfull
  calc
    (2 : ℚ) ^ (e + 51) = 2 ^ 51 * 2 ^ e := by rw [zpow_add₀ (by norm_num), mul_comm]; norm_num
    _ < ((m : ℚ) - 1 / 2) * 2 ^ e := mul_lt_mul_of_pos_right (by linarith) he
    _ ≤ v := (le_div_iff₀ he).1 h.nearest.low

theorem targetExponent_totalExponent (m : Nat) (e : Int) :
    Format.binary64.targetExponent (totalExponent m e) = max (m.log2 + e - 52) (-1074) := by
  have hmin : Format.binary64.minExponent = -1074 := rfl
  have hbits : (Format.binary64.mantissaBits : Int) = 53 := rfl
  rw [Format.targetExponent, hmin, hbits, totalExponent]
  congr 1
  omega

theorem lt_of_zpow_lt {i j : Int} (h : (2 : ℚ) ^ i < 2 ^ j) : i < j :=
  (zpow_lt_zpow_iff_right₀ (by norm_num)).1 h

/-- The bounds of a number by those of its whole part. -/
theorem bounds_of_div {a b : Nat} (hb : 0 < b) (t : Int) :
    (a / b : Nat) * (2 : ℚ) ^ t ≤ a / b * 2 ^ t ∧ (a : ℚ) / b * 2 ^ t < ((a / b : Nat) + 1) * 2 ^ t := by
  have hb' : (0 : ℚ) < b := by exact_mod_cast hb
  have ht : (0 : ℚ) < 2 ^ t := by positivity
  constructor
  · exact mul_le_mul_of_nonneg_right Nat.cast_div_le ht.le
  · refine mul_lt_mul_of_pos_right ?_ ht
    rw [div_lt_iff₀ hb']
    exact_mod_cast Nat.lt_mul_of_div_lt (Nat.lt_succ_self _) hb

theorem zpow_log2_le {q : Nat} (hq : q ≠ 0) (t : Int) : (2 : ℚ) ^ (q.log2 + t) ≤ q * 2 ^ t := by
  have hle : ((2 ^ q.log2 : Nat) : ℚ) ≤ q := by exact_mod_cast Nat.log2_self_le hq
  rw [zpow_add₀ (by norm_num), zpow_natCast]
  exact mul_le_mul_of_nonneg_right (by exact_mod_cast hle) (by positivity)

theorem le_zpow_log2 (q : Nat) (t : Int) : ((q : ℚ) + 1) * 2 ^ t ≤ 2 ^ (q.log2 + 1 + t) := by
  have hle : ((q + 1 : Nat) : ℚ) ≤ (2 ^ (q.log2 + 1) : Nat) := by exact_mod_cast Nat.lt_log2_self
  have hexponent : (q.log2 : Int) + 1 + t = (q.log2 + 1 : Nat) + t := by push_cast; rfl
  rw [hexponent, zpow_add₀ (by norm_num), zpow_natCast]
  exact mul_le_mul_of_nonneg_right (by exact_mod_cast hle) (by positivity)

/-- The exponent to which a quotient is shifted is that of the double it is rounded to, but for a quotient just below a
power of two, which is rounded up to it. -/
theorem target_of_roundsTo {a b : Nat} (hb : 0 < b) {t : Int} {m : Nat} {e : Int} (hdouble : IsDouble m e)
    (h : RoundsTo (a / b * 2 ^ t) m e) (hbits : t ≤ -1074 ∨ 2 ^ 52 ≤ a / b) :
    Format.binary64.targetExponent (totalExponent (a / b) t) = e ∨
      Format.binary64.targetExponent (totalExponent (a / b) t) = e - 1 ∧ m = 2 ^ 52 ∧ -1074 < e ∧
        (a : ℚ) / b * 2 ^ t < 2 ^ 52 * 2 ^ e := by
  have hleast := hdouble.least
  obtain ⟨hlow, hhigh⟩ := bounds_of_div (a := a) hb t
  generalize hv : (a : ℚ) / b * 2 ^ t = v at *
  generalize hq : a / b = q at *
  have he : (0 : ℚ) < 2 ^ e := by positivity
  rw [targetExponent_totalExponent]
  -- The whole part has few bits, so it is not shifted below the exponent of the double.
  have hshort : (q.log2 : Int) + t - 52 ≤ e := by
    by_cases hzero : q = 0
    · subst hzero
      have hlog : Nat.log2 0 = 0 := by decide
      omega
    · have := lt_of_zpow_lt ((zpow_log2_le hzero t).trans_lt (hlow.trans_lt (h.lt_zpow hdouble)))
      omega
  by_cases hmin : e = -1074
  · exact .inl (by omega)
  -- It has no fewer bits than the double, but for one if it lies below a power of two.
  have hm : 2 ^ 52 ≤ m := hdouble.full.resolve_right hmin
  have hlong := lt_of_zpow_lt ((h.zpow_lt hm).trans (hhigh.trans_le (le_zpow_log2 q t)))
  by_cases hequal : (q.log2 : Int) + t - 52 = e
  · exact .inl (by omega)
  have hbelow : v < 2 ^ 52 * 2 ^ e := by
    have heq : (q.log2 : Int) + 1 + t = e + 52 := by omega
    have hv := hhigh.trans_le (le_zpow_log2 q t)
    rw [heq, zpow_add₀ (by norm_num), mul_comm] at hv
    exact_mod_cast hv
  refine .inr ⟨by omega, ?_, by omega, hbelow⟩
  have hle : m < 2 ^ 52 + 1 := by
    have hlt : (m : ℚ) - 1 / 2 < 2 ^ 52 :=
      lt_of_mul_lt_mul_right (((le_div_iff₀ he).1 h.nearest.low).trans_lt hbelow) he.le
    exact_mod_cast (by linarith : (m : ℚ) < 2 ^ 52 + 1)
  omega

/-- What is shifted to an exponent stands for the same number. -/
theorem represents_shift {a b : Nat} (hb : 0 < b) {t target : Int} (hle : t ≤ target) :
    Represents ((shiftToExponent (a / b) t (accuracyOfFraction (a % b) b) target).1) (a / b * 2 ^ t / 2 ^ target) ∧
      (shiftToExponent (a / b) t (accuracyOfFraction (a % b) b) target).2 = target := by
  have hcount : t + ((target - t).toNat : Int) = target := by omega
  refine ⟨?_, hcount⟩
  have h := (represents_div a hb).shiftRight (target - t).toNat
  have hscale : (a : ℚ) / b * 2 ^ t / 2 ^ target = a / b / 2 ^ (target - t).toNat := by
    rw [← hcount, zpow_add₀ (by norm_num), zpow_natCast]
    have ht : (2 : ℚ) ^ t ≠ 0 := by positivity
    field_simp
    congr 2
    omega
  rw [hscale]
  exact h

/-- After rounding a significand is not shifted again, unless it got one bit too many. -/
theorem shift_rounded {m : Nat} {e : Int} (hdouble : IsDouble m e) :
    shiftToTargetExponent .binary64 m e .exact = (⟨m, false, false⟩, e) := by
  have hlog : m.log2 ≤ 52 := by
    have := (Nat.log2_lt hdouble.pos.ne').2 hdouble.lt
    omega
  have hleast := hdouble.least
  have hcount : (max ((m.log2 : Int) + e - 52) (-1074) - e).toNat = 0 := by omega
  rw [shiftToTargetExponent, targetExponent_totalExponent, shiftToExponent, hcount]
  simp only [Nat.cast_zero, add_zero]
  rfl

theorem shift_carried {e : Int} (he : -1074 < e) :
    shiftToTargetExponent .binary64 (2 ^ 53) (e - 1) .exact = (⟨2 ^ 52, false, false⟩, e) := by
  have hcount : (max (((2 ^ 53 : Nat).log2 : Int) + (e - 1) - 52) (-1074) - (e - 1)).toNat = 1 := by
    rw [Nat.log2_two_pow]
    omega
  rw [shiftToTargetExponent, targetExponent_totalExponent, shiftToExponent, hcount]
  simp only [Nat.cast_one, sub_add_cancel]
  rfl

/-- A quotient with enough bits is rounded to the double in whose interval it lies. -/
theorem roundWithAccuracy_of_roundsTo {a b : Nat} (hb : 0 < b) {t : Int} {m : Nat} {e : Int} (hdouble : IsDouble m e)
    (h : RoundsTo (a / b * 2 ^ t) m e) (hbits : t ≤ -1074 ∨ 2 ^ 52 ≤ a / b) (sign : Sign) :
    roundWithAccuracy .binary64 sign (a / b) t (accuracyOfFraction (a % b) b) = .finite sign m e hdouble.pos := by
  have hle : t ≤ Format.binary64.targetExponent (totalExponent (a / b) t) := by
    rw [targetExponent_totalExponent]
    obtain hbits | hbits := hbits
    · omega
    · have := (Nat.le_log2 (by omega)).2 hbits
      omega
  obtain ⟨hfirst, hexponent⟩ := represents_shift (a := a) hb hle
  -- Two shifts with a rounding between them.
  have hsteps : ∀ n e' : _, (shiftToTargetExponent .binary64 (a / b) t (accuracyOfFraction (a % b) b)).2 = e' →
      (shiftToTargetExponent .binary64 (a / b) t (accuracyOfFraction (a % b) b)).1.roundedMantissa = n →
      shiftToTargetExponent .binary64 n e' .exact = (⟨m, false, false⟩, e) →
      roundWithAccuracy .binary64 sign (a / b) t (accuracyOfFraction (a % b) b) = .finite sign m e hdouble.pos := by
    rintro n e' rfl rfl hfinal
    unfold roundWithAccuracy
    dsimp only
    generalize shiftToTargetExponent .binary64 (shiftToTargetExponent .binary64 (a / b) t _).1.roundedMantissa _ _ = final
      at hfinal ⊢
    subst hfinal
    exact dif_neg hdouble.pos.ne'
  obtain htarget | ⟨htarget, hpower, hleast, hbelow⟩ := target_of_roundsTo hb hdouble h hbits
  · rw [htarget] at hfirst hexponent
    refine hsteps m e ?_ ?_ (shift_rounded hdouble)
    · rw [shiftToTargetExponent, htarget, hexponent]
    · rw [shiftToTargetExponent, htarget]
      exact roundedMantissa_of_isNearest hfirst h.nearest
  · rw [htarget] at hfirst hexponent
    refine hsteps (2 ^ 53) (e - 1) ?_ ?_ (hpower ▸ shift_carried hleast)
    · rw [shiftToTargetExponent, htarget, hexponent]
    · rw [shiftToTargetExponent, htarget]
      refine roundedMantissa_of_isNearest hfirst ?_
      have he : (0 : ℚ) < 2 ^ e := by positivity
      have htwice : (a : ℚ) / b * 2 ^ t / 2 ^ (e - 1) = 2 * (a / b * 2 ^ t / 2 ^ e) := by
        rw [zpow_sub_one₀ (by norm_num)]
        field_simp
      have hlow := h.atPower hpower hleast
      have hhigh := (div_lt_iff₀ he).2 hbelow
      rw [hpower] at hlow
      push_cast at hlow
      rw [htwice]
      refine ⟨?_, ?_, fun hodd => absurd hodd (by decide)⟩ <;> push_cast <;> linarith

/-- The quotient of two doubles is the double in whose interval it lies. -/
theorem div_of_roundsTo {m₁ m₂ : Nat} {e₁ e₂ : Int} (h₁ : 0 < m₁) (h₂ : 0 < m₂) {m : Nat} {e : Int}
    (hdouble : IsDouble m e) (h : RoundsTo ((m₁ * 2 ^ e₁) / (m₂ * 2 ^ e₂)) m e) :
    UnpackedFloat.div .binary64 (.finite .positive m₁ e₁ h₁) (.finite .positive m₂ e₂ h₂) =
      .finite .positive m e hdouble.pos := by
  obtain ⟨target, htarget⟩ : ∃ target, target = max ((m₁.log2 : Int) + e₁ - m₂.log2 - e₂ - 53) (-1074) := ⟨_, rfl⟩
  have hcore : Format.binary64.targetExponent (totalExponent m₁ e₁ - totalExponent m₂ e₂) = target := by
    have hmin : Format.binary64.minExponent = -1074 := rfl
    have hbits : (Format.binary64.mantissaBits : Int) = 53 := rfl
    rw [htarget, Format.targetExponent, hmin, hbits, totalExponent, totalExponent]
    congr 1
    omega
  obtain ⟨t, ht⟩ : ∃ t, t = min (e₁ - e₂) target := ⟨_, rfl⟩
  obtain ⟨count, hcount⟩ : ∃ count, count = (e₁ - e₂ - t).toNat := ⟨_, rfl⟩
  have hshift : m₁ <<< count = m₁ * 2 ^ count := Nat.shiftLeft_eq ..
  have hvalue : ((m₁ <<< count : Nat) : ℚ) / m₂ * 2 ^ t = (m₁ * 2 ^ e₁) / (m₂ * 2 ^ e₂) := by
    have hexponent : e₁ = count + t + e₂ := by omega
    have h₂' : (m₂ : ℚ) ≠ 0 := by exact_mod_cast h₂.ne'
    have he₂ : (2 : ℚ) ^ e₂ ≠ 0 := by positivity
    rw [hshift, hexponent, zpow_add₀ (by norm_num), zpow_add₀ (by norm_num), zpow_natCast]
    push_cast
    field_simp
  have hbits : t ≤ -1074 ∨ 2 ^ 52 ≤ (m₁ <<< count) / m₂ := by
    by_cases hleast : t ≤ -1074
    · exact .inl hleast
    · -- So many bits more than the divisor leave all that a double has.
      have hlog : m₂.log2 + 1 + 52 ≤ m₁.log2 + count := by omega
      refine .inr ((Nat.le_div_iff_mul_le h₂).2 ?_)
      calc
        2 ^ 52 * m₂ ≤ 2 ^ 52 * 2 ^ (m₂.log2 + 1) := Nat.mul_le_mul_left _ Nat.lt_log2_self.le
        _ = 2 ^ (m₂.log2 + 1 + 52) := by rw [← pow_add, Nat.add_comm]
        _ ≤ 2 ^ (m₁.log2 + count) := Nat.pow_le_pow_right (by decide) hlog
        _ = 2 ^ m₁.log2 * 2 ^ count := pow_add ..
        _ ≤ m₁ * 2 ^ count := Nat.mul_le_mul_right _ (Nat.log2_self_le h₁.ne')
        _ = m₁ <<< count := hshift.symm
  unfold UnpackedFloat.div divCore
  dsimp only
  rw [hcore, ← ht, ← hcount]
  exact roundWithAccuracy_of_roundsTo h₂ hdouble (hvalue ▸ h) hbits _

end SpeechDispatch.Doubles
