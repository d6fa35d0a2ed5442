import Mathlib.Data.List.Induction
import SpeechDispatch.Proofs.JsonText

/-!
# Whole numbers in JSON have one form

A whole number is written with its digits, and is read as it was written (`natOfDigits_ofText`).  Digits without zeros
in front are those of their value (`ofText_natOfDigits`), so a number that is read as a whole number was written as that
number is (`int64?_eq_some_iff`).
-/

namespace SpeechDispatch.Json

/-! ### Written numbers -/

/-- A digit is one byte. -/
private theorem ofText_digit {c : Char} (h : c.isDigit = true) :
    ∃ b : UInt8, Bytes.ofText c.toString = [b] ∧ isDigit b = true ∧ b.toNat = c.toNat := by
  rw [Char.isDigit, Bool.and_eq_true, decide_eq_true_iff, decide_eq_true_iff, ge_iff_le, UInt32.le_iff_toNat_le,
    UInt32.le_iff_toNat_le] at h
  have hlow : 48 ≤ c.toNat := h.1
  have hhigh : c.toNat ≤ 57 := h.2
  have hsize : c.utf8Size = 1 := by
    rw [Char.utf8Size_eq_one_iff, UInt32.le_iff_toNat_le]
    exact Nat.le_trans hhigh (by decide)
  have hbyte : c.val.toUInt8.toNat = c.toNat := by
    rw [UInt32.toNat_toUInt8]
    exact Nat.mod_eq_of_lt (Nat.lt_of_le_of_lt hhigh (by decide))
  refine ⟨c.val.toUInt8, ?_, ?_, hbyte⟩
  · rw [Bytes.ofText_toString, String.utf8EncodeChar_eq_singleton hsize]
  · rw [isDigit, Bool.and_eq_true, decide_eq_true_iff, decide_eq_true_iff, UInt8.le_iff_toNat_le,
      UInt8.le_iff_toNat_le, hbyte]
    exact ⟨hlow, hhigh⟩

/-- Digits as bytes, and what they add to a number read so far. -/
private theorem flatMap_digits {chars : List Char} (h : ∀ c ∈ chars, c.isDigit = true) :
    (∀ b ∈ chars.flatMap fun c => Bytes.ofText c.toString, isDigit b = true) ∧
    ∀ n, (chars.flatMap fun c => Bytes.ofText c.toString).foldl (fun n b => n * 10 + (b.toNat - 0x30)) n =
      Nat.ofDigitChars 10 chars n := by
  induction chars with
  | nil => exact ⟨nofun, fun _ => rfl⟩
  | cons c rest ih =>
    obtain ⟨hc, hrest⟩ := List.forall_mem_cons.1 h
    obtain ⟨b, hbytes, hdigit, hvalue⟩ := ofText_digit hc
    obtain ⟨hdigits, hvalues⟩ := ih hrest
    rw [List.flatMap_cons, hbytes, List.singleton_append]
    refine ⟨List.forall_mem_cons.2 ⟨hdigit, hdigits⟩, fun n => ?_⟩
    rw [List.foldl_cons, hvalues, Nat.ofDigitChars_cons, hvalue, Nat.mul_comm]
    rfl

private theorem ofText_nat (n : Nat) :
    Bytes.ofText (toString n) = (Nat.toDigits 10 n).flatMap fun c => Bytes.ofText c.toString := by
  rw [Nat.toString_eq_ofList_toDigits, Bytes.ofText_eq_flatMap, String.toList_ofList]

private theorem isDigit_of_mem_toDigits {n : Nat} {c : Char} (h : c ∈ Nat.toDigits 10 n) : c.isDigit = true :=
  Nat.isDigit_of_mem_toDigits (by decide) (by decide) h

theorem isDigit_of_mem_ofText {n : Nat} {b : UInt8} (h : b ∈ Bytes.ofText (toString n)) : isDigit b = true := by
  rw [ofText_nat] at h
  exact (flatMap_digits fun c => isDigit_of_mem_toDigits).1 b h

/-- Digits keep the value of the number that they write. -/
theorem natOfDigits_ofText (n : Nat) : natOfDigits (Bytes.ofText (toString n)) = n := by
  rw [ofText_nat, natOfDigits, (flatMap_digits fun c => isDigit_of_mem_toDigits).2]
  exact Nat.ofDigitChars_ten_toDigits

/-! ### Digits and their value -/

private theorem natOfDigits_concat (digits : Bytes) (b : UInt8) :
    natOfDigits (digits ++ [b]) = natOfDigits digits * 10 + (b.toNat - 0x30) := by
  rw [natOfDigits, List.foldl_append]
  rfl

/-- The number of one digit. -/
private theorem ofText_toString_digit {b : UInt8} (h : isDigit b = true) :
    b.toNat - 0x30 < 10 ∧ Bytes.ofText (toString (b.toNat - 0x30)) = [b] := by
  rw [isDigit, Bool.and_eq_true, decide_eq_true_iff, decide_eq_true_iff, UInt8.le_iff_toNat_le,
    UInt8.le_iff_toNat_le] at h
  have hlow : 48 ≤ b.toNat := h.1
  have hhigh : b.toNat ≤ 57 := h.2
  have hall : ∀ d < 10, Bytes.ofText (toString d) = [UInt8.ofNat (d + 48)] := by decide
  refine ⟨by omega, ?_⟩
  rw [hall _ (by omega), Nat.sub_add_cancel hlow, UInt8.ofNat_toNat]

/-- More digits of a number that is not zero. -/
private theorem ofText_toString_mul_add {n d : Nat} (hn : 0 < n) (hd : d < 10) :
    Bytes.ofText (toString (n * 10 + d)) = Bytes.ofText (toString n) ++ Bytes.ofText (toString d) := by
  have hdiv : (n * 10 + d) / 10 = n := by omega
  have hmod : (n * 10 + d) % 10 = d := by omega
  rw [ofText_nat, ofText_nat, ofText_nat, Nat.toDigits_of_base_le (by decide) (by omega), hdiv, hmod,
    Nat.toDigits_of_lt_base hd, List.flatMap_append]

/-- Digits of which the first is not zero are those of their value, which is not zero either. -/
private theorem ofText_natOfDigits_of_head?_ne {digits : Bytes} (hne : digits ≠ []) (hfirst : digits.head? ≠ some 0x30)
    (hdigits : ∀ b ∈ digits, isDigit b = true) :
    0 < natOfDigits digits ∧ Bytes.ofText (toString (natOfDigits digits)) = digits := by
  induction digits using List.reverseRecOn with
  | nil => exact absurd rfl hne
  | append_singleton front b ih =>
    have hb := hdigits b (List.mem_append_right _ (List.mem_singleton_self b))
    obtain ⟨hsmall, hwritten⟩ := ofText_toString_digit hb
    rw [natOfDigits_concat]
    by_cases hfront : front = []
    · subst hfront
      have hzero : b ≠ 0x30 := fun hb => hfirst (congrArg some hb)
      have hle : 0x30 ≤ b.toNat := by
        rw [isDigit, Bool.and_eq_true, decide_eq_true_iff, UInt8.le_iff_toNat_le] at hb
        exact hb.1
      have hlt : b.toNat ≠ 0x30 := fun heq => hzero (UInt8.toNat_inj.1 heq)
      change 0 < 0 * 10 + (b.toNat - 0x30) ∧ Bytes.ofText (toString (0 * 10 + (b.toNat - 0x30))) = [b]
      rw [Nat.zero_mul, Nat.zero_add]
      exact ⟨by omega, hwritten⟩
    · have hhead : front.head? ≠ some 0x30 := by
        obtain ⟨d, more, rfl⟩ := List.exists_cons_of_ne_nil hfront
        exact hfirst
      obtain ⟨hpos, hsame⟩ := ih hfront hhead fun b hb => hdigits b (List.mem_append_left _ hb)
      rw [ofText_toString_mul_add hpos hsmall, hsame, hwritten]
      exact ⟨by omega, rfl⟩

/-- Digits are those of their value, if no zero stands in front of others. -/
theorem ofText_natOfDigits {digits : Bytes} (h : IsWhole digits) (hdigits : ∀ b ∈ digits, isDigit b = true) :
    Bytes.ofText (toString (natOfDigits digits)) = digits := by
  cases h with
  | zero => decide
  | digits h hfirst => exact (ofText_natOfDigits_of_head?_ne h.1 hfirst hdigits).2

/-- The first digit of a number that is not zero is not zero. -/
private theorem exists_cons_ofText {n : Nat} (hn : 0 < n) :
    ∃ b rest, Bytes.ofText (toString n) = b :: rest ∧ b ≠ 0x30 := by
  induction n using Nat.strongRecOn with
  | ind n ih =>
    by_cases hsmall : n < 10
    · have hall : ∀ d < 10, 0 < d → Bytes.ofText (toString d) = [UInt8.ofNat (d + 48)] ∧
          UInt8.ofNat (d + 48) ≠ 0x30 := by decide
      obtain ⟨hwritten, hne⟩ := hall n hsmall hn
      exact ⟨_, [], hwritten, hne⟩
    · obtain ⟨b, rest, hfront, hne⟩ := ih (n / 10) (by omega) (by omega)
      have hsplit : n = n / 10 * 10 + n % 10 := by omega
      rw [hsplit, ofText_toString_mul_add (by omega) (by omega), hfront]
      exact ⟨b, _, rfl, hne⟩

/-- The digits of a number have no zero in front of others. -/
theorem isWhole_ofText (n : Nat) : IsWhole (Bytes.ofText (toString n)) := by
  rcases Nat.eq_zero_or_pos n with rfl | hn
  · have hzero : Bytes.ofText (toString 0) = [0x30] := rfl
    rw [hzero]
    exact .zero
  · obtain ⟨b, rest, hwritten, hne⟩ := exists_cons_ofText hn
    refine .digits ⟨?_, fun _ => isDigit_of_mem_ofText⟩ ?_
    · rw [hwritten]
      exact List.cons_ne_nil b rest
    · rw [hwritten]
      exact fun heq => hne (Option.some.inj heq)

theorem isUnsigned_ofText (n : Nat) : IsUnsigned (Bytes.ofText (toString n)) := by
  have hwhole := IsUnsigned.mk (isWhole_ofText n) .missing .missing
  rw [List.append_nil, List.append_nil] at hwhole
  exact hwhole

private theorem ofText_negSucc (n : Nat) :
    Bytes.ofText (toString (Int.negSucc n)) = 0x2d :: Bytes.ofText (toString (n + 1)) := by
  have hsign : Bytes.ofText "-" = [0x2d] := rfl
  change Bytes.ofText ("-" ++ toString (n + 1)) = _
  rw [Bytes.ofText_append, hsign]
  rfl

theorem isNumber_ofText (n : Int) : IsNumber (Bytes.ofText (toString n)) := by
  cases n with
  | ofNat n => exact .unsigned (isUnsigned_ofText n)
  | negSucc n =>
    rw [ofText_negSucc]
    exact .negative (isUnsigned_ofText (n + 1))

/-! ### Whole numbers are read -/

private theorem all_isDigit_ofText (n : Nat) : (Bytes.ofText (toString n)).all isDigit = true :=
  List.all_eq_true.2 fun _ => isDigit_of_mem_ofText

/-- A number of which all bytes are digits has neither fraction nor exponent. -/
private theorem IsUnsigned.isWhole {raw : Bytes} (h : IsUnsigned raw) (hdigits : ∀ b ∈ raw, isDigit b = true) :
    IsWhole raw := by
  obtain ⟨hwhole, hfraction, hexponent⟩ := h
  cases hfraction with
  | digits => exact absurd (hdigits 0x2e (by simp)) (by decide)
  | missing =>
    cases hexponent with
    | missing => simpa only [List.append_nil] using hwhole
    | @unsigned e _ he | @signed e _ _ he =>
      have hdigit := hdigits e (by simp)
      rcases he with rfl | rfl <;> exact absurd hdigit (by decide)

private theorem int64?_unsigned {raw : Bytes} (h : IsUnsigned raw) :
    (Lexeme.number raw).int64? =
      if (raw.all isDigit && decide (natOfDigits raw < size63)) = true then some (natOfDigits raw : Int) else none := by
  obtain ⟨d, rest, rfl, hd⟩ := h.exists_cons
  unfold Lexeme.int64?
  split
  · rename_i heq
    obtain rfl := (List.cons.inj (Lexeme.number.inj heq)).1
    exact absurd hd (by decide)
  · rename_i heq
    rw [← Lexeme.number.inj heq]
  · rename_i hnot
    exact absurd rfl (hnot _)

theorem int64?_ofText {n : Int} (hn : isInt64 n = true) :
    (Lexeme.number (Bytes.ofText (toString n))).int64? = some n := by
  rw [isInt64, Bool.and_eq_true, decide_eq_true_iff, decide_eq_true_iff] at hn
  cases n with
  | ofNat n =>
    have hlt : n < size63 := Int.ofNat_lt.1 hn.2
    change (Lexeme.number (Bytes.ofText (toString n))).int64? = some (n : Int)
    rw [int64?_unsigned (isUnsigned_ofText n), natOfDigits_ofText, all_isDigit_ofText, decide_eq_true hlt]
    rfl
  | negSucc n =>
    have hle : n + 1 ≤ size63 := by
      have hlow := hn.1
      rw [Int.negSucc_eq] at hlow
      omega
    rw [ofText_negSucc]
    change (if ((Bytes.ofText (toString (n + 1))).all isDigit &&
        decide (0 < natOfDigits (Bytes.ofText (toString (n + 1)))) &&
        decide (natOfDigits (Bytes.ofText (toString (n + 1))) ≤ size63)) = true
      then some (-(natOfDigits (Bytes.ofText (toString (n + 1))) : Int)) else none) = _
    rw [natOfDigits_ofText, all_isDigit_ofText, decide_eq_true (Nat.succ_pos n), decide_eq_true hle]
    rfl

theorem isInt64_of_int64? {lexeme : Lexeme} {n : Int} (h : lexeme.int64? = some n) : isInt64 n = true := by
  rw [isInt64, Bool.and_eq_true, decide_eq_true_iff, decide_eq_true_iff]
  unfold Lexeme.int64? at h
  split at h
  · dsimp only at h
    split at h
    · rename_i hcond
      rw [Bool.and_eq_true, Bool.and_eq_true, decide_eq_true_iff, decide_eq_true_iff] at hcond
      obtain rfl := Option.some.inj h
      omega
    · cases h
  · dsimp only at h
    split at h
    · rename_i hcond
      rw [Bool.and_eq_true, decide_eq_true_iff] at hcond
      obtain rfl := Option.some.inj h
      omega
    · cases h
  · cases h

/-- A number that is read as a whole number was written as that number is. -/
theorem int64?_eq_some_iff {raw : Bytes} (h : IsNumber raw) {n : Int} :
    (Lexeme.number raw).int64? = some n ↔ raw = Bytes.ofText (toString n) ∧ isInt64 n = true := by
  constructor
  · intro hread
    refine ⟨?_, isInt64_of_int64? hread⟩
    cases h with
    | unsigned h =>
      rw [int64?_unsigned h] at hread
      split at hread
      · rename_i hcond
        rw [Bool.and_eq_true, List.all_eq_true] at hcond
        obtain rfl := Option.some.inj hread
        exact (ofText_natOfDigits (h.isWhole hcond.1) hcond.1).symm
      · cases hread
    | @negative digits h =>
      change (if (digits.all isDigit && decide (0 < natOfDigits digits) && decide (natOfDigits digits ≤ size63)) = true
        then some (-(natOfDigits digits : Int)) else none) = _ at hread
      split at hread
      · rename_i hcond
        rw [Bool.and_eq_true, Bool.and_eq_true, List.all_eq_true, decide_eq_true_iff] at hcond
        obtain ⟨⟨hdigits, hpos⟩, -⟩ := hcond
        obtain rfl := Option.some.inj hread
        have hwritten := ofText_natOfDigits (h.isWhole hdigits) hdigits
        obtain ⟨m, hm⟩ := Nat.exists_eq_succ_of_ne_zero (Nat.ne_of_gt hpos)
        rw [hm] at hwritten ⊢
        change _ = Bytes.ofText (toString (Int.negSucc m))
        rw [ofText_negSucc, hwritten]
      · cases hread
  · rintro ⟨rfl, hn⟩
    exact int64?_ofText hn

theorem uint32?_ofText {n : Nat} (hn : n < size32) : (Lexeme.number (Bytes.ofText (toString n))).uint32? = some n := by
  simp only [Lexeme.uint32?, all_isDigit_ofText, natOfDigits_ofText, hn, decide_true, Bool.and_self, if_true]

end SpeechDispatch.Json
