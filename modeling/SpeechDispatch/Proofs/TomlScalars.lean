import Mathlib.Data.List.TakeWhile
import Mathlib.Tactic.Ring
import SpeechDispatch.Proofs.Decimals
import SpeechDispatch.Toml.Scalar
import SpeechDispatch.Toml.Writer

/-!
# Numbers in TOML

Truth values and whole numbers are read as they were written (`scalarValue?_integer`).  The text of a finite double has
a point with digits around it, so it is no whole number, and what it says is the double nearest to these digits
(`float?_decimals`).
-/

namespace SpeechDispatch.Toml

open Decimal

/-! ### Digits -/

theorem digitRun?_of_forall {isDigit : Char → Bool} (hmark : isDigit '_' = false) {input : List Char}
    (hne : input ≠ []) (h : ∀ c ∈ input, isDigit c = true) : digitRun? isDigit input = some input := by
  induction input with
  | nil => exact absurd rfl hne
  | cons c rest ih =>
    have hc := h c (List.mem_cons_self ..)
    cases rest with
    | nil => rw [digitRun?, if_pos hc]
    | cons d rest =>
      have hd : d ≠ '_' := by
        rintro rfl
        rw [h '_' (List.mem_cons_of_mem _ (List.mem_cons_self ..))] at hmark
        cases hmark
      rw [digitRun?, if_pos hc, ih (List.cons_ne_nil _ _) fun e he => h e (List.mem_cons_of_mem _ he)]
      · rfl
      · exact fun he => absurd he (List.cons_ne_nil _ _)
      · exact fun after he => hd (List.cons.inj he).1

theorem digitRun?_eq_none {isDigit : Char → Bool} {input : List Char} {c : Char} (hmem : c ∈ input)
    (hmark : c ≠ '_') (hc : isDigit c = false) : digitRun? isDigit input = none := by
  fun_induction digitRun? isDigit input with
  | case1 => rfl
  | case2 d hd =>
    obtain rfl := List.mem_singleton.1 hmem
    rw [hc] at hd
    cases hd
  | case3 => rfl
  | case4 d rest hd ih =>
    obtain rfl | hmem := List.mem_cons.1 hmem
    · rw [hc] at hd
      cases hd
    obtain rfl | hmem := List.mem_cons.1 hmem
    · exact absurd rfl hmark
    · rw [ih hmem]
      rfl
  | case5 => rfl
  | case6 d rest _ _ hd ih =>
    obtain rfl | hmem := List.mem_cons.1 hmem
    · rw [hc] at hd
      cases hd
    · rw [ih hmem]
      rfl
  | case7 => rfl

theorem natOfDigits_eq (digits : List Char) : natOfDigits digits = Nat.ofDigitChars 10 digits 0 := by
  rw [Nat.ofDigitChars_eq_foldl]
  unfold natOfDigits
  simp only [Nat.mul_comm]
  rfl

theorem natOfDigits_toDigits (n : Nat) : natOfDigits (Nat.toDigits 10 n) = n := by
  rw [natOfDigits_eq, Nat.ofDigitChars_ten_toDigits]

theorem natOfDigits_append (digits rest : List Char) :
    natOfDigits (digits ++ rest) = 10 ^ rest.length * natOfDigits digits + natOfDigits rest := by
  rw [natOfDigits_eq, natOfDigits_eq, natOfDigits_eq, Nat.ofDigitChars_append, Nat.ofDigitChars_eq_ofDigitChars_zero]

theorem natOfDigits_replicate (count : Nat) : natOfDigits (List.replicate count '0') = 0 := by
  rw [natOfDigits_eq, Nat.ofDigitChars_replicate_zero, Nat.mul_zero]

theorem natOfDigits_lt {digits : List Char} (h : ∀ c ∈ digits, c.isDigit = true) :
    natOfDigits digits < 10 ^ digits.length := by
  induction digits with
  | nil => exact Nat.zero_lt_one
  | cons c rest ih =>
    have hrest := ih fun d hd => h d (List.mem_cons_of_mem _ hd)
    have hc : natOfDigits [c] ≤ 9 := by
      have hdigit := h c (List.mem_cons_self ..)
      have hle : c.toNat ≤ 57 := by
        simp only [Char.isDigit, Bool.and_eq_true, decide_eq_true_eq] at hdigit
        exact hdigit.2
      change 0 * 10 + (c.toNat - 0x30) ≤ 9
      omega
    have hpow : 10 ^ (rest.length + 1) = 10 ^ rest.length * 9 + 10 ^ rest.length := by ring
    have hmul : 10 ^ rest.length * natOfDigits [c] ≤ 10 ^ rest.length * 9 := Nat.mul_le_mul_left _ hc
    rw [← List.singleton_append, natOfDigits_append, List.length_append, List.length_singleton, Nat.add_comm 1, hpow]
    omega

/-- Digits of a whole number: at least one, and no zero before others. -/
structure IsWhole (digits : List Char) : Prop where
  ne_nil : digits ≠ []
  isDigit : ∀ c ∈ digits, c.isDigit = true
  head_ne : ∀ c rest, digits ≠ '0' :: c :: rest

theorem isWhole_toDigits (n : Nat) : IsWhole (Nat.toDigits 10 n) := by
  refine ⟨?_, fun c => isDigit_of_mem_digits, ?_⟩
  · simp
  · intro c rest h
    -- Without its zero the number had one digit less, which is too few for it.
    have hlength : (Nat.toDigits 10 n).length = rest.length + 2 := by rw [h]; rfl
    have hn : n = natOfDigits (c :: rest) := by
      rw [← natOfDigits_toDigits n, h]
      rfl
    have hlt : n < 10 ^ (rest.length + 1) := by
      conv_lhs => rw [hn]
      refine natOfDigits_lt fun d hd => isDigit_of_mem_digits (n := n) ?_
      rw [h]
      exact List.mem_cons_of_mem _ hd
    have := (Nat.length_toDigits_le_iff (b := 10) (n := n) (k := rest.length + 1) (by decide) (by omega)).2 hlt
    omega

theorem wholeDigits?_of_isWhole {digits : List Char} (h : IsWhole digits) : wholeDigits? digits = some digits := by
  rw [wholeDigits?, digitRun?_of_forall rfl h.ne_nil h.isDigit]
  split
  · rename_i heq
    exact absurd (Option.some.inj heq) (h.head_ne _ _)
  · rfl

theorem wholeDigits?_eq_none {input : List Char} {c : Char} (hmem : c ∈ input) (hmark : c ≠ '_')
    (hc : c.isDigit = false) : wholeDigits? input = none := by
  rw [wholeDigits?, digitRun?_eq_none hmem hmark hc]

/-! ### Whole numbers -/

/-- The sign before digits. -/
def signChars (negative : Bool) : List Char := if negative then ['-'] else []

theorem splitSign_signChars (negative : Bool) {rest : List Char} (hminus : rest.head? ≠ some '-')
    (hplus : rest.head? ≠ some '+') : splitSign (signChars negative ++ rest) = (negative, rest) := by
  cases negative with
  | true => rfl
  | false =>
    change splitSign rest = _
    unfold splitSign
    split
    · exact absurd rfl hminus
    · exact absurd rfl hplus
    · rfl

/-- What starts with digits is written in base ten. -/
theorem integer?_signChars (negative : Bool) {c : Char} (hc : c.isDigit = true) {rest : List Char}
    (hbase : ∀ d ∈ rest.head?, d ≠ 'x' ∧ d ≠ 'o' ∧ d ≠ 'b') :
    integer? (signChars negative ++ c :: rest) = (wholeDigits? (c :: rest)).map fun digits =>
      if negative then -(natOfDigits digits : Int) else natOfDigits digits := by
  have hhead : ∀ d : Char, d.isDigit = false → (c :: rest).head? ≠ some d := by
    rintro d hd h
    rw [List.head?_cons] at h
    rw [Option.some.inj h, hd] at hc
    cases hc
  have hsplit := splitSign_signChars negative (hhead '-' rfl) (hhead '+' rfl)
  have hne : ∀ (d : Char) (after : List Char), d = 'x' ∨ d = 'o' ∨ d = 'b' →
      signChars negative ++ c :: rest ≠ '0' :: d :: after := by
    intro d after hd h
    cases negative with
    | true => exact absurd (List.cons.inj h).1 (by decide)
    | false =>
      have hrest : rest = d :: after := (List.cons.inj h).2
      have hd' := hbase d (by rw [hrest]; rfl)
      obtain hd | hd | hd := hd
      · exact hd'.1 hd
      · exact hd'.2.1 hd
      · exact hd'.2.2 hd
  unfold integer?
  dsimp only
  split
  · rename_i heq
    exact absurd heq (hne _ _ (.inl rfl))
  · rename_i heq
    exact absurd heq (hne _ _ (.inr (.inl rfl)))
  · rename_i heq
    exact absurd heq (hne _ _ (.inr (.inr rfl)))
  · rw [hsplit]

theorem toList_toString (n : Int) : (toString n).toList = signChars (n < 0) ++ Nat.toDigits 10 n.natAbs := by
  rw [Decimal.toList_toString_int, signChars]
  by_cases hn : n < 0
  · rw [if_pos hn, decide_eq_true hn, if_pos rfl]
  · rw [if_neg hn, decide_eq_false hn, if_neg Bool.false_ne_true]

theorem integer?_toString (n : Int) : integer? (toString n).toList = some n := by
  have hwhole := isWhole_toDigits n.natAbs
  rw [toList_toString]
  obtain ⟨c, rest, hdigits⟩ := List.exists_cons_of_ne_nil hwhole.ne_nil
  have hc : c.isDigit = true := hwhole.isDigit c (hdigits ▸ List.mem_cons_self ..)
  have hbase : ∀ d ∈ rest.head?, d ≠ 'x' ∧ d ≠ 'o' ∧ d ≠ 'b' := by
    intro d hd
    have hdigit := hwhole.isDigit d (hdigits ▸ List.mem_cons_of_mem _ (List.mem_of_mem_head? hd))
    refine ⟨?_, ?_, ?_⟩ <;> rintro rfl <;> cases hdigit
  rw [hdigits, integer?_signChars _ hc hbase, ← hdigits, wholeDigits?_of_isWhole hwhole, Option.map_some,
    natOfDigits_toDigits]
  by_cases hn : n < 0
  · rw [decide_eq_true hn, if_pos rfl]
    congr 1
    omega
  · rw [decide_eq_false hn, if_neg (by decide)]
    congr 1
    omega

/-- A whole number is read as it was written. -/
theorem scalarValue?_integer {n : Int} (h : isWide n = true) :
    scalarValue? (toString n).toList = some (.integer n) := by
  have hread := integer?_toString n
  have hname : ∀ name, integer? name = none → (toString n).toList ≠ name := by
    rintro name hnone h
    rw [h, hnone] at hread
    cases hread
  unfold scalarValue?
  rw [if_neg (hname _ (by decide)), if_neg (hname _ (by decide)), hread]
  dsimp only
  rw [if_pos h]

theorem scalarValue?_bool (b : Bool) : scalarValue? (toString b).toList = some (.bool b) := by
  cases b <;> rfl

/-! ### Doubles -/

/-- Digits with a point among them, and a minus before them or not. -/
theorem float?_decimals (negative : Bool) {whole fraction : List Char} (hwhole : IsWhole whole)
    (hne : fraction ≠ []) (hfraction : ∀ c ∈ fraction, c.isDigit = true) :
    float? (signChars negative ++ (whole ++ '.' :: fraction)) =
      let value := nearest (natOfDigits (whole ++ fraction)) (-fraction.length)
      if value.isInf then none else some (if negative then -value else value) := by
  have hdigit : ∀ (c d : Char), c.isDigit = true → d.isDigit = false → c ≠ d := by
    rintro c d hc hd rfl
    rw [hc] at hd
    cases hd
  obtain ⟨first, rest, hfirst⟩ := List.exists_cons_of_ne_nil hwhole.ne_nil
  have hc : first.isDigit = true := hwhole.isDigit first (hfirst ▸ List.mem_cons_self ..)
  have hhead : ∀ d : Char, d.isDigit = false → (whole ++ '.' :: fraction).head? ≠ some d := by
    intro d hd h
    rw [hfirst] at h
    exact hdigit _ _ hc hd (Option.some.inj h)
  have hmantissa : ∀ c ∈ whole ++ '.' :: fraction, (!(c == 'e' || c == 'E')) = true := by
    have hmark : ∀ c : Char, c = '.' ∨ c.isDigit = true → (!(c == 'e' || c == 'E')) = true := by
      intro c h
      rw [Bool.not_eq_true', Bool.or_eq_false_iff, beq_eq_false_iff_ne, beq_eq_false_iff_ne]
      obtain rfl | h := h
      · decide
      · exact ⟨hdigit _ _ h rfl, hdigit _ _ h rfl⟩
    intro c h
    obtain h | h := List.mem_append.1 h
    · exact hmark c (.inr (hwhole.isDigit c h))
    obtain h | h := List.mem_cons.1 h
    · exact hmark c (.inl h)
    · exact hmark c (.inr (hfraction c h))
  have hbefore : ∀ c ∈ whole, decide (c ≠ '.') = true :=
    fun c h => decide_eq_true (hdigit _ _ (hwhole.isDigit c h) rfl)
  have hname : ∀ name : String, name.toList.contains '.' = false → whole ++ '.' :: fraction ≠ name.toList := by
    intro name hname h
    rw [← h, List.contains_iff_mem.2 (List.mem_append_right _ (List.mem_cons_self ..))] at hname
    cases hname
  unfold float?
  rw [splitSign_signChars negative (hhead '-' rfl) (hhead '+' rfl)]
  dsimp only
  rw [if_neg (hname _ (by decide)), if_neg (hname _ (by decide)), List.takeWhile_eq_self_iff.2 hmantissa,
    List.dropWhile_eq_nil_iff.2 hmantissa, List.takeWhile_append_of_pos hbefore, List.dropWhile_append_of_pos hbefore,
    List.takeWhile_cons_of_neg (by decide), List.dropWhile_cons_of_neg (by decide), List.append_nil,
    wholeDigits?_of_isWhole hwhole]
  change Option.map _ ((digitRun? Char.isDigit fraction).bind _) = _
  rw [digitRun?_of_forall rfl hne hfraction]
  change Option.map _ (if (nearest (natOfDigits (whole ++ fraction)) (0 - fraction.length)).isInf then _ else _) = _
  rw [Int.zero_sub, apply_ite (Option.map _)]
  rfl

/-- What digits around a point write as a numeral. -/
def IsWrittenAs (n : Numeral) (chars : List Char) : Prop :=
  ∃ (whole fraction : List Char) (k : Nat), chars = whole ++ '.' :: fraction ∧ IsWhole whole ∧ fraction ≠ [] ∧
    (∀ c ∈ fraction, c.isDigit = true) ∧ natOfDigits (whole ++ fraction) = n.significand * 10 ^ k ∧
    (-fraction.length : Int) = n.exponent - k

theorem isWhole_append {digits rest : List Char} (h : IsWhole digits) (hrest : ∀ c ∈ rest, c.isDigit = true)
    (hzero : digits ≠ ['0']) : IsWhole (digits ++ rest) := by
  refine ⟨fun hnil => h.ne_nil (List.append_eq_nil_iff.1 hnil).1, fun c hc => ?_, fun c after heq => ?_⟩
  · obtain hc | hc := List.mem_append.1 hc
    · exact h.isDigit c hc
    · exact hrest c hc
  · match digits, h, hzero, heq with
    | [], h, _, _ => exact h.ne_nil rfl
    | [d], _, hzero, heq => exact hzero (by rw [(List.cons.inj heq).1])
    | d :: d' :: digits, h, _, heq => exact h.head_ne d' digits (by rw [(List.cons.inj heq).1])

theorem isWhole_take {digits : List Char} (h : IsWhole digits) {count : Nat} (hcount : 0 < count) :
    IsWhole (digits.take count) := by
  refine ⟨?_, fun c hc => h.isDigit c (List.mem_of_mem_take hc), fun c rest heq => ?_⟩
  · rw [ne_eq, List.take_eq_nil_iff, not_or]
    exact ⟨by omega, h.ne_nil⟩
  · refine h.head_ne c (rest ++ digits.drop count) ((List.take_append_drop count digits).symm.trans ?_)
    rw [heq]
    rfl

/-- Digits with zeros before them, if they are too few for so many places behind a point: the digits before the point
are those of a whole number. -/
theorem isWhole_padded {digits : List Char} (h : IsWhole digits) {places : Nat} {padded : List Char}
    (hpadded : padded = List.replicate (places + 1 - digits.length) '0' ++ digits) :
    IsWhole (padded.take (padded.length - places)) ∧ (padded.drop (padded.length - places)).length = places := by
  have hlength : padded.length = places + 1 - digits.length + digits.length := by
    rw [hpadded, List.length_append, List.length_replicate]
  refine ⟨?_, by rw [List.length_drop]; omega⟩
  by_cases hshort : digits.length ≤ places
  · have hone : padded.length - places = 1 := by omega
    have hzero : places + 1 - digits.length = (places - digits.length) + 1 := by omega
    rw [hone, hpadded, hzero, List.replicate_succ]
    exact isWhole_toDigits 0
  · have hnone : places + 1 - digits.length = 0 := by omega
    have hcut : 0 < padded.length - places := by omega
    rw [hnone, List.replicate_zero, List.nil_append] at hpadded
    rw [hpadded] at hcut ⊢
    exact isWhole_take h hcut

theorem isWrittenAs_positional {n : Numeral} (hpos : 0 < n.significand) :
    IsWrittenAs n (if n.positional.2 then n.positional.1 ++ floatForm.wholeMark else n.positional.1).toList := by
  have hdigits := isWhole_toDigits n.significand
  have hzeros : ∀ {count : Nat}, ∀ c ∈ List.replicate count '0', c.isDigit = true := by
    intro count c hc
    rw [List.eq_of_mem_replicate hc]
    rfl
  by_cases hexponent : 0 ≤ n.exponent
  · have hne : Nat.toDigits 10 n.significand ≠ ['0'] := by
      intro h
      have hvalue := natOfDigits_toDigits n.significand
      rw [h] at hvalue
      change 0 = _ at hvalue
      omega
    refine ⟨Nat.toDigits 10 n.significand ++ List.replicate n.exponent.toNat '0', ['0'], n.exponent.toNat + 1, ?_,
      isWhole_append hdigits hzeros hne, List.cons_ne_nil _ _, List.forall_mem_singleton.2 rfl, ?_, ?_⟩
    · rw [Numeral.positional, if_pos hexponent, if_pos rfl, String.toList_append, String.toList_ofList]
      rfl
    · rw [List.append_assoc, ← List.replicate_succ', natOfDigits_append, natOfDigits_toDigits, natOfDigits_replicate,
        List.length_replicate, Nat.add_zero, Nat.mul_comm]
    · rw [List.length_singleton]
      omega
  · obtain ⟨padded, hpadded⟩ : ∃ padded, padded = List.replicate (n.exponent.natAbs + 1 -
        (Nat.toDigits 10 n.significand).length) '0' ++ Nat.toDigits 10 n.significand := ⟨_, rfl⟩
    have hall : ∀ c ∈ padded, c.isDigit = true := by
      intro c hc
      rw [hpadded] at hc
      obtain hc | hc := List.mem_append.1 hc
      · exact hzeros c hc
      · exact hdigits.isDigit c hc
    obtain ⟨hwhole, hlength⟩ := isWhole_padded hdigits hpadded
    refine ⟨padded.take (padded.length - n.exponent.natAbs), padded.drop (padded.length - n.exponent.natAbs), 0, ?_,
      hwhole, ?_, fun c hc => hall c (List.mem_of_mem_drop hc), ?_, ?_⟩
    · rw [Numeral.positional, if_neg hexponent, if_neg Bool.false_ne_true, String.toList_ofList, hpadded]
    · rw [← List.length_pos_iff, hlength]
      omega
    · rw [List.take_append_drop, hpadded, natOfDigits_append, natOfDigits_toDigits, natOfDigits_replicate]
      omega
    · rw [hlength]
      omega

theorem scalarValue?_of_isWrittenAs {n : Numeral} {chars : List Char} (h : IsWrittenAs n chars) {negative : Bool}
    {x : Float} (hread : float? (signChars negative ++ chars) = some x) :
    scalarValue? (signChars negative ++ chars) = some (.float x) := by
  obtain ⟨whole, fraction, _, hchars, hwhole, -, hfraction, -⟩ := h
  have hpoint : '.' ∈ signChars negative ++ chars := by
    rw [hchars]
    exact List.mem_append_right _ (List.mem_append_right _ (List.mem_cons_self ..))
  have hname : ∀ name : String, name.toList.contains '.' = false → signChars negative ++ chars ≠ name.toList := by
    intro name hname heq
    rw [← heq, List.contains_iff_mem.2 hpoint] at hname
    cases hname
  have hnone : integer? (signChars negative ++ chars) = none := by
    obtain ⟨first, rest, hfirst⟩ := List.exists_cons_of_ne_nil hwhole.ne_nil
    have hfirstDigit := hwhole.isDigit first (hfirst ▸ List.mem_cons_self ..)
    have hbase : ∀ d ∈ (rest ++ '.' :: fraction).head?, d ≠ 'x' ∧ d ≠ 'o' ∧ d ≠ 'b' := by
      intro d hd
      have hmark : d = '.' ∨ d.isDigit = true := by
        cases rest with
        | nil => exact .inl (Option.some.inj hd).symm
        | cons e rest =>
          obtain rfl := Option.some.inj hd
          exact .inr (hwhole.isDigit _ (hfirst ▸ List.mem_cons_of_mem _ (List.mem_cons_self ..)))
      refine ⟨?_, ?_, ?_⟩ <;> rintro rfl <;> obtain hd | hd := hmark <;> cases hd
    rw [hchars, hfirst, List.cons_append, integer?_signChars negative hfirstDigit hbase,
      wholeDigits?_eq_none (List.mem_cons_of_mem _ (List.mem_append_right _ (List.mem_cons_self ..))) (by decide) rfl]
    rfl
  unfold scalarValue?
  rw [if_neg (hname _ (by decide)), if_neg (hname _ (by decide)), hnone, hread]
  rfl

end SpeechDispatch.Toml
