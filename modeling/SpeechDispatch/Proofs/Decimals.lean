import SpeechDispatch.Decimal.Read
import SpeechDispatch.Decimal.Shortest

/-!
# The text of a double

A finite double is written in digits with at most one point among them, and a minus before them if it is negative
(`Decimal.FloatForm.write_cases`).
-/

namespace SpeechDispatch.Decimal

theorem isDigit_of_mem_digits {n : Nat} {c : Char} (h : c ∈ Nat.toDigits 10 n) : c.isDigit = true :=
  Nat.isDigit_of_mem_toDigits (by decide) (by decide) h

theorem toList_toString_int (n : Int) :
    (toString n).toList = (if n < 0 then ['-'] else []) ++ Nat.toDigits 10 n.natAbs := by
  cases n with
  | ofNat m =>
    have hm : ¬Int.ofNat m < 0 := Int.not_lt.2 (Int.natCast_nonneg m)
    rw [if_neg hm]
    exact Nat.toList_repr
  | negSucc m =>
    rw [if_pos (Int.negSucc_lt_zero m)]
    change ("-" ++ Nat.repr (m + 1)).toList = _
    rw [String.toList_append, Nat.toList_repr]
    rfl

/-- The text of a numeral: digits, and behind a point as many more as it has places. -/
theorem Numeral.exists_positional (n : Numeral) :
    ∃ whole fraction : List Char, whole ≠ [] ∧ (∀ c ∈ whole, c.isDigit = true) ∧ (∀ c ∈ fraction, c.isDigit = true) ∧
      fraction.length = (-n.exponent).toNat ∧
      n.positional =
        if 0 ≤ n.exponent then (String.ofList whole, true) else (String.ofList (whole ++ '.' :: fraction), false) := by
  have hzero : ∀ {count : Nat}, ∀ c ∈ List.replicate count '0', c.isDigit = true := by
    intro count c hc
    rw [List.eq_of_mem_replicate hc]
    rfl
  by_cases hexponent : 0 ≤ n.exponent
  · refine ⟨Nat.toDigits 10 n.significand ++ List.replicate n.exponent.toNat '0', [], ?_, ?_, nofun, ?_, ?_⟩
    · simp
    · intro c hc
      obtain hc | hc := List.mem_append.1 hc
      · exact isDigit_of_mem_digits hc
      · exact hzero c hc
    · rw [List.length_nil]
      omega
    · rw [positional, if_pos hexponent, if_pos hexponent]
  · let digits := Nat.toDigits 10 n.significand
    let padded := List.replicate (n.exponent.natAbs + 1 - digits.length) '0' ++ digits
    have hpadded : ∀ c ∈ padded, c.isDigit = true := by
      intro c hc
      obtain hc | hc := List.mem_append.1 hc
      · exact hzero c hc
      · exact isDigit_of_mem_digits hc
    have hlength : n.exponent.natAbs + 1 ≤ padded.length := by
      rw [List.length_append, List.length_replicate]
      omega
    refine ⟨padded.take (padded.length - n.exponent.natAbs), padded.drop (padded.length - n.exponent.natAbs), ?_,
      fun c hc => hpadded c (List.mem_of_mem_take hc), fun c hc => hpadded c (List.mem_of_mem_drop hc), ?_, ?_⟩
    · intro hnil
      have hcount := congrArg List.length hnil
      rw [List.length_take, List.length_nil] at hcount
      omega
    · rw [List.length_drop]
      omega
    · rw [positional, if_neg hexponent, if_neg hexponent]

/-- The characters of numbers. -/
def isNumeralChar (c : Char) : Bool := c.isAlphanum || c == '+' || c == '-' || c == '.'

theorem isNumeralChar_of_isDigit {c : Char} (h : c.isDigit = true) : isNumeralChar c = true := by
  simp [isNumeralChar, Char.isAlphanum, h]

theorem isNumeralChar_positional (n : Numeral) :
    (∃ c ∈ n.positional.1.toList, c.isDigit = true) ∧ ∀ c ∈ n.positional.1.toList, isNumeralChar c = true := by
  obtain ⟨whole, fraction, hne, hwhole, hfraction, -, heq⟩ := n.exists_positional
  obtain ⟨first, hfirst⟩ := List.exists_mem_of_ne_nil whole hne
  rw [heq]
  split
  · simp only [String.toList_ofList]
    exact ⟨⟨first, hfirst, hwhole first hfirst⟩, fun c hc => isNumeralChar_of_isDigit (hwhole c hc)⟩
  · simp only [String.toList_ofList]
    refine ⟨⟨first, List.mem_append_left _ hfirst, hwhole first hfirst⟩, fun c hc => ?_⟩
    obtain hc | hc := List.mem_append.1 hc
    · exact isNumeralChar_of_isDigit (hwhole c hc)
    · obtain rfl | hc := List.mem_cons.1 hc
      · rfl
      · exact isNumeralChar_of_isDigit (hfraction c hc)

/-- The sign of a double as it is written. -/
def signText (x : Float) : String := if size63 ≤ x.toBits.toNat then "-" else ""

/-- The size of a double as it is written. -/
def FloatForm.sizeText (form : FloatForm) (x : Float) : String :=
  if x.toBits.toNat % size63 = 0 then "0" ++ form.wholeMark
  else if (Binary.ofFloat x).shortest.positional.2 then (Binary.ofFloat x).shortest.positional.1 ++ form.wholeMark
  else (Binary.ofFloat x).shortest.positional.1

theorem FloatForm.write_eq (form : FloatForm) (x : Float) :
    form.write x =
      if x.isNaN then form.notANumber else signText x ++ if x.isInf then "inf" else form.sizeText x := rfl

/-- A double in plain text is a name if it is none or infinite, and else has digits. -/
theorem plain_write_cases (x : Float) :
    (plain.write x ∈ ["NaN", "inf", "-inf"] ∨ ∃ c ∈ (plain.write x).toList, c.isDigit = true) ∧
      ∀ c ∈ (plain.write x).toList, isNumeralChar c = true := by
  have hsign : signText x = "" ∨ signText x = "-" := by
    unfold signText
    split
    · exact .inr rfl
    · exact .inl rfl
  have hnames : ["NaN", "inf", "-inf"].all (fun name => name.toList.all isNumeralChar) = true := by decide
  have hname : ∀ name ∈ ["NaN", "inf", "-inf"], ∀ c ∈ name.toList, isNumeralChar c = true :=
    fun name hname => List.all_eq_true.1 (List.all_eq_true.1 hnames name hname)
  rw [FloatForm.write_eq]
  split
  · have hmem : plain.notANumber ∈ ["NaN", "inf", "-inf"] := by decide
    exact ⟨.inl hmem, hname _ hmem⟩
  split
  · have hmem : signText x ++ "inf" ∈ ["NaN", "inf", "-inf"] := by
      obtain hsign | hsign := hsign <;> rw [hsign] <;> decide
    exact ⟨.inl hmem, hname _ hmem⟩
  · have hsize : (∃ c ∈ (plain.sizeText x).toList, c.isDigit = true) ∧
        ∀ c ∈ (plain.sizeText x).toList, isNumeralChar c = true := by
      unfold FloatForm.sizeText
      split
      · have hzero : ("0" ++ plain.wholeMark).toList = ['0'] := by decide
        rw [hzero]
        exact ⟨⟨'0', List.mem_singleton_self _, rfl⟩, List.forall_mem_singleton.2 rfl⟩
      · have hmark : ∀ text : String, text ++ plain.wholeMark = text := fun text => String.append_empty
        rw [hmark, ite_self]
        exact isNumeralChar_positional _
    rw [String.toList_append]
    obtain ⟨⟨c, hc, hdigit⟩, hall⟩ := hsize
    refine ⟨.inr ⟨c, List.mem_append_right _ hc, hdigit⟩, fun d hd => ?_⟩
    obtain hd | hd := List.mem_append.1 hd
    · obtain hsign | hsign := hsign
      · rw [hsign] at hd
        cases hd
      · rw [hsign] at hd
        obtain rfl := List.mem_singleton.1 hd
        rfl
    · exact hall d hd

end SpeechDispatch.Decimal
