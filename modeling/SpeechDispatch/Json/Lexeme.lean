import SpeechDispatch.Text.Bytes

/-!
# The lexemes of JSON

A body is cut into brackets, commas, colons, texts, numbers and words.  The inside of a text stays as it was written:
its escapes are checked for form here and resolved where the text is wanted (`SpeechDispatch.Json.Text`), and the same
holds for the digits of a number.  A run of lexemes knows nothing of white space.
-/

namespace SpeechDispatch.Json

inductive Bracket
  | array
  | object
  deriving DecidableEq

inductive Lexeme
  | opening (bracket : Bracket)
  | closing (bracket : Bracket)
  | comma
  | colon
  /-- What stands between the quotes. -/
  | text (raw : Bytes)
  /-- What the number is written with. -/
  | number (raw : Bytes)
  /-- One of `true`, `false` and `null`. -/
  | word (raw : Bytes)
  deriving DecidableEq

def quote : UInt8 := 0x22
def backslash : UInt8 := 0x5c

def isSpace (b : UInt8) : Bool := b == 0x20 || b == 0x0a || b == 0x0d || b == 0x09

def isDigit (b : UInt8) : Bool := 0x30 ≤ b && b ≤ 0x39

def isHexDigit (b : UInt8) : Bool := isDigit b || (0x41 ≤ b && b ≤ 0x46) || (0x61 ≤ b && b ≤ 0x66)

/-- The letters that may follow a backslash, `u` apart. -/
def isEscapeLetter (b : UInt8) : Bool :=
  b == quote || b == backslash || b == 0x2f || b == 0x62 || b == 0x66 || b == 0x6e || b == 0x72 || b == 0x74

/-- Cuts the rest of a text from what follows its closing quote; `seen` holds what was passed, last byte first. -/
def splitText (seen : Bytes) : Bytes → Option (Bytes × Bytes)
  | [] => none
  | b :: rest =>
    if b == quote then some (seen.reverse, rest)
    else if b == backslash then
      match rest with
      | 0x75 :: h1 :: h2 :: h3 :: h4 :: rest =>
        if isHexDigit h1 && isHexDigit h2 && isHexDigit h3 && isHexDigit h4 then
          splitText (h4 :: h3 :: h2 :: h1 :: 0x75 :: b :: seen) rest
        else none
      | e :: rest => if isEscapeLetter e then splitText (e :: b :: seen) rest else none
      | [] => none
    else if b < 0x20 then none
    else splitText (b :: seen) rest

/-- Cuts the digits at the front off; there must be one. -/
def splitDigits (input : Bytes) : Option (Bytes × Bytes) :=
  match input.takeWhile isDigit with
  | [] => none
  | digits => some (digits, input.dropWhile isDigit)

/-- Cuts an exponent off, if there is one. -/
def splitExponent : Bytes → Option (Bytes × Bytes)
  | e :: rest =>
    if e == 0x65 || e == 0x45 then
      match rest with
      | sign :: rest' =>
        if sign == 0x2b || sign == 0x2d then
          (splitDigits rest').map fun (digits, rest) => (e :: sign :: digits, rest)
        else (splitDigits rest).map fun (digits, rest) => (e :: digits, rest)
      | [] => none
    else some ([], e :: rest)
  | [] => some ([], [])

/-- Cuts a fraction off, if there is one. -/
def splitFraction : Bytes → Option (Bytes × Bytes)
  | 0x2e :: rest => (splitDigits rest).map fun (digits, rest) => (0x2e :: digits, rest)
  | rest => some ([], rest)

/-- Cuts the whole part of a number off, which is `0` or starts with another digit. -/
def splitWhole : Bytes → Option (Bytes × Bytes)
  | 0x30 :: rest => some ([0x30], rest)
  | rest => splitDigits rest

/-- Cuts a number without sign off. -/
def splitUnsigned (input : Bytes) : Option (Bytes × Bytes) :=
  (splitWhole input).bind fun (whole, rest) =>
    (splitFraction rest).bind fun (fraction, rest) =>
      (splitExponent rest).map fun (exponent, rest) => (whole ++ fraction ++ exponent, rest)

def splitNumber : Bytes → Option (Bytes × Bytes)
  | 0x2d :: rest => (splitUnsigned rest).map fun (raw, rest) => (0x2d :: raw, rest)
  | rest => splitUnsigned rest

/-- Cuts one of the three words off. -/
def splitWord : Bytes → Option (Bytes × Bytes)
  | 0x74 :: 0x72 :: 0x75 :: 0x65 :: rest => some ([0x74, 0x72, 0x75, 0x65], rest)
  | 0x66 :: 0x61 :: 0x6c :: 0x73 :: 0x65 :: rest => some ([0x66, 0x61, 0x6c, 0x73, 0x65], rest)
  | 0x6e :: 0x75 :: 0x6c :: 0x6c :: rest => some ([0x6e, 0x75, 0x6c, 0x6c], rest)
  | _ => none

/-- Cuts the first lexeme off a body that starts with none of the bytes of white space. -/
def splitLexeme : Bytes → Option (Lexeme × Bytes)
  | [] => none
  | b :: rest =>
    if b == 0x5b then some (.opening .array, rest)
    else if b == 0x5d then some (.closing .array, rest)
    else if b == 0x7b then some (.opening .object, rest)
    else if b == 0x7d then some (.closing .object, rest)
    else if b == 0x2c then some (.comma, rest)
    else if b == 0x3a then some (.colon, rest)
    else if b == quote then (splitText [] rest).map fun (raw, rest) => (.text raw, rest)
    else if b == 0x2d || isDigit b then (splitNumber (b :: rest)).map fun (raw, rest) => (.number raw, rest)
    else (splitWord (b :: rest)).map fun (raw, rest) => (.word raw, rest)

/-! ### Every lexeme takes something away -/

theorem splitText_length {seen input raw rest : Bytes} (h : splitText seen input = some (raw, rest)) :
    rest.length < input.length := by
  fun_induction splitText seen input
  case case1 | case4 | case6 | case7 | case8 => simp at h
  case case2 => simp_all
  case case3 ih | case5 ih | case9 ih => have := ih h; simp only [List.length_cons]; omega

theorem splitDigits_length {input raw rest : Bytes} (h : splitDigits input = some (raw, rest)) :
    rest.length < input.length := by
  have hlen := congrArg List.length (List.takeWhile_append_dropWhile (p := isDigit) (l := input))
  rw [List.length_append] at hlen
  unfold splitDigits at h
  split at h
  · simp at h
  · rename_i hne
    have : 0 < (input.takeWhile isDigit).length := List.length_pos_iff.2 hne
    simp only [Option.some.injEq, Prod.mk.injEq] at h
    rw [← h.2]
    omega

theorem splitExponent_length {input raw rest : Bytes} (h : splitExponent input = some (raw, rest)) :
    rest.length ≤ input.length := by
  unfold splitExponent at h
  split at h
  · split at h
    · split at h
      · split at h
        · obtain ⟨⟨raw', rest'⟩, ha, hb⟩ := Option.map_eq_some_iff.1 h
          have := splitDigits_length ha
          simp only [Prod.mk.injEq] at hb
          simp only [List.length_cons, ← hb.2]
          omega
        · obtain ⟨⟨raw', rest'⟩, ha, hb⟩ := Option.map_eq_some_iff.1 h
          have := splitDigits_length ha
          simp only [Prod.mk.injEq] at hb
          simp only [List.length_cons, ← hb.2] at this ⊢
          omega
      · exact absurd h (by simp)
    · simp only [Option.some.injEq, Prod.mk.injEq] at h
      simp [← h.2]
  · simp only [Option.some.injEq, Prod.mk.injEq] at h
    simp [← h.2]

theorem splitFraction_length {input raw rest : Bytes} (h : splitFraction input = some (raw, rest)) :
    rest.length ≤ input.length := by
  unfold splitFraction at h
  split at h
  · obtain ⟨⟨raw', rest'⟩, ha, hb⟩ := Option.map_eq_some_iff.1 h
    have := splitDigits_length ha
    simp only [Prod.mk.injEq] at hb
    simp only [List.length_cons, ← hb.2]
    omega
  · simp only [Option.some.injEq, Prod.mk.injEq] at h
    simp [← h.2]

theorem splitWhole_length {input raw rest : Bytes} (h : splitWhole input = some (raw, rest)) :
    rest.length < input.length := by
  unfold splitWhole at h
  split at h
  · simp only [Option.some.injEq, Prod.mk.injEq] at h
    simp [← h.2]
  · exact splitDigits_length h

theorem splitUnsigned_length {input raw rest : Bytes} (h : splitUnsigned input = some (raw, rest)) :
    rest.length < input.length := by
  unfold splitUnsigned at h
  obtain ⟨⟨whole, rest1⟩, ha, h⟩ := Option.bind_eq_some_iff.1 h
  obtain ⟨⟨fraction, rest2⟩, hb, h⟩ := Option.bind_eq_some_iff.1 h
  obtain ⟨⟨exponent, rest3⟩, hc, h⟩ := Option.map_eq_some_iff.1 h
  have h1 := splitWhole_length ha
  have h2 := splitFraction_length hb
  have h3 := splitExponent_length hc
  rw [Prod.mk.injEq] at h
  rw [← h.2]
  omega

theorem splitNumber_length {input raw rest : Bytes} (h : splitNumber input = some (raw, rest)) :
    rest.length < input.length := by
  unfold splitNumber at h
  split at h
  · obtain ⟨⟨raw', rest'⟩, ha, hb⟩ := Option.map_eq_some_iff.1 h
    have := splitUnsigned_length ha
    simp only [Prod.mk.injEq] at hb
    simp only [List.length_cons, ← hb.2]
    omega
  · exact splitUnsigned_length h

theorem splitWord_length {input raw rest : Bytes} (h : splitWord input = some (raw, rest)) :
    rest.length < input.length := by
  unfold splitWord at h
  split at h <;> simp_all <;> simp only [← h.2] <;> omega

theorem splitLexeme_length {input rest : Bytes} {lexeme : Lexeme} (h : splitLexeme input = some (lexeme, rest)) :
    rest.length < input.length := by
  unfold splitLexeme at h
  split at h
  · simp at h
  · repeat' split at h
    all_goals try
      simp only [Option.some.injEq, Prod.mk.injEq] at h
      simp [← h.2]
    · obtain ⟨⟨raw, rest'⟩, ha, hb⟩ := Option.map_eq_some_iff.1 h
      have := splitText_length ha
      simp only [Prod.mk.injEq] at hb
      simp only [List.length_cons, ← hb.2]
      omega
    · obtain ⟨⟨raw, rest'⟩, ha, hb⟩ := Option.map_eq_some_iff.1 h
      simp only [Prod.mk.injEq] at hb
      rw [← hb.2]
      exact splitNumber_length ha
    · obtain ⟨⟨raw, rest'⟩, ha, hb⟩ := Option.map_eq_some_iff.1 h
      simp only [Prod.mk.injEq] at hb
      rw [← hb.2]
      exact splitWord_length ha

/-! ### The lexemes of a body -/

/-- The lexemes of a body after those in `seen`, which are listed last first. -/
def lexemesAfter (seen : List Lexeme) (input : Bytes) : Option (List Lexeme) :=
  match input with
  | [] => some seen.reverse
  | b :: rest =>
    if isSpace b then lexemesAfter seen rest
    else
      match h : splitLexeme (b :: rest) with
      | none => none
      | some (lexeme, after) =>
        have := splitLexeme_length h
        lexemesAfter (lexeme :: seen) after
termination_by input.length
decreasing_by all_goals (simp only [List.length_cons] at *; omega)

/-- The lexemes of a body, if it consists of lexemes and white space. -/
def lexemes (body : Bytes) : Option (List Lexeme) := lexemesAfter [] body

end SpeechDispatch.Json
