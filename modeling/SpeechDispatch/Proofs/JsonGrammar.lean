import SpeechDispatch.Json.Record

/-!
# What is written by the grammar of JSON is read

The grammar says what a value is, byte by byte, with white space wherever it may stand and values nested to any depth
(`IsValue`, `IsObject`).  It asks for the form of texts and numbers only: escapes need not stand for characters, nor
bytes for a text.  What it derives is cut into lexemes (`Lexes`) that are passed as one value wherever they stand
(`IsPassed`, `IsValue.passed`), and an object falls into the members from which it was built
(`IsObject.composite?_eq`).
-/

namespace SpeechDispatch.Json

/-! ### The grammar -/

def AreSpaces (bytes : Bytes) : Prop := ∀ b ∈ bytes, isSpace b = true

theorem areSpaces_nil : AreSpaces [] := List.forall_mem_nil _

/-- A byte that stands for itself between quotes. -/
def IsPlain (b : UInt8) : Prop := b ≠ quote ∧ b ≠ backslash ∧ ¬ b < 0x20

/-- What may stand between quotes: plain bytes and escapes. -/
inductive IsInside : Bytes → Prop
  | nil : IsInside []
  | plain {b rest} (hb : IsPlain b) (h : IsInside rest) : IsInside (b :: rest)
  | letter {e rest} (he : isEscapeLetter e = true) (h : IsInside rest) : IsInside (backslash :: e :: rest)
  | unit {h1 h2 h3 h4 rest} (hhex : (isHexDigit h1 && isHexDigit h2 && isHexDigit h3 && isHexDigit h4) = true)
    (h : IsInside rest) : IsInside (backslash :: 0x75 :: h1 :: h2 :: h3 :: h4 :: rest)

/-- Digits, one at least. -/
def AreDigits (bytes : Bytes) : Prop := bytes ≠ [] ∧ ∀ b ∈ bytes, isDigit b = true

/-- The whole part of a number, which has no zero in front of other digits. -/
inductive IsWhole : Bytes → Prop
  | zero : IsWhole [0x30]
  | digits {bytes} (h : AreDigits bytes) (hfirst : bytes.head? ≠ some 0x30) : IsWhole bytes

inductive IsFraction : Bytes → Prop
  | missing : IsFraction []
  | digits {bytes} (h : AreDigits bytes) : IsFraction (0x2e :: bytes)

inductive IsExponent : Bytes → Prop
  | missing : IsExponent []
  | unsigned {e bytes} (he : e = 0x65 ∨ e = 0x45) (h : AreDigits bytes) : IsExponent (e :: bytes)
  | signed {e sign bytes} (he : e = 0x65 ∨ e = 0x45) (hsign : sign = 0x2b ∨ sign = 0x2d) (h : AreDigits bytes) :
    IsExponent (e :: sign :: bytes)

inductive IsUnsigned : Bytes → Prop
  | mk {whole fraction exponent} (hwhole : IsWhole whole) (hfraction : IsFraction fraction)
    (hexponent : IsExponent exponent) : IsUnsigned (whole ++ fraction ++ exponent)

inductive IsNumber : Bytes → Prop
  | unsigned {raw} (h : IsUnsigned raw) : IsNumber raw
  | negative {raw} (h : IsUnsigned raw) : IsNumber (0x2d :: raw)

inductive IsWord : Bytes → Prop
  | true : IsWord [0x74, 0x72, 0x75, 0x65]
  | false : IsWord [0x66, 0x61, 0x6c, 0x73, 0x65]
  | null : IsWord [0x6e, 0x75, 0x6c, 0x6c]

/-- A member of an object: what stands between the quotes of its key, and its value, both as they are written. -/
structure Member where
  key : Bytes
  value : Bytes

mutual

/-- A value, without white space around it. -/
inductive IsValue : Bytes → Prop
  | text {raw} (h : IsInside raw) : IsValue (quote :: (raw ++ [quote]))
  | number {raw} (h : IsNumber raw) : IsValue raw
  | word {raw} (h : IsWord raw) : IsValue raw
  | emptyArray {spaces} (h : AreSpaces spaces) : IsValue (0x5b :: (spaces ++ [0x5d]))
  | array {bytes} (h : AreElements bytes) : IsValue (0x5b :: (bytes ++ [0x5d]))
  | emptyObject {spaces} (h : AreSpaces spaces) : IsValue (0x7b :: (spaces ++ [0x7d]))
  | object {members bytes} (h : AreMembers members bytes) : IsValue (0x7b :: (bytes ++ [0x7d]))

/-- A value with white space around it. -/
inductive IsElement : Bytes → Bytes → Prop
  | mk {before value after} (hbefore : AreSpaces before) (h : IsValue value) (hafter : AreSpaces after) :
    IsElement value (before ++ (value ++ after))

inductive AreElements : Bytes → Prop
  | single {value bytes} (h : IsElement value bytes) : AreElements bytes
  | cons {value bytes rest} (h : IsElement value bytes) (hrest : AreElements rest) :
    AreElements (bytes ++ 0x2c :: rest)

inductive IsMember : Member → Bytes → Prop
  | mk {before key after value bytes} (hbefore : AreSpaces before) (hkey : IsInside key) (hafter : AreSpaces after)
    (h : IsElement value bytes) :
    IsMember ⟨key, value⟩ (before ++ quote :: (key ++ quote :: (after ++ 0x3a :: bytes)))

inductive AreMembers : List Member → Bytes → Prop
  | single {member bytes} (h : IsMember member bytes) : AreMembers [member] bytes
  | cons {member members bytes rest} (h : IsMember member bytes) (hrest : AreMembers members rest) :
    AreMembers (member :: members) (bytes ++ 0x2c :: rest)

end

/-- A body that is an object with these members, in their order. -/
inductive IsObject : List Member → Bytes → Prop
  | empty {before spaces after} (hbefore : AreSpaces before) (h : AreSpaces spaces) (hafter : AreSpaces after) :
    IsObject [] (before ++ 0x7b :: (spaces ++ 0x7d :: after))
  | members {before members bytes after} (hbefore : AreSpaces before) (h : AreMembers members bytes)
    (hafter : AreSpaces after) : IsObject members (before ++ 0x7b :: (bytes ++ 0x7d :: after))

/-! ### Texts -/

theorem ne_u_of_isEscapeLetter {e : UInt8} (he : isEscapeLetter e = true) : e ≠ 0x75 := by
  rintro rfl
  exact absurd he (by decide)

theorem splitText_of_isInside {raw : Bytes} (h : IsInside raw) (seen rest : Bytes) :
    splitText seen (raw ++ quote :: rest) = some (seen.reverse ++ raw, rest) := by
  have hquote : (backslash == quote) = false := rfl
  induction h generalizing seen with
  | nil =>
    rw [List.nil_append, splitText.eq_def]
    simp only [beq_self_eq_true, if_true, List.append_nil]
  | @plain b raw hb h ih =>
    have hstep : splitText seen (b :: (raw ++ quote :: rest)) = splitText (b :: seen) (raw ++ quote :: rest) := by
      rw [splitText.eq_def]
      simp only [beq_iff_eq, hb.1, hb.2.1, hb.2.2, if_false]
    rw [List.cons_append, hstep, ih, List.reverse_cons, List.append_assoc, List.singleton_append]
  | @letter e raw he h ih =>
    have hstep : splitText seen (backslash :: e :: (raw ++ quote :: rest)) =
        splitText (e :: backslash :: seen) (raw ++ quote :: rest) := by
      rw [splitText.eq_def]
      simp only [hquote, Bool.false_eq_true, if_false, beq_self_eq_true, if_true]
      split
      · rename_i heq
        exact absurd (List.cons.inj heq).1 (ne_u_of_isEscapeLetter he)
      · rename_i heq
        obtain ⟨rfl, rfl⟩ := List.cons.inj heq
        rw [if_pos he]
      · rename_i heq
        cases heq
    rw [List.cons_append, List.cons_append, hstep, ih]
    simp only [List.reverse_cons, List.append_assoc, List.cons_append, List.nil_append]
  | @unit h1 h2 h3 h4 raw hhex h ih =>
    have hstep : splitText seen (backslash :: 0x75 :: h1 :: h2 :: h3 :: h4 :: (raw ++ quote :: rest)) =
        splitText (h4 :: h3 :: h2 :: h1 :: 0x75 :: backslash :: seen) (raw ++ quote :: rest) := by
      rw [splitText.eq_def]
      simp only [hquote, Bool.false_eq_true, if_false, beq_self_eq_true, hhex, if_true]
    simp only [List.cons_append]
    rw [hstep, ih]
    simp only [List.reverse_cons, List.append_assoc, List.cons_append, List.nil_append]

/-! ### Numbers -/

/-- A byte that cannot go on with a number. -/
def EndsNumber (b : UInt8) : Prop := isDigit b = false ∧ b ≠ 0x2e ∧ b ≠ 0x65 ∧ b ≠ 0x45

/-- Whether a number may stand before these bytes: they do not go on with it. -/
def EndsNumbers (rest : Bytes) : Prop := ∀ b ∈ rest.head?, EndsNumber b

theorem endsNumbers_nil : EndsNumbers [] := nofun

theorem endsNumbers_cons {b : UInt8} (hb : EndsNumber b) (rest : Bytes) : EndsNumbers (b :: rest) := by
  rintro _ ⟨⟩
  exact hb

theorem EndsNumbers.append {bytes rest : Bytes} (h : EndsNumbers bytes) (hrest : EndsNumbers rest) :
    EndsNumbers (bytes ++ rest) := by
  cases bytes with
  | nil => exact hrest
  | cons b bytes => exact endsNumbers_cons (h b rfl) _

theorem AreSpaces.endsNumbers {spaces : Bytes} (h : AreSpaces spaces) : EndsNumbers spaces := by
  intro b hb
  have hspace := h b (List.mem_of_head? hb)
  simp only [isSpace, Bool.or_eq_true, beq_iff_eq] at hspace
  rcases hspace with ((rfl | rfl) | rfl) | rfl <;> exact ⟨rfl, by decide, by decide, by decide⟩

private theorem splitDigits_append {digits rest : Bytes} (h : AreDigits digits)
    (hrest : ∀ b ∈ rest.head?, isDigit b = false) : splitDigits (digits ++ rest) = some (digits, rest) := by
  have hboth : (digits ++ rest).takeWhile isDigit = digits ∧ (digits ++ rest).dropWhile isDigit = rest := by
    rw [List.takeWhile_append_of_pos h.2, List.dropWhile_append_of_pos h.2]
    cases rest with
    | nil => exact ⟨List.append_nil _, rfl⟩
    | cons b rest =>
      have hb : ¬ isDigit b = true := by
        rw [hrest b rfl]
        nofun
      exact ⟨by rw [List.takeWhile_cons_of_neg hb, List.append_nil], List.dropWhile_cons_of_neg hb⟩
  unfold splitDigits
  rw [hboth.1, hboth.2]
  split
  · exact absurd rfl h.1
  · rfl

private theorem splitExponent_append {exponent rest : Bytes} (h : IsExponent exponent) (hrest : EndsNumbers rest) :
    splitExponent (exponent ++ rest) = some (exponent, rest) := by
  have hmark : ∀ {e : UInt8}, e = 0x65 ∨ e = 0x45 → (e == 0x65 || e == 0x45) = true := by
    rintro e (rfl | rfl) <;> rfl
  have hends : ∀ {digits}, AreDigits digits → splitDigits (digits ++ rest) = some (digits, rest) :=
    fun hdigits => splitDigits_append hdigits fun b hb => (hrest b hb).1
  cases h with
  | missing =>
    cases rest with
    | nil => rfl
    | cons b rest =>
      have hb := hrest b rfl
      simp only [List.nil_append, splitExponent, beq_iff_eq, hb.2.2.1, hb.2.2.2, Bool.or_eq_true, or_self, if_false]
  | @unsigned e digits he hdigits =>
    have hcut := hends hdigits
    obtain ⟨d, more, rfl⟩ := List.exists_cons_of_ne_nil hdigits.1
    have hd : isDigit d = true := hdigits.2 d (List.mem_cons_self ..)
    have hsign : (d == 0x2b || d == 0x2d) = false := by
      rw [Bool.or_eq_false_iff, beq_eq_false_iff_ne, beq_eq_false_iff_ne]
      constructor <;> rintro rfl <;> exact absurd hd (by decide)
    rw [List.cons_append] at hcut
    simp only [List.cons_append, splitExponent, hmark he, if_true, hsign, Bool.false_eq_true, if_false, hcut,
      Option.map_some]
  | @signed e sign digits he hsign hdigits =>
    have hmarked : (sign == 0x2b || sign == 0x2d) = true := by rcases hsign with rfl | rfl <;> rfl
    simp only [List.cons_append, splitExponent, hmark he, if_true, hmarked, hends hdigits, Option.map_some]

/-- Neither digits nor a fraction go on with an exponent and what follows it. -/
private theorem head_exponent {exponent rest : Bytes} (h : IsExponent exponent) (hrest : EndsNumbers rest) :
    ∀ b ∈ (exponent ++ rest).head?, isDigit b = false ∧ b ≠ 0x2e := by
  intro b hb
  cases h with
  | missing => exact ⟨(hrest b hb).1, (hrest b hb).2.1⟩
  | unsigned he | signed he =>
    cases hb
    rcases he with rfl | rfl <;> exact ⟨rfl, by decide⟩

private theorem splitFraction_append {fraction rest : Bytes} (h : IsFraction fraction)
    (hrest : ∀ b ∈ rest.head?, isDigit b = false ∧ b ≠ 0x2e) :
    splitFraction (fraction ++ rest) = some (fraction, rest) := by
  cases h with
  | missing =>
    rw [List.nil_append]
    unfold splitFraction
    split
    · exact absurd rfl (hrest 0x2e rfl).2
    · rfl
  | digits hdigits =>
    simp only [List.cons_append, splitFraction, splitDigits_append hdigits fun b hb => (hrest b hb).1,
      Option.map_some]

private theorem splitWhole_append {whole rest : Bytes} (h : IsWhole whole)
    (hrest : ∀ b ∈ rest.head?, isDigit b = false) : splitWhole (whole ++ rest) = some (whole, rest) := by
  cases h with
  | zero => rfl
  | digits hdigits hfirst =>
    unfold splitWhole
    split
    · rename_i heq
      obtain ⟨d, more, rfl⟩ := List.exists_cons_of_ne_nil hdigits.1
      exact absurd (congrArg some (List.cons.inj heq).1) hfirst
    · exact splitDigits_append hdigits hrest

private theorem splitUnsigned_append {raw rest : Bytes} (h : IsUnsigned raw) (hrest : EndsNumbers rest) :
    splitUnsigned (raw ++ rest) = some (raw, rest) := by
  obtain ⟨hwhole, hfraction, hexponent⟩ := h
  rename_i whole fraction exponent
  have hhead := head_exponent hexponent hrest
  have hfirst : ∀ b ∈ (fraction ++ (exponent ++ rest)).head?, isDigit b = false := by
    intro b hb
    cases hfraction with
    | missing => exact (hhead b hb).1
    | digits => cases hb; rfl
  simp only [splitUnsigned, List.append_assoc, splitWhole_append hwhole hfirst, splitFraction_append hfraction hhead,
    splitExponent_append hexponent hrest, Option.bind_some, Option.map_some]

/-- A number without sign starts with a digit. -/
theorem IsUnsigned.exists_cons {raw : Bytes} (h : IsUnsigned raw) : ∃ d rest, raw = d :: rest ∧ isDigit d = true := by
  obtain ⟨hwhole, -, -⟩ := h
  cases hwhole with
  | zero => exact ⟨0x30, _, rfl, rfl⟩
  | digits hdigits =>
    obtain ⟨d, more, rfl⟩ := List.exists_cons_of_ne_nil hdigits.1
    exact ⟨d, _, rfl, hdigits.2 d (List.mem_cons_self ..)⟩

theorem IsNumber.exists_cons {raw : Bytes} (h : IsNumber raw) :
    ∃ b rest, raw = b :: rest ∧ (b = 0x2d ∨ isDigit b = true) := by
  cases h with
  | unsigned h =>
    obtain ⟨d, rest, hraw, hd⟩ := h.exists_cons
    exact ⟨d, rest, hraw, .inr hd⟩
  | negative h => exact ⟨0x2d, _, rfl, .inl rfl⟩

/-- A number is cut off where it ends. -/
theorem splitNumber_append {raw rest : Bytes} (h : IsNumber raw) (hrest : EndsNumbers rest) :
    splitNumber (raw ++ rest) = some (raw, rest) := by
  cases h with
  | negative h => simp only [List.cons_append, splitNumber, splitUnsigned_append h hrest, Option.map_some]
  | unsigned h =>
    obtain ⟨d, more, rfl, hd⟩ := h.exists_cons
    unfold splitNumber
    split
    · rename_i heq
      obtain rfl := (List.cons.inj heq).1
      exact absurd hd (by decide)
    · exact splitUnsigned_append h hrest

/-! ### Lexemes -/

/-- The bytes are cut into these lexemes, wherever no number goes on behind them. -/
def Lexes (bytes : Bytes) (cut : List Lexeme) : Prop :=
  ∀ (seen : List Lexeme) (rest : Bytes), EndsNumbers rest →
    lexemesAfter seen (bytes ++ rest) = lexemesAfter (cut.reverse ++ seen) rest

theorem lexemesAfter_cons {b : UInt8} {input after : Bytes} {lexeme : Lexeme} (hspace : isSpace b = false)
    (h : splitLexeme (b :: input) = some (lexeme, after)) (seen : List Lexeme) :
    lexemesAfter seen (b :: input) = lexemesAfter (lexeme :: seen) after := by
  rw [lexemesAfter]
  simp only [hspace, Bool.false_eq_true, if_false]
  split
  · rename_i hnone
    rw [h] at hnone
    cases hnone
  · rename_i hsome
    rw [h] at hsome
    cases hsome
    rfl

namespace Lexes

variable {bytes bytes' : Bytes} {cut cut' : List Lexeme}

theorem nil : Lexes [] [] := fun _ _ _ => rfl

theorem append (h : Lexes bytes cut) (h' : Lexes bytes' cut') (hends : EndsNumbers bytes') :
    Lexes (bytes ++ bytes') (cut ++ cut') := by
  intro seen rest hrest
  rw [List.append_assoc, h _ _ (hends.append hrest), h' _ _ hrest, List.reverse_append, List.append_assoc]

/-- A lexeme of one byte may stand before anything. -/
theorem cons {b : UInt8} {lexeme : Lexeme} (hspace : isSpace b = false)
    (hlexeme : ∀ rest, splitLexeme (b :: rest) = some (lexeme, rest)) (h : Lexes bytes cut) :
    Lexes (b :: bytes) (lexeme :: cut) := by
  intro seen rest hrest
  rw [List.cons_append, lexemesAfter_cons hspace (hlexeme _), h _ _ hrest, List.reverse_cons, List.append_assoc]
  rfl

theorem opening_array (h : Lexes bytes cut) : Lexes (0x5b :: bytes) (.opening .array :: cut) :=
  cons rfl (fun _ => rfl) h

theorem closing_array (h : Lexes bytes cut) : Lexes (0x5d :: bytes) (.closing .array :: cut) :=
  cons rfl (fun _ => rfl) h

theorem opening_object (h : Lexes bytes cut) : Lexes (0x7b :: bytes) (.opening .object :: cut) :=
  cons rfl (fun _ => rfl) h

theorem closing_object (h : Lexes bytes cut) : Lexes (0x7d :: bytes) (.closing .object :: cut) :=
  cons rfl (fun _ => rfl) h

theorem comma (h : Lexes bytes cut) : Lexes (0x2c :: bytes) (.comma :: cut) := cons rfl (fun _ => rfl) h

theorem colon (h : Lexes bytes cut) : Lexes (0x3a :: bytes) (.colon :: cut) := cons rfl (fun _ => rfl) h

theorem spaces {spaces : Bytes} (hspaces : AreSpaces spaces) (h : Lexes bytes cut) : Lexes (spaces ++ bytes) cut := by
  intro seen rest hrest
  induction spaces with
  | nil => exact h seen rest hrest
  | cons b spaces ih =>
    obtain ⟨hb, hspaces⟩ := List.forall_mem_cons.1 hspaces
    rw [List.cons_append, List.cons_append, lexemesAfter]
    simp only [hb, if_true]
    exact ih hspaces

theorem text {raw : Bytes} (hraw : IsInside raw) (h : Lexes bytes cut) :
    Lexes (quote :: (raw ++ quote :: bytes)) (.text raw :: cut) := by
  intro seen rest hrest
  have hlexeme : splitLexeme (quote :: (raw ++ quote :: (bytes ++ rest))) = some (.text raw, bytes ++ rest) := by
    change (splitText [] (raw ++ quote :: (bytes ++ rest))).map _ = _
    rw [splitText_of_isInside hraw]
    rfl
  rw [List.cons_append, List.append_assoc, List.cons_append, lexemesAfter_cons rfl hlexeme, h _ _ hrest,
    List.reverse_cons, List.append_assoc]
  rfl

/-- The lexeme stands before anything that does not go on with a number. -/
theorem of_splitLexeme {b : UInt8} {bytes : Bytes} {lexeme : Lexeme} (hspace : isSpace b = false)
    (hlexeme : ∀ rest, EndsNumbers rest → splitLexeme (b :: bytes ++ rest) = some (lexeme, rest)) :
    Lexes (b :: bytes) [lexeme] := by
  intro seen rest hrest
  exact lexemesAfter_cons hspace (hlexeme rest hrest) seen

theorem lexemes_eq (h : Lexes bytes cut) : lexemes bytes = some cut := by
  have hall := h [] [] endsNumbers_nil
  rw [List.append_nil, List.append_nil, lexemesAfter, List.reverse_reverse] at hall
  exact hall

end Lexes

theorem splitLexeme_number {raw rest : Bytes} (h : IsNumber raw) (hrest : EndsNumbers rest) :
    splitLexeme (raw ++ rest) = some (.number raw, rest) := by
  have hcut := splitNumber_append h hrest
  obtain ⟨b, more, rfl, hb⟩ := h.exists_cons
  have hne : ∀ x, x ≠ 0x2d → isDigit x = false → (b == x) = false := by
    intro x hx hdigit
    rw [beq_eq_false_iff_ne]
    rintro rfl
    rcases hb with hb | hb
    · exact hx hb
    · exact absurd (hb.symm.trans hdigit) nofun
  have hnumber : (b == 0x2d || isDigit b) = true := by
    rw [Bool.or_eq_true, beq_iff_eq]
    exact hb
  rw [List.cons_append] at hcut ⊢
  rw [splitLexeme]
  simp only [hne 0x5b (by decide) rfl, hne 0x5d (by decide) rfl, hne 0x7b (by decide) rfl, hne 0x7d (by decide) rfl,
    hne 0x2c (by decide) rfl, hne 0x3a (by decide) rfl, hne quote (by decide) rfl, hnumber, Bool.false_eq_true,
    if_false, if_true, hcut, Option.map_some]

theorem lexes_number {raw : Bytes} (h : IsNumber raw) : Lexes raw [.number raw] := by
  have hlexeme := fun rest (hrest : EndsNumbers rest) => splitLexeme_number h hrest
  obtain ⟨b, more, rfl, hb⟩ := h.exists_cons
  refine .of_splitLexeme ?_ hlexeme
  cases hs : isSpace b with
  | false => rfl
  | true =>
    simp only [isSpace, Bool.or_eq_true, beq_iff_eq] at hs
    rcases hs with ((rfl | rfl) | rfl) | rfl <;> exact absurd hb (by decide)

theorem splitLexeme_word {raw : Bytes} (h : IsWord raw) (rest : Bytes) :
    splitLexeme (raw ++ rest) = some (.word raw, rest) := by
  cases h <;> rfl

theorem lexes_word {raw : Bytes} (h : IsWord raw) : Lexes raw [.word raw] := by
  have hlexeme := fun rest (_ : EndsNumbers rest) => splitLexeme_word h rest
  cases h with
  | true | false | null => exact .of_splitLexeme rfl hlexeme

/-- The lexeme with which a value starts. -/
def firstLexeme (value : Bytes) : Lexeme := ((splitLexeme value).map (·.1)).getD .comma

theorem firstLexeme_text {raw : Bytes} (h : IsInside raw) : firstLexeme (quote :: (raw ++ [quote])) = .text raw := by
  change (((splitText [] (raw ++ quote :: [])).map fun cut => (Lexeme.text cut.1, cut.2)).map (·.1)).getD _ = _
  rw [splitText_of_isInside h]
  rfl

theorem firstLexeme_number {raw : Bytes} (h : IsNumber raw) : firstLexeme raw = .number raw := by
  have hlexeme := splitLexeme_number h endsNumbers_nil
  rw [List.append_nil] at hlexeme
  rw [firstLexeme, hlexeme]
  rfl

theorem firstLexeme_word {raw : Bytes} (h : IsWord raw) : firstLexeme raw = .word raw := by
  cases h <;> rfl

/-! ### Values are passed whole -/

/-- What is left after a value that was inside these brackets, or what follows it if nothing is open. -/
def resume : List Bracket → List Lexeme → Option (List Lexeme)
  | [], rest => some rest
  | bracket :: stack, rest => skipFrom (bracket :: stack) .commaOrEnd rest

/-- A lexeme that completes a value. -/
theorem skipFrom_completed {stack stack' : List Bracket} {phase : Phase} {lexeme : Lexeme}
    (h : advance stack phase lexeme = some (stack', .commaOrEnd)) (rest : List Lexeme) :
    skipFrom stack phase (lexeme :: rest) = resume stack' rest := by
  rw [skipFrom, h]
  cases stack' <;> rfl

/-- The lexemes are passed as one value, wherever a value may stand. -/
def IsPassed (cut : List Lexeme) : Prop :=
  ∀ (stack : List Bracket) (rest : List Lexeme),
    skipFrom stack .value (cut ++ rest) = resume stack rest ∧
    skipFrom stack .elementOrEnd (cut ++ rest) = resume stack rest

/-- A member as it is found: its key and the first lexeme of its value. -/
def Member.entry (member : Member) : Bytes × Lexeme := (member.key, firstLexeme member.value)

/-- The lexemes are passed as the elements of an array, from the first or from a later one on. -/
def ArePassedElements (cut : List Lexeme) : Prop :=
  ∀ (stack : List Bracket) (rest : List Lexeme),
    skipFrom (.array :: stack) .value (cut ++ .closing .array :: rest) = resume stack rest ∧
    skipFrom (.array :: stack) .elementOrEnd (cut ++ .closing .array :: rest) = resume stack rest

/-- The lexemes are passed as the members of an object, from the first or from a later one on, and listed as these
members. -/
structure ArePassedMembers (members : List Member) (cut : List Lexeme) : Prop where
  skipFrom_key : ∀ (stack : List Bracket) (rest : List Lexeme),
    skipFrom (.object :: stack) .key (cut ++ .closing .object :: rest) = resume stack rest
  skipFrom_keyOrEnd : ∀ (stack : List Bracket) (rest : List Lexeme),
    skipFrom (.object :: stack) .keyOrEnd (cut ++ .closing .object :: rest) = resume stack rest
  membersAfter_eq : ∀ (seen : List (Bytes × Lexeme)) (rest : List Lexeme),
    membersAfter seen (cut ++ .closing .object :: rest) = some (seen.reverse ++ members.map Member.entry, rest)

private theorem membersAfter_of_skip_closing {key : Bytes} {value : Lexeme} {input rest : List Lexeme}
    (h : skip (value :: input) = some (.closing .object :: rest)) (seen : List (Bytes × Lexeme)) :
    membersAfter seen (.text key :: .colon :: value :: input) = some (((key, value) :: seen).reverse, rest) := by
  rw [membersAfter]
  split
  · rename_i heq
    rw [h] at heq
    cases heq
  · rename_i heq
    rw [h] at heq
    cases heq
    rfl
  · rename_i hnot
    exact absurd h (hnot _)

private theorem membersAfter_of_skip_comma {key : Bytes} {value : Lexeme} {input rest : List Lexeme}
    (h : skip (value :: input) = some (.comma :: rest)) (seen : List (Bytes × Lexeme)) :
    membersAfter seen (.text key :: .colon :: value :: input) = membersAfter ((key, value) :: seen) rest := by
  rw [membersAfter]
  split
  · rename_i heq
    rw [h] at heq
    cases heq
    rfl
  · rename_i heq
    rw [h] at heq
    cases heq
  · rename_i hnot _
    exact absurd h (hnot _)

theorem ArePassedMembers.single {member : Member} {more : List Lexeme}
    (h : IsPassed (firstLexeme member.value :: more)) :
    ArePassedMembers [member] (.text member.key :: .colon :: firstLexeme member.value :: more) where
  skipFrom_key stack rest := (h (.object :: stack) _).1.trans (skipFrom_completed rfl rest)
  skipFrom_keyOrEnd stack rest := (h (.object :: stack) _).1.trans (skipFrom_completed rfl rest)
  membersAfter_eq seen rest :=
    (membersAfter_of_skip_closing (h [] _).1 seen).trans (by rw [List.reverse_cons]; rfl)

theorem ArePassedMembers.cons {member : Member} {members : List Member} {more cut : List Lexeme}
    (h : IsPassed (firstLexeme member.value :: more)) (hrest : ArePassedMembers members cut) :
    ArePassedMembers (member :: members)
      (.text member.key :: .colon :: firstLexeme member.value :: more ++ .comma :: cut) where
  skipFrom_key stack rest := by
    rw [List.append_assoc]
    exact (h (.object :: stack) _).1.trans (hrest.skipFrom_key stack rest)
  skipFrom_keyOrEnd stack rest := by
    rw [List.append_assoc]
    exact (h (.object :: stack) _).1.trans (hrest.skipFrom_key stack rest)
  membersAfter_eq seen rest := by
    rw [List.append_assoc]
    refine (membersAfter_of_skip_comma (h [] _).1 seen).trans ((hrest.membersAfter_eq _ rest).trans ?_)
    rw [List.reverse_cons, List.append_assoc]
    rfl

-- one case for each rule of the grammar; what is passed within brackets is passed with the brackets around it
mutual

theorem IsValue.passed {bytes : Bytes} : IsValue bytes →
    ∃ more, Lexes bytes (firstLexeme bytes :: more) ∧ IsPassed (firstLexeme bytes :: more)
  | .text h => by
    rw [firstLexeme_text h]
    exact ⟨[], .text h .nil, fun stack rest => ⟨skipFrom_completed rfl rest, skipFrom_completed rfl rest⟩⟩
  | .number h => by
    rw [firstLexeme_number h]
    exact ⟨[], lexes_number h, fun stack rest => ⟨skipFrom_completed rfl rest, skipFrom_completed rfl rest⟩⟩
  | .word h => by
    rw [firstLexeme_word h]
    exact ⟨[], lexes_word h, fun stack rest => ⟨skipFrom_completed rfl rest, skipFrom_completed rfl rest⟩⟩
  | .emptyArray h => by
    refine ⟨[.closing .array], .opening_array (.spaces h (.closing_array .nil)), fun stack rest => ?_⟩
    have hclosed : skipFrom (.array :: stack) .elementOrEnd (.closing .array :: rest) = resume stack rest :=
      skipFrom_completed rfl rest
    exact ⟨hclosed, hclosed⟩
  | .array h => by
    obtain ⟨cut, hcut, hpassed⟩ := h.passed
    refine ⟨cut ++ [.closing .array], .opening_array (hcut.append (.closing_array .nil) ?_), fun stack rest => ?_⟩
    · exact endsNumbers_cons ⟨rfl, by decide, by decide, by decide⟩ _
    · have hclosed := (hpassed stack rest).2
      rw [List.cons_append, List.append_assoc]
      exact ⟨hclosed, hclosed⟩
  | .emptyObject h => by
    refine ⟨[.closing .object], .opening_object (.spaces h (.closing_object .nil)), fun stack rest => ?_⟩
    have hclosed : skipFrom (.object :: stack) .keyOrEnd (.closing .object :: rest) = resume stack rest :=
      skipFrom_completed rfl rest
    exact ⟨hclosed, hclosed⟩
  | .object h => by
    obtain ⟨key, more, hcut, hpassed⟩ := h.passed
    refine ⟨.text key :: more ++ [.closing .object], .opening_object (hcut.append (.closing_object .nil) ?_),
      fun stack rest => ?_⟩
    · exact endsNumbers_cons ⟨rfl, by decide, by decide, by decide⟩ _
    · have hclosed := hpassed.skipFrom_keyOrEnd stack rest
      rw [List.cons_append, List.append_assoc]
      exact ⟨hclosed, hclosed⟩

theorem IsElement.passed {value bytes : Bytes} : IsElement value bytes →
    ∃ more, Lexes bytes (firstLexeme value :: more) ∧ IsPassed (firstLexeme value :: more)
  | .mk hbefore h hafter => by
    obtain ⟨more, hcut, hpassed⟩ := h.passed
    refine ⟨more, .spaces hbefore ?_, hpassed⟩
    have hspaced := hcut.append (.spaces hafter .nil) ((List.append_nil _).symm ▸ hafter.endsNumbers)
    simpa only [List.append_nil] using hspaced

theorem AreElements.passed {bytes : Bytes} : AreElements bytes → ∃ cut, Lexes bytes cut ∧ ArePassedElements cut
  | .single h => by
    obtain ⟨more, hcut, hpassed⟩ := h.passed
    refine ⟨_, hcut, fun stack rest => ?_⟩
    have hclosed := hpassed (.array :: stack) (.closing .array :: rest)
    exact ⟨hclosed.1.trans (skipFrom_completed rfl rest), hclosed.2.trans (skipFrom_completed rfl rest)⟩
  | .cons h hrest => by
    obtain ⟨more, hcut, hpassed⟩ := h.passed
    obtain ⟨cut, hcut', hpassed'⟩ := hrest.passed
    refine ⟨_, hcut.append (.comma hcut') (endsNumbers_cons ⟨rfl, by decide, by decide, by decide⟩ _),
      fun stack rest => ?_⟩
    have hlater := hpassed (.array :: stack) (.comma :: (cut ++ .closing .array :: rest))
    rw [List.append_assoc]
    exact ⟨hlater.1.trans (hpassed' stack rest).1, hlater.2.trans (hpassed' stack rest).1⟩

theorem IsMember.passed {member : Member} {bytes : Bytes} : IsMember member bytes →
    ∃ more, Lexes bytes (.text member.key :: .colon :: firstLexeme member.value :: more) ∧
      IsPassed (firstLexeme member.value :: more)
  | .mk hbefore hkey hafter h => by
    obtain ⟨more, hcut, hpassed⟩ := h.passed
    exact ⟨more, .spaces hbefore (.text hkey (.spaces hafter (.colon hcut))), hpassed⟩

theorem AreMembers.passed {members : List Member} {bytes : Bytes} : AreMembers members bytes →
    ∃ key more, Lexes bytes (.text key :: more) ∧ ArePassedMembers members (.text key :: more)
  | .single h => by
    obtain ⟨more, hcut, hpassed⟩ := h.passed
    exact ⟨_, _, hcut, .single hpassed⟩
  | .cons h hrest => by
    obtain ⟨more, hcut, hpassed⟩ := h.passed
    obtain ⟨key, more', hcut', hpassed'⟩ := hrest.passed
    exact ⟨_, _, hcut.append (.comma hcut') (endsNumbers_cons ⟨rfl, by decide, by decide, by decide⟩ _),
      .cons hpassed hpassed'⟩

end

theorem AreMembers.isValue {members : List Member} {bytes : Bytes} (h : AreMembers members bytes) :
    ∀ member ∈ members, IsValue member.value := by
  have hmember : ∀ {member bytes}, IsMember member bytes → IsValue member.value := by
    rintro _ _ ⟨-, -, -, ⟨-, hvalue, -⟩⟩
    exact hvalue
  induction members generalizing bytes with
  | nil => nofun
  | cons first rest ih =>
    cases h with
    | single h => exact List.forall_mem_singleton.2 (hmember h)
    | cons h hrest => exact List.forall_mem_cons.2 ⟨hmember h, ih hrest⟩

/-! ### Objects -/

namespace IsObject

variable {members : List Member} {body : Bytes}

theorem isValue (h : IsObject members body) : ∀ member ∈ members, IsValue member.value := by
  cases h with
  | empty => nofun
  | members _ h _ => exact h.isValue

/-- An object is read as its members, in their order. -/
theorem composite?_eq (h : IsObject members body) : composite? body = some (.object (members.map Member.entry)) := by
  cases h with
  | empty hbefore hspaces hafter =>
    have hcut : Lexes _ [.opening .object, .closing .object] :=
      .spaces hbefore (.opening_object (.spaces hspaces (.closing_object (.spaces hafter .nil))))
    simp only [List.append_nil] at hcut
    simp only [composite?, hcut.lexemes_eq, List.map_nil]
  | members hbefore h hafter =>
    obtain ⟨key, more, hcut, hpassed⟩ := h.passed
    have hends : EndsNumber 0x7d := ⟨rfl, by decide, by decide, by decide⟩
    have hbody := Lexes.spaces hbefore (.opening_object
      (hcut.append (.closing_object (.spaces hafter .nil)) (endsNumbers_cons hends _)))
    have hmembers := hpassed.membersAfter_eq [] []
    simp only [List.append_nil] at hbody
    rw [List.cons_append] at hbody hmembers
    simp only [composite?, hbody.lexemes_eq, hmembers]
    rfl

end IsObject

end SpeechDispatch.Json
