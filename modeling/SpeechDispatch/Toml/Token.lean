import SpeechDispatch.Net.Address

/-!
# The tokens of TOML

A text is cut into words, quoted texts, marks, blanks and ends of lines; comments are left out.  Quoted texts are
resolved here, words are not told apart yet.  A line may end with a carriage return before the line feed, which counts
as one line feed also inside texts; carriage returns stand nowhere else.
-/

namespace SpeechDispatch.Toml

inductive Bracket
  | square
  | curly
  deriving DecidableEq

inductive Token
  /-- A run of characters without any meaning of their own. -/
  | word (chars : List Char)
  /-- What a text between quotes says, and whether it may run over lines. -/
  | text (chars : List Char) (overLines : Bool)
  | dot
  | equals
  | comma
  | opening (bracket : Bracket)
  | closing (bracket : Bracket)
  | blank
  | lineEnd
  deriving DecidableEq

/-- Carriage returns before line feeds left out; none may stand elsewhere. -/
def lineFeedsOnly? : List Char → Option (List Char)
  | [] => some []
  | '\r' :: '\n' :: rest => (lineFeedsOnly? rest).map ('\n' :: ·)
  | c :: rest => if c = '\r' then none else (lineFeedsOnly? rest).map (c :: ·)

def isBlank (c : Char) : Bool := c == ' ' || c == '\t'

/-- The characters that stand for themselves in texts and comments: all but the controls. -/
def isPlain (c : Char) : Bool := c == '\t' || (0x20 ≤ c.toNat && c.toNat ≠ 0x7f)

/-- The characters that end a word. -/
def endsWord (c : Char) : Bool :=
  [' ', '\t', '\n', '#', '.', '=', ',', '[', ']', '\x7b', '\x7d', '"', '\''].contains c

/-! ### Quoted texts -/

/-- The character with a number written in hexadecimal digits. -/
def scalar? (digits : List Char) : Option Char :=
  (Net.digits? Net.hexValue? 16 digits).bind fun n => if h : n.isValidChar then some (Char.ofNatAux n h) else none

/-- What a letter after a backslash stands for. -/
def escaped? (c : Char) : Option Char :=
  ([('b', '\x08'), ('t', '\t'), ('n', '\n'), ('f', '\x0c'), ('r', '\r'), ('e', '\x1b'), ('"', '"'), ('\\', '\\')]).lookup c

/-- Cuts what follows a backslash off, and the character it stands for. -/
def splitEscape : List Char → Option (Char × List Char)
  | 'x' :: a :: b :: rest => (scalar? [a, b]).map (·, rest)
  | 'u' :: a :: b :: c :: d :: rest => (scalar? [a, b, c, d]).map (·, rest)
  | 'U' :: a :: b :: c :: d :: e :: f :: g :: h :: rest => (scalar? [a, b, c, d, e, f, g, h]).map (·, rest)
  | c :: rest => (escaped? c).map (·, rest)
  | [] => none

/-- After a backslash at the end of a line: what follows the blanks and line ends there. -/
def afterFold? (input : List Char) : Option (List Char) :=
  match input.dropWhile isBlank with
  | '\n' :: rest => some (rest.dropWhile fun c => isBlank c || c == '\n')
  | _ => none

theorem splitEscape_length {input rest : List Char} {c : Char} (h : splitEscape input = some (c, rest)) :
    rest.length < input.length := by
  unfold splitEscape at h
  split at h
  case h_5 => cases h
  all_goals
    obtain ⟨_, _, h⟩ := Option.map_eq_some_iff.1 h
    simp only [Prod.mk.injEq] at h
    simp only [List.length_cons, ← h.2]
    omega

theorem afterFold?_length {input rest : List Char} (h : afterFold? input = some rest) :
    rest.length < input.length := by
  have h1 := (List.dropWhile_sublist isBlank (l := input)).length_le
  unfold afterFold? at h
  split at h
  · rename_i rest' heq
    have h2 := (List.dropWhile_sublist (fun c => isBlank c || c == '\n') (l := rest')).length_le
    simp only [Option.some.injEq] at h
    rw [heq, List.length_cons] at h1
    rw [← h]
    omega
  · cases h

/-- Cuts a text with escapes off, from within its quotes; `seen` holds what was passed, last character first. -/
def splitBasic (seen input : List Char) : Option (List Char × List Char) :=
  match input with
  | [] => none
  | '"' :: rest => some (seen.reverse, rest)
  | '\\' :: rest =>
    match h : splitEscape rest with
    | none => none
    | some (c, after) =>
      have := splitEscape_length h
      splitBasic (c :: seen) after
  | c :: rest => if isPlain c then splitBasic (c :: seen) rest else none
termination_by input.length

/-- Cuts a text over several lines with escapes off.  Up to two quotes may stand before the closing three. -/
def splitBasicLines (seen input : List Char) : Option (List Char × List Char) :=
  match input with
  | [] => none
  | '"' :: '"' :: '"' :: '"' :: '"' :: rest => some (('"' :: '"' :: seen).reverse, rest)
  | '"' :: '"' :: '"' :: '"' :: rest => some (('"' :: seen).reverse, rest)
  | '"' :: '"' :: '"' :: rest => some (seen.reverse, rest)
  | '\\' :: rest =>
    match h : splitEscape rest with
    | some (c, after) =>
      have := splitEscape_length h
      splitBasicLines (c :: seen) after
    | none =>
      match hf : afterFold? rest with
      | none => none
      | some after =>
        have := afterFold?_length hf
        splitBasicLines seen after
  | c :: rest => if isPlain c || c == '\n' then splitBasicLines (c :: seen) rest else none
termination_by input.length

/-- Cuts a text without escapes off. -/
def splitLiteral (seen : List Char) : List Char → Option (List Char × List Char)
  | [] => none
  | '\'' :: rest => some (seen.reverse, rest)
  | c :: rest => if isPlain c then splitLiteral (c :: seen) rest else none

/-- Cuts a text over several lines without escapes off. -/
def splitLiteralLines (seen : List Char) : List Char → Option (List Char × List Char)
  | [] => none
  | '\'' :: '\'' :: '\'' :: '\'' :: '\'' :: rest => some (('\'' :: '\'' :: seen).reverse, rest)
  | '\'' :: '\'' :: '\'' :: '\'' :: rest => some (('\'' :: seen).reverse, rest)
  | '\'' :: '\'' :: '\'' :: rest => some (seen.reverse, rest)
  | c :: rest => if isPlain c || c == '\n' then splitLiteralLines (c :: seen) rest else none

/-- The text without the line end right after its opening quotes. -/
def afterFirstLineEnd : List Char → List Char
  | '\n' :: rest => rest
  | rest => rest

/-- Cuts a text off, from its opening quotes on. -/
def splitText : List Char → Option (Token × List Char)
  | '"' :: '"' :: '"' :: rest => (splitBasicLines [] (afterFirstLineEnd rest)).map fun (t, rest) => (.text t true, rest)
  | '"' :: rest => (splitBasic [] rest).map fun (t, rest) => (.text t false, rest)
  | '\'' :: '\'' :: '\'' :: rest =>
    (splitLiteralLines [] (afterFirstLineEnd rest)).map fun (t, rest) => (.text t true, rest)
  | '\'' :: rest => (splitLiteral [] rest).map fun (t, rest) => (.text t false, rest)
  | _ => none

/-! ### All tokens -/

/-- The mark that a character is. -/
def mark? (c : Char) : Option Token :=
  ([('\n', Token.lineEnd), ('.', .dot), ('=', .equals), (',', .comma), ('[', .opening .square), (']', .closing .square),
    ('\x7b', .opening .curly), ('\x7d', .closing .curly)]).lookup c

/-- Cuts the first token off; `none` in its place stands for a comment. -/
def splitToken : List Char → Option (Option Token × List Char)
  | [] => none
  | c :: rest =>
    if isBlank c then some (some .blank, rest.dropWhile isBlank)
    else if c = '#' then
      if (rest.takeWhile (· ≠ '\n')).all isPlain then some (none, rest.dropWhile (· ≠ '\n')) else none
    else if c = '"' ∨ c = '\'' then (splitText (c :: rest)).map fun (token, rest) => (some token, rest)
    else
      match mark? c with
      | some token => some (some token, rest)
      | none => some (some (.word (c :: rest.takeWhile (!endsWord ·))), rest.dropWhile (!endsWord ·))

/-! ### Every token takes something away -/

theorem splitBasic_length {seen input text rest : List Char} (h : splitBasic seen input = some (text, rest)) :
    rest.length < input.length := by
  fun_induction splitBasic seen input
  case case1 | case3 | case6 => simp at h
  case case2 => simp_all
  case case4 ih | case5 ih => have := ih h; simp only [List.length_cons]; omega

theorem splitBasicLines_length {seen input text rest : List Char}
    (h : splitBasicLines seen input = some (text, rest)) : rest.length < input.length := by
  fun_induction splitBasicLines seen input
  case case1 | case6 | case9 => simp at h
  case case2 | case3 | case4 =>
    simp only [Option.some.injEq, Prod.mk.injEq] at h
    simp only [List.length_cons, ← h.2]
    omega
  case case5 ih | case7 ih | case8 ih => have := ih h; simp only [List.length_cons]; omega

theorem splitLiteral_length {seen input text rest : List Char} (h : splitLiteral seen input = some (text, rest)) :
    rest.length < input.length := by
  fun_induction splitLiteral seen input
  case case1 | case4 => simp at h
  case case2 => simp_all
  case case3 ih => have := ih h; simp only [List.length_cons]; omega

theorem splitLiteralLines_length {seen input text rest : List Char}
    (h : splitLiteralLines seen input = some (text, rest)) : rest.length < input.length := by
  fun_induction splitLiteralLines seen input
  case case1 | case6 => simp at h
  case case2 | case3 | case4 =>
    simp only [Option.some.injEq, Prod.mk.injEq] at h
    simp only [List.length_cons, ← h.2]
    omega
  case case5 ih => have := ih h; simp only [List.length_cons]; omega

theorem afterFirstLineEnd_length (input : List Char) : (afterFirstLineEnd input).length ≤ input.length := by
  unfold afterFirstLineEnd
  split <;> simp

theorem splitText_length {input rest : List Char} {token : Token} (h : splitText input = some (token, rest)) :
    rest.length < input.length := by
  unfold splitText at h
  split at h
  · rename_i rest'
    obtain ⟨_, ha, hb⟩ := Option.map_eq_some_iff.1 h
    have h1 := splitBasicLines_length ha
    have h2 := afterFirstLineEnd_length rest'
    simp only [Prod.mk.injEq] at hb
    simp only [List.length_cons, ← hb.2]
    omega
  · obtain ⟨_, ha, hb⟩ := Option.map_eq_some_iff.1 h
    have h1 := splitBasic_length ha
    simp only [Prod.mk.injEq] at hb
    simp only [List.length_cons, ← hb.2]
    omega
  · rename_i rest'
    obtain ⟨_, ha, hb⟩ := Option.map_eq_some_iff.1 h
    have h1 := splitLiteralLines_length ha
    have h2 := afterFirstLineEnd_length rest'
    simp only [Prod.mk.injEq] at hb
    simp only [List.length_cons, ← hb.2]
    omega
  · obtain ⟨_, ha, hb⟩ := Option.map_eq_some_iff.1 h
    have h1 := splitLiteral_length ha
    simp only [Prod.mk.injEq] at hb
    simp only [List.length_cons, ← hb.2]
    omega
  · cases h

theorem splitToken_length {input rest : List Char} {token : Option Token}
    (h : splitToken input = some (token, rest)) : rest.length < input.length := by
  unfold splitToken at h
  split at h
  · cases h
  · rename_i c tail
    have blanks := (List.dropWhile_sublist isBlank (l := tail)).length_le
    have comment := (List.dropWhile_sublist (fun c => decide (c ≠ '\n')) (l := tail)).length_le
    have word := (List.dropWhile_sublist (!endsWord ·) (l := tail)).length_le
    split at h
    · simp only [Option.some.injEq, Prod.mk.injEq] at h
      simp only [List.length_cons, ← h.2]
      omega
    · split at h
      · split at h
        · simp only [Option.some.injEq, Prod.mk.injEq] at h
          simp only [List.length_cons, ← h.2]
          omega
        · cases h
      · split at h
        · obtain ⟨_, ha, hb⟩ := Option.map_eq_some_iff.1 h
          simp only [Prod.mk.injEq] at hb
          rw [← hb.2]
          exact splitText_length ha
        · split at h
          · simp only [Option.some.injEq, Prod.mk.injEq] at h
            simp [← h.2]
          · simp only [Option.some.injEq, Prod.mk.injEq] at h
            simp only [List.length_cons, ← h.2]
            omega

/-- The tokens of a text without carriage returns, if it consists of tokens. -/
def tokensFrom (input : List Char) : Option (List Token) :=
  match input with
  | [] => some []
  | c :: rest =>
    match h : splitToken (c :: rest) with
    | none => none
    | some (token, after) =>
      have := splitToken_length h
      (tokensFrom after).map (token.toList ++ ·)
termination_by input.length
decreasing_by all_goals (simp only [List.length_cons] at *; omega)

/-- The tokens of a text; a byte order mark at its front counts for nothing. -/
def tokens? (text : String) : Option (List Token) :=
  (lineFeedsOnly? (match text.toList with
    | '\ufeff' :: rest => rest
    | chars => chars)).bind tokensFrom

end SpeechDispatch.Toml
