import SpeechDispatch.Toml.Token
import SpeechDispatch.Toml.Writer

/-!
# Quoted texts are read back

Whatever quotes are chosen for a text, reading it from its opening quotes on yields the text
(`Toml.splitText_quotedChars`).  Between quotes for several lines one or two quotes may stand unescaped, so the reader
cannot tell at a quote whether the text ends there; the invariant of both such readers is that at most two quotes have
been written that are not read yet.
-/

namespace SpeechDispatch.Toml

/-! ### Escapes -/

/-- A character other than the quote as it stands between quotes with escapes. -/
def escapeOf (overLines : Bool) (c : Char) : List Char :=
  match c with
  | '\x08' => ['\\', 'b']
  | '\t' => ['\\', 't']
  | '\x0c' => ['\\', 'f']
  | '\r' => ['\\', 'r']
  | '\\' => ['\\', '\\']
  | '\n' => if overLines then ['\n'] else ['\\', 'n']
  | c => if needsEscape c then '\\' :: 'u' :: hexDigits 4 c.toNat else [c]

theorem escapedChars_quote (overLines : Bool) (run : Nat) (rest : List Char) :
    escapedChars overLines run ('"' :: rest) =
      if run < if overLines then 2 else 0 then '"' :: escapedChars overLines (run + 1) rest
      else '\\' :: '"' :: escapedChars overLines 0 rest := by
  conv => lhs; unfold escapedChars
  rw [if_pos rfl]

theorem escapedChars_cons {c : Char} (hc : c ≠ '"') (overLines : Bool) (run : Nat) (rest : List Char) :
    escapedChars overLines run (c :: rest) = escapeOf overLines c ++ escapedChars overLines 0 rest := by
  conv => lhs; unfold escapedChars
  rw [if_neg hc]
  rfl

/-- Neither of the characters that end a line. -/
def isInLine (c : Char) : Bool := c != '\r' && c != '\n'

/-- The digits of an escape are read as the character. -/
theorem scalar?_hexDigits {c : Char} (hc : needsEscape c = true) :
    scalar? (hexDigits 4 c.toNat) = some c ∧ (hexDigits 4 c.toNat).all isInLine = true := by
  have hall : ∀ n < 128, scalar? (hexDigits 4 n) = some (Char.ofNat n) ∧ (hexDigits 4 n).all isInLine = true := by
    decide +kernel
  have hsmall : c.toNat < 128 := by
    simp only [needsEscape, Bool.or_eq_true, Bool.and_eq_true, decide_eq_true_eq, beq_iff_eq] at hc
    omega
  have hread := hall _ hsmall
  rwa [Char.ofNat_toNat] at hread

/-- A character is written as an escape that is read as the character, or as it stands. -/
theorem escapeOf_cases (overLines : Bool) (c : Char) :
    (∃ escape, escapeOf overLines c = '\\' :: escape ∧ escape.all isInLine = true ∧
      ∀ rest, splitEscape (escape ++ rest) = some (c, rest)) ∨
    escapeOf overLines c = [c] ∧ c ≠ '\\' ∧ c ≠ '\r' ∧ (isPlain c = true ∨ overLines = true ∧ c = '\n') := by
  unfold escapeOf
  split
  case h_6 =>
    cases overLines with
    | true => exact .inr ⟨rfl, by decide, by decide, .inr ⟨rfl, rfl⟩⟩
    | false => exact .inl ⟨['n'], rfl, rfl, fun rest => rfl⟩
  case h_7 _ h1 h2 h3 h4 h5 h6 =>
    by_cases hescape : needsEscape c = true
    · obtain ⟨hread, hline⟩ := scalar?_hexDigits hescape
      rw [if_pos hescape]
      refine .inl ⟨_, rfl, hline, fun rest => ?_⟩
      change (scalar? (hexDigits 4 c.toNat)).map (·, rest) = some (c, rest)
      rw [hread]
      rfl
    · rw [if_neg hescape]
      refine .inr ⟨rfl, h5, h4, .inl ?_⟩
      simp only [needsEscape, isPlain, Bool.or_eq_true, Bool.and_eq_true, decide_eq_true_eq, beq_iff_eq, bne_iff_ne,
        not_or, not_and, ne_eq, Decidable.not_not] at hescape ⊢
      exact .inr ⟨Nat.not_lt.1 fun hsmall => h2 (hescape.1 ⟨hsmall, h6⟩), hescape.2⟩
  all_goals exact .inl ⟨_, rfl, rfl, fun rest => rfl⟩

/-- Between quotes with escapes no carriage return stands, and no line ends that are not in the text. -/
theorem mem_escapedChars {overLines : Bool} {run : Nat} {text : List Char} {d : Char}
    (hd : d ∈ escapedChars overLines run text) : d ≠ '\r' ∧ (d = '\n' → '\n' ∈ text) := by
  induction text generalizing run with
  | nil =>
    rw [escapedChars] at hd
    cases hd
  | cons c text ih =>
    have hlater : ∀ {run}, d ∈ escapedChars overLines run text → d ≠ '\r' ∧ (d = '\n' → '\n' ∈ c :: text) :=
      fun hd => ⟨(ih hd).1, fun h => List.mem_cons_of_mem _ ((ih hd).2 h)⟩
    have hmark : ∀ {mark : Char}, mark ∈ ['"', '\\'] → d = mark → d ≠ '\r' ∧ (d = '\n' → '\n' ∈ c :: text) := by
      rintro mark hmark rfl
      obtain rfl | hmark := List.mem_cons.1 hmark
      · exact ⟨by decide, nofun⟩
      · obtain rfl := List.mem_singleton.1 hmark
        exact ⟨by decide, nofun⟩
    by_cases hquote : c = '"'
    · subst hquote
      rw [escapedChars_quote] at hd
      by_cases hspared : run < if overLines then 2 else 0
      · rw [if_pos hspared] at hd
        obtain hd | hd := List.mem_cons.1 hd
        · exact hmark (List.mem_cons_self ..) hd
        · exact hlater hd
      · rw [if_neg hspared] at hd
        obtain hd | hd := List.mem_cons.1 hd
        · exact hmark (List.mem_cons_of_mem _ (List.mem_cons_self ..)) hd
        · obtain hd | hd := List.mem_cons.1 hd
          · exact hmark (List.mem_cons_self ..) hd
          · exact hlater hd
    · rw [escapedChars_cons hquote] at hd
      obtain hd | hd := List.mem_append.1 hd
      · obtain ⟨escape, hescape, hline, -⟩ | ⟨hself, -, hreturn, -⟩ := escapeOf_cases overLines c
        · rw [hescape] at hd
          obtain hd | hd := List.mem_cons.1 hd
          · exact hmark (List.mem_cons_of_mem _ (List.mem_cons_self ..)) hd
          · have hin := List.all_eq_true.1 hline d hd
            simp only [isInLine, Bool.and_eq_true, bne_iff_ne] at hin
            exact ⟨hin.1, fun h => absurd h hin.2⟩
        · rw [hself] at hd
          obtain rfl := List.mem_singleton.1 hd
          exact ⟨hreturn, fun h => h ▸ List.mem_cons_self ..⟩
      · exact hlater hd

/-! ### Texts on one line -/

theorem splitBasic_escape {input rest : List Char} {c : Char} (h : splitEscape input = some (c, rest))
    (seen : List Char) : splitBasic seen ('\\' :: input) = splitBasic (c :: seen) rest := by
  rw [splitBasic]
  split
  · rename_i hnone
    rw [h] at hnone
    cases hnone
  · rename_i d after hsome
    rw [h] at hsome
    cases hsome
    rfl

theorem splitBasic_plain {c : Char} (hquote : c ≠ '"') (hslash : c ≠ '\\') (hplain : isPlain c = true)
    (seen rest : List Char) : splitBasic seen (c :: rest) = splitBasic (c :: seen) rest := by
  rw [splitBasic, if_pos hplain]
  · exact hquote
  · exact hslash

theorem splitBasic_escapedChars (text seen rest : List Char) (run : Nat) :
    splitBasic seen (escapedChars false run text ++ '"' :: rest) = some (seen.reverse ++ text, rest) := by
  induction text generalizing seen run with
  | nil => rw [escapedChars, List.nil_append, splitBasic, List.append_nil]
  | cons c text ih =>
    have hdone : splitBasic (c :: seen) (escapedChars false 0 text ++ '"' :: rest) =
        some (seen.reverse ++ c :: text, rest) := by
      rw [ih, List.reverse_cons, List.append_assoc, List.singleton_append]
    by_cases hquote : c = '"'
    · subst hquote
      rw [escapedChars_quote, if_neg (by simp), List.cons_append, List.cons_append]
      exact (splitBasic_escape rfl seen).trans hdone
    · rw [escapedChars_cons hquote, List.append_assoc]
      obtain ⟨escape, hescape, -, hread⟩ | ⟨hself, hslash, -, hplain | ⟨hlines, -⟩⟩ := escapeOf_cases false c
      · rw [hescape, List.cons_append, splitBasic_escape (hread _), hdone]
      · rw [hself, List.singleton_append, splitBasic_plain hquote hslash hplain, hdone]
      · cases hlines

theorem splitLiteral_plain {text : List Char} (hplain : ∀ c ∈ text, c ≠ '\'' ∧ isPlain c = true)
    (seen rest : List Char) :
    splitLiteral seen (text ++ '\'' :: rest) = some (seen.reverse ++ text, rest) := by
  induction text generalizing seen with
  | nil => rw [List.nil_append, splitLiteral, List.append_nil]
  | cons c text ih =>
    obtain ⟨hquote, hc⟩ := hplain c (List.mem_cons_self ..)
    rw [List.cons_append, splitLiteral, if_pos hc, ih fun d hd => hplain d (List.mem_cons_of_mem _ hd),
      List.reverse_cons, List.append_assoc, List.singleton_append]
    exact hquote

/-! ### Texts over several lines -/

/-- A reader that passes a mark unless two more follow passes up to two of them before something else. -/
theorem pending_of_step {β : Type} {split : List Char → List Char → β} {mark : Char}
    (hstep : ∀ seen rest, (∀ after, rest ≠ mark :: mark :: after) → split seen (mark :: rest) = split (mark :: seen) rest)
    {run : Nat} (hrun : run ≤ 2) {d : Char} (hd : d ≠ mark) (seen rest : List Char) :
    split seen (List.replicate run mark ++ d :: rest) = split (List.replicate run mark ++ seen) (d :: rest) := by
  have hone : ∀ seen, split seen (mark :: d :: rest) = split (mark :: seen) (d :: rest) :=
    fun seen => hstep seen _ fun after h => hd (List.cons.inj h).1
  match run, hrun with
  | 0, _ => rfl
  | 1, _ => exact hone seen
  | 2, _ =>
    have htwo : split seen (mark :: mark :: d :: rest) = split (mark :: seen) (mark :: d :: rest) :=
      hstep seen _ fun after h => hd (List.cons.inj (List.cons.inj h).2).1
    exact htwo.trans (hone _)

/-- Where the reader of several lines with escapes finds no end and no escape. -/
theorem splitBasicLines_step {c : Char} {rest : List Char} (hslash : c ≠ '\\')
    (hplain : isPlain c = true ∨ c = '\n') (hopen : c = '"' → ∀ after, rest ≠ '"' :: '"' :: after) (seen : List Char) :
    splitBasicLines seen (c :: rest) = splitBasicLines (c :: seen) rest := by
  have hcheck : (isPlain c || c == '\n') = true := by simpa using hplain
  rw [splitBasicLines, if_pos hcheck]
  · exact fun after hc h => hopen hc _ h
  · exact fun after hc h => hopen hc _ h
  · exact fun after hc h => hopen hc _ h
  · exact hslash

theorem splitBasicLines_escape {input rest : List Char} {c : Char} (h : splitEscape input = some (c, rest))
    (seen : List Char) : splitBasicLines seen ('\\' :: input) = splitBasicLines (c :: seen) rest := by
  rw [splitBasicLines]
  split
  · rename_i d after hsome
    rw [h] at hsome
    cases hsome
    rfl
  · rename_i hnone
    rw [h] at hnone
    cases hnone

theorem splitBasicLines_pending {run : Nat} (hrun : run ≤ 2) {d : Char} (hd : d ≠ '"') (seen rest : List Char) :
    splitBasicLines seen (List.replicate run '"' ++ d :: rest) =
      splitBasicLines (List.replicate run '"' ++ seen) (d :: rest) :=
  pending_of_step (fun seen _ hopen => splitBasicLines_step (by decide) (.inl rfl) (fun _ => hopen) seen) hrun hd seen
    rest

/-- At the end up to two quotes belong to the text. -/
theorem splitBasicLines_end {run : Nat} (hrun : run ≤ 2) {rest : List Char} (hrest : rest.head? ≠ some '"')
    (seen : List Char) :
    splitBasicLines seen (List.replicate run '"' ++ '"' :: '"' :: '"' :: rest) =
      some (seen.reverse ++ List.replicate run '"', rest) := by
  have hnext : ∀ after, rest ≠ '"' :: after := by
    rintro after rfl
    exact hrest rfl
  match run, hrun with
  | 0, _ =>
    change splitBasicLines seen ('"' :: '"' :: '"' :: rest) = _
    rw [splitBasicLines, List.replicate_zero, List.append_nil]
    · exact fun after h => hnext _ h
    · exact fun after h => hnext _ h
  | 1, _ =>
    change splitBasicLines seen ('"' :: '"' :: '"' :: '"' :: rest) = _
    rw [splitBasicLines, List.reverse_cons]
    · rfl
    · exact fun after h => hnext _ h
  | 2, _ =>
    change splitBasicLines seen ('"' :: '"' :: '"' :: '"' :: '"' :: rest) = _
    rw [splitBasicLines, List.reverse_cons, List.reverse_cons, List.append_assoc]
    rfl

theorem splitBasicLines_escapedChars {run : Nat} (hrun : run ≤ 2) {rest : List Char} (hrest : rest.head? ≠ some '"')
    (text seen : List Char) :
    splitBasicLines seen (List.replicate run '"' ++ escapedChars true run text ++ '"' :: '"' :: '"' :: rest) =
      some (seen.reverse ++ List.replicate run '"' ++ text, rest) := by
  induction text generalizing seen run with
  | nil => rw [escapedChars, List.append_nil, List.append_nil, splitBasicLines_end hrun hrest]
  | cons c text ih =>
    -- What was pending has been passed, and the character with it.
    have hdone : splitBasicLines (c :: (List.replicate run '"' ++ seen))
        (escapedChars true 0 text ++ '"' :: '"' :: '"' :: rest) =
          some (seen.reverse ++ List.replicate run '"' ++ c :: text, rest) := by
      have hrest := ih (Nat.zero_le 2) (c :: (List.replicate run '"' ++ seen))
      rw [List.replicate_zero, List.nil_append] at hrest
      rw [hrest, List.reverse_cons, List.reverse_append, List.reverse_replicate]
      simp only [List.append_assoc, List.singleton_append]
    by_cases hquote : c = '"'
    · subst hquote
      rw [escapedChars_quote]
      by_cases hspared : run < 2
      · have hmore := ih (show run + 1 ≤ 2 from hspared) seen
        rw [if_pos (by simpa using hspared)]
        rw [List.replicate_succ', List.append_assoc, List.append_assoc] at hmore
        simpa only [List.append_assoc, List.cons_append, List.nil_append] using hmore
      · rw [if_neg (by simpa using hspared), List.append_assoc, List.cons_append, List.cons_append,
          splitBasicLines_pending hrun (by decide)]
        exact (splitBasicLines_escape rfl _).trans hdone
    · rw [escapedChars_cons hquote, List.append_assoc, List.append_assoc]
      obtain ⟨escape, hescape, -, hread⟩ | ⟨hself, hslash, -, hplain⟩ := escapeOf_cases true c
      · rw [hescape, List.cons_append, splitBasicLines_pending hrun (by decide), splitBasicLines_escape (hread _),
          hdone]
      · rw [hself, List.singleton_append, splitBasicLines_pending hrun hquote,
          splitBasicLines_step hslash (hplain.imp_right And.right) (fun h => absurd h hquote), hdone]

theorem splitLiteralLines_step {c : Char} {rest : List Char} (hplain : isPlain c = true ∨ c = '\n')
    (hopen : c = '\'' → ∀ after, rest ≠ '\'' :: '\'' :: after) (seen : List Char) :
    splitLiteralLines seen (c :: rest) = splitLiteralLines (c :: seen) rest := by
  have hcheck : (isPlain c || c == '\n') = true := by simpa using hplain
  rw [splitLiteralLines, if_pos hcheck]
  · exact fun after hc h => hopen hc _ h
  · exact fun after hc h => hopen hc _ h
  · exact fun after hc h => hopen hc _ h

theorem splitLiteralLines_pending {run : Nat} (hrun : run ≤ 2) {d : Char} (hd : d ≠ '\'') (seen rest : List Char) :
    splitLiteralLines seen (List.replicate run '\'' ++ d :: rest) =
      splitLiteralLines (List.replicate run '\'' ++ seen) (d :: rest) :=
  pending_of_step (fun seen _ hopen => splitLiteralLines_step (.inl rfl) (fun _ => hopen) seen) hrun hd seen rest

theorem splitLiteralLines_end {run : Nat} (hrun : run ≤ 2) {rest : List Char} (hrest : rest.head? ≠ some '\'')
    (seen : List Char) :
    splitLiteralLines seen (List.replicate run '\'' ++ '\'' :: '\'' :: '\'' :: rest) =
      some (seen.reverse ++ List.replicate run '\'', rest) := by
  have hnext : ∀ after, rest ≠ '\'' :: after := by
    rintro after rfl
    exact hrest rfl
  match run, hrun with
  | 0, _ =>
    change splitLiteralLines seen ('\'' :: '\'' :: '\'' :: rest) = _
    rw [splitLiteralLines, List.replicate_zero, List.append_nil]
    · exact fun after h => hnext _ h
    · exact fun after h => hnext _ h
  | 1, _ =>
    change splitLiteralLines seen ('\'' :: '\'' :: '\'' :: '\'' :: rest) = _
    rw [splitLiteralLines, List.reverse_cons]
    · rfl
    · exact fun after h => hnext _ h
  | 2, _ =>
    change splitLiteralLines seen ('\'' :: '\'' :: '\'' :: '\'' :: '\'' :: rest) = _
    rw [splitLiteralLines, List.reverse_cons, List.reverse_cons, List.append_assoc]
    rfl

theorem le_longestRun (mark : Char) (current longest : Nat) (text : List Char) :
    longest ≤ longestRun mark current longest text := by
  induction text generalizing current longest with
  | nil => exact Nat.le_refl _
  | cons c text ih => exact Nat.le_trans (Nat.le_max_left ..) (ih _ _)

/-- A text without more than two quotes in a row, of which some were passed already. -/
theorem splitLiteralLines_plain {run longest : Nat} (hrun : run ≤ 2) {rest : List Char} (hrest : rest.head? ≠ some '\'')
    {text : List Char} (hlong : longestRun '\'' run longest text ≤ 2)
    (hplain : ∀ c ∈ text, isPlain c = true ∨ c = '\n') (seen : List Char) :
    splitLiteralLines seen (List.replicate run '\'' ++ text ++ '\'' :: '\'' :: '\'' :: rest) =
      some (seen.reverse ++ List.replicate run '\'' ++ text, rest) := by
  induction text generalizing seen run longest with
  | nil => rw [List.append_nil, List.append_nil, splitLiteralLines_end hrun hrest]
  | cons c text ih =>
    have hlater : ∀ d ∈ text, isPlain d = true ∨ d = '\n' := fun d hd => hplain d (List.mem_cons_of_mem _ hd)
    by_cases hquote : c = '\''
    · subst hquote
      rw [longestRun, if_pos rfl] at hlong
      have hmore : run + 1 ≤ 2 := Nat.le_trans (Nat.le_max_right ..) (Nat.le_trans (le_longestRun ..) hlong)
      have hread := ih hmore hlong hlater seen
      rw [List.replicate_succ', List.append_assoc, List.append_assoc] at hread
      simpa only [List.append_assoc, List.cons_append, List.nil_append] using hread
    · rw [longestRun, if_neg hquote] at hlong
      have hread := ih (Nat.zero_le 2) hlong hlater (c :: (List.replicate run '\'' ++ seen))
      rw [List.replicate_zero, List.nil_append] at hread
      rw [List.append_assoc, List.cons_append, splitLiteralLines_pending hrun hquote,
        splitLiteralLines_step (hplain c (List.mem_cons_self ..)) (fun h => absurd h hquote), hread, List.reverse_cons,
        List.reverse_append, List.reverse_replicate]
      simp only [List.append_assoc, List.singleton_append]

/-! ### All texts -/

theorem isPlain_of_not_needsEscape {c : Char} (h : needsEscape c = false) : isPlain c = true ∨ c = '\n' := by
  by_cases hline : c = '\n'
  · exact .inr hline
  by_cases htab : c = '\t'
  · rw [htab]
    exact .inl rfl
  simp only [needsEscape, isPlain, hline, htab, ne_eq, Bool.or_eq_false_iff, Bool.and_eq_false_iff,
    decide_eq_false_iff_not, bne_eq_false_iff_eq, beq_eq_false_iff_ne, Bool.or_eq_true, beq_iff_eq, Bool.and_eq_true,
    decide_eq_true_eq, or_false, false_or] at h ⊢
  omega

theorem notMem_of_longestRun {mark : Char} {current longest : Nat} {text : List Char}
    (h : longestRun mark current longest text = 0) : mark ∉ text := by
  induction text generalizing current longest with
  | nil => exact List.not_mem_nil
  | cons c text ih =>
    rw [longestRun] at h
    intro hmem
    obtain rfl | hmem := List.mem_cons.1 hmem
    · rw [if_pos rfl] at h
      have hle := le_longestRun mark (current + 1) (max longest (current + 1)) text
      omega
    · exact ih h hmem

/-- A text that quotes hold. -/
def Quotes.Hold (text : List Char) : Quotes → Prop
  | basic | basicLines => True
  | literal => (∀ c ∈ text, needsEscape c = false) ∧ '\'' ∉ text ∧ '\n' ∉ text
  | literalLines => (∀ c ∈ text, needsEscape c = false) ∧ longestRun '\'' 0 0 text ≤ 2

theorem hold_quotesFor (text : List Char) : (quotesFor text).Hold text := by
  have hcontrols : text.any needsEscape = false → ∀ c ∈ text, needsEscape c = false := by
    intro h c hc
    simpa using List.any_eq_false.1 h c hc
  unfold quotesFor
  dsimp only
  split
  · trivial
  split
  · rename_i h
    simp only [Bool.and_eq_true, Bool.not_eq_true', decide_eq_true_eq] at h
    refine ⟨hcontrols h.1.1, notMem_of_longestRun h.1.2, fun hmem => ?_⟩
    rw [List.contains_iff_mem.2 hmem] at h
    exact absurd h.2 (by decide)
  split
  · trivial
  split
  · rename_i h
    simp only [Bool.and_eq_true, Bool.not_eq_true', decide_eq_true_eq] at h
    exact ⟨hcontrols h.1, h.2⟩
  split <;> trivial

/-- What stands between quotes. -/
def Quotes.inside (text : List Char) : Quotes → List Char
  | basic => escapedChars false 0 text
  | basicLines => escapedChars true 0 text
  | literal | literalLines => text

theorem quotedChars_eq (text : List Char) :
    quotedChars text =
      (quotesFor text).mark ++ ((if (quotesFor text).overLines && text.contains '\n' then ['\n'] else []) ++
        ((quotesFor text).inside text ++ (quotesFor text).mark)) := by
  unfold quotedChars
  cases quotesFor text <;> simp only [Quotes.inside, Quotes.overLines, List.append_assoc]

/-- No carriage return stands between quotes, and no line ends that are not in the text. -/
theorem Quotes.mem_inside {quotes : Quotes} {text : List Char} (hold : quotes.Hold text) {d : Char}
    (hd : d ∈ quotes.inside text) : d ≠ '\r' ∧ (d = '\n' → '\n' ∈ text) := by
  have hplain : (∀ c ∈ text, needsEscape c = false) → d ∈ text → d ≠ '\r' ∧ (d = '\n' → '\n' ∈ text) := by
    refine fun h hmem => ⟨?_, fun hline => hline ▸ hmem⟩
    rintro rfl
    exact absurd (h _ hmem) (by decide)
  cases quotes with
  | basic | basicLines => exact mem_escapedChars hd
  | literal | literalLines => exact hplain hold.1 hd

theorem return_notMem_quotedChars (text : List Char) : '\r' ∉ quotedChars text := by
  have hmark : '\r' ∉ (quotesFor text).mark := by cases quotesFor text <;> decide
  rw [quotedChars_eq]
  intro hmem
  obtain hmem | hmem := List.mem_append.1 hmem
  · exact hmark hmem
  obtain hmem | hmem := List.mem_append.1 hmem
  · split at hmem
    · exact absurd (List.mem_singleton.1 hmem) (by decide)
    · cases hmem
  obtain hmem | hmem := List.mem_append.1 hmem
  · exact (Quotes.mem_inside (hold_quotesFor text) hmem).1 rfl
  · exact hmark hmem

/-- The line end behind opening quotes for several lines is left out, and no other is. -/
theorem afterFirstLineEnd_inside {quotes : Quotes} {text : List Char} (hold : quotes.Hold text)
    (hover : quotes.overLines = true) (rest : List Char) :
    afterFirstLineEnd ((if quotes.overLines && text.contains '\n' then ['\n'] else []) ++
      (quotes.inside text ++ (quotes.mark ++ rest))) = quotes.inside text ++ (quotes.mark ++ rest) := by
  by_cases hline : '\n' ∈ text
  · rw [hover, List.contains_iff_mem.2 hline]
    rfl
  · have hnone : (quotes.overLines && text.contains '\n') = false := by
      rw [hover, Bool.true_and]
      exact Bool.eq_false_iff.2 fun h => hline (List.contains_iff_mem.1 h)
    rw [hnone, if_neg (by decide), List.nil_append]
    cases hinside : quotes.inside text with
    | nil => cases quotes <;> rfl
    | cons d inside =>
      have hd : d ≠ '\n' := by
        rintro rfl
        exact hline ((Quotes.mem_inside hold (hinside ▸ List.mem_cons_self ..)).2 rfl)
      rw [List.cons_append]
      unfold afterFirstLineEnd
      split
      · rename_i heq
        exact absurd (List.cons.inj heq).1 hd
      · rfl

theorem splitText_basic {input : List Char} (h : ∀ after, input ≠ '"' :: '"' :: after) :
    splitText ('"' :: input) = (splitBasic [] input).map fun p => (.text p.1 false, p.2) := by
  rw [splitText]
  exact h

theorem splitText_literal {input : List Char} (h : ∀ after, input ≠ '\'' :: '\'' :: after) :
    splitText ('\'' :: input) = (splitLiteral [] input).map fun p => (.text p.1 false, p.2) := by
  rw [splitText]
  exact h

theorem splitText_basicLines (input : List Char) :
    splitText ('"' :: '"' :: '"' :: input) =
      (splitBasicLines [] (afterFirstLineEnd input)).map fun p => (.text p.1 true, p.2) := rfl

theorem splitText_literalLines (input : List Char) :
    splitText ('\'' :: '\'' :: '\'' :: input) =
      (splitLiteralLines [] (afterFirstLineEnd input)).map fun p => (.text p.1 true, p.2) := rfl

/-- A text on one line does not start as one over several lines does. -/
theorem escapedChars_ne_quotes (text : List Char) {rest : List Char} (hrest : rest.head? ≠ some '"')
    (after : List Char) : escapedChars false 0 text ++ '"' :: rest ≠ '"' :: '"' :: after := by
  cases text with
  | nil =>
    rw [escapedChars]
    intro h
    rw [(List.cons.inj h).2] at hrest
    exact hrest rfl
  | cons c text =>
    by_cases hquote : c = '"'
    · subst hquote
      rw [escapedChars_quote, if_neg (by simp)]
      exact fun h => absurd (List.cons.inj h).1 (by decide)
    · rw [escapedChars_cons hquote]
      obtain ⟨escape, hescape, -⟩ | ⟨hself, -⟩ := escapeOf_cases false c
      · rw [hescape]
        exact fun h => absurd (List.cons.inj h).1 (by decide)
      · rw [hself]
        exact fun h => hquote (List.cons.inj h).1

/-- A written text is read back, and what follows it is left, unless that starts with a quote. -/
theorem splitText_quotedChars (text : List Char) {rest : List Char} (hbasic : rest.head? ≠ some '"')
    (hliteral : rest.head? ≠ some '\'') :
    splitText (quotedChars text ++ rest) = some (.text text (quotesFor text).overLines, rest) := by
  have hold := hold_quotesFor text
  rw [quotedChars_eq, List.append_assoc, List.append_assoc, List.append_assoc]
  cases hquotes : quotesFor text with
  | basic =>
    change splitText ('"' :: (escapedChars false 0 text ++ '"' :: rest)) = _
    rw [splitText_basic (escapedChars_ne_quotes text hbasic), splitBasic_escapedChars]
    rfl
  | literal =>
    rw [hquotes] at hold
    obtain ⟨hcontrols, hquote, hline⟩ := hold
    have hne : ∀ after, text ++ '\'' :: rest ≠ '\'' :: '\'' :: after := by
      intro after h
      cases text with
      | nil =>
        rw [(List.cons.inj h).2] at hliteral
        exact hliteral rfl
      | cons c text => exact hquote ((List.cons.inj h).1 ▸ List.mem_cons_self ..)
    have hplain : ∀ c ∈ text, c ≠ '\'' ∧ isPlain c = true := by
      intro c hc
      refine ⟨fun h => hquote (h ▸ hc), ?_⟩
      obtain hplain | hend := isPlain_of_not_needsEscape (hcontrols c hc)
      · exact hplain
      · exact absurd (hend ▸ hc) hline
    change splitText ('\'' :: (text ++ '\'' :: rest)) = _
    rw [splitText_literal hne, splitLiteral_plain hplain]
    rfl
  | basicLines =>
    rw [hquotes] at hold
    have hread := splitBasicLines_escapedChars (Nat.zero_le 2) hbasic text []
    rw [List.replicate_zero, List.nil_append] at hread
    have hopen : ∀ input, Quotes.basicLines.mark ++ input = '"' :: '"' :: '"' :: input := fun _ => rfl
    rw [hopen, splitText_basicLines, afterFirstLineEnd_inside hold rfl, hopen]
    change (splitBasicLines [] (escapedChars true 0 text ++ _)).map _ = _
    rw [hread]
    rfl
  | literalLines =>
    rw [hquotes] at hold
    have hplain : ∀ c ∈ text, isPlain c = true ∨ c = '\n' :=
      fun c hc => isPlain_of_not_needsEscape (hold.1 c hc)
    have hread := splitLiteralLines_plain (Nat.zero_le 2) hliteral hold.2 hplain []
    rw [List.replicate_zero, List.nil_append] at hread
    have hopen : ∀ input, Quotes.literalLines.mark ++ input = '\'' :: '\'' :: '\'' :: input := fun _ => rfl
    rw [hopen, splitText_literalLines, afterFirstLineEnd_inside hold rfl, hopen]
    change (splitLiteralLines [] (text ++ _)).map _ = _
    rw [hread]
    rfl

end SpeechDispatch.Toml
