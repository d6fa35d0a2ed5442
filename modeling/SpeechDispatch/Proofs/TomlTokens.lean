import SpeechDispatch.Proofs.TextCuts
import SpeechDispatch.Proofs.TomlText
import SpeechDispatch.Toml.Statement

/-!
# The tokens of a written text

`Writes` says which text stands for which tokens, one constructor for each kind of token, with what may follow it.  A
text that stands for tokens is cut into them (`tokens?_of_writes`).
-/

namespace SpeechDispatch.Toml

/-- Texts that stand for tokens.  A word ends at a mark, a quoted text before anything but a quote, and of blanks
there is one at a time. -/
inductive Writes : List Token → List Char → Prop
  | nil : Writes [] []
  | word {chars text : List Char} {tokens : List Token} (hne : chars ≠ [])
      (hchars : ∀ c ∈ chars, isBareKeyChar c = true) (hnext : ∀ c, text.head? = some c → endsWord c = true)
      (h : Writes tokens text) : Writes (.word chars :: tokens) (chars ++ text)
  | text (chars : List Char) {text : List Char} {tokens : List Token} (hdouble : text.head? ≠ some '"')
      (hsingle : text.head? ≠ some '\'') (h : Writes tokens text) :
      Writes (.text chars (quotesFor chars).overLines :: tokens) (quotedChars chars ++ text)
  | mark {c : Char} {token : Token} {text : List Char} {tokens : List Token} (hmark : mark? c = some token)
      (h : Writes tokens text) : Writes (token :: tokens) (c :: text)
  | blank {text : List Char} {tokens : List Token} (hnext : ∀ c, text.head? = some c → isBlank c = false)
      (h : Writes tokens text) : Writes (.blank :: tokens) (' ' :: text)

/-! ### One token -/

theorem tokensFrom_of_splitToken {input rest : List Char} {token : Token} {tokens : List Token}
    (h : splitToken input = some (some token, rest)) (hrest : tokensFrom rest = some tokens) :
    tokensFrom input = some (token :: tokens) := by
  cases input with
  | nil => cases h
  | cons c input =>
    rw [tokensFrom]
    split
    · rename_i hnone
      rw [h] at hnone
      cases hnone
    · rename_i hsome
      rw [h] at hsome
      cases hsome
      rw [hrest]
      rfl

/-- The characters of words are none that have a meaning of their own. -/
theorem ne_of_isBareKeyChar {c d : Char} (hc : isBareKeyChar c = true) (hd : isBareKeyChar d = false) : c ≠ d := by
  rintro rfl
  rw [hc] at hd
  cases hd

theorem endsWord_of_isBareKeyChar {c : Char} (h : isBareKeyChar c = true) : endsWord c = false := by
  have hall : [' ', '\t', '\n', '#', '.', '=', ',', '[', ']', '\x7b', '\x7d', '"', '\''].all (!isBareKeyChar ·) = true := by
    decide
  unfold endsWord
  rw [Bool.eq_false_iff, ne_eq, List.contains_iff_mem]
  intro hmem
  have hc := List.all_eq_true.1 hall c hmem
  rw [h] at hc
  cases hc

theorem mark?_of_isBareKeyChar {c : Char} (h : isBareKeyChar c = true) : mark? c = none := by
  have hmarks : ['\n', '.', '=', ',', '[', ']', '\x7b', '\x7d'].all (!isBareKeyChar ·) = true := by decide
  unfold mark?
  rw [List.lookup_eq_none_iff]
  intro p hp
  have hfirst := List.mem_map_of_mem (f := Prod.fst) hp
  have hd := List.all_eq_true.1 hmarks _ hfirst
  rw [Bool.not_eq_true'] at hd
  exact bne_iff_ne.2 (ne_of_isBareKeyChar h hd)

theorem ne_of_mark? {c d : Char} {token : Token} (hmark : mark? c = some token) (hd : mark? d = none) : c ≠ d := by
  rintro rfl
  rw [hd] at hmark
  cases hmark

theorem isBlank_iff {c : Char} : isBlank c = true ↔ c = ' ' ∨ c = '\t' := by
  simp [isBlank]

theorem splitToken_word {chars text : List Char} (hne : chars ≠ []) (hchars : ∀ c ∈ chars, isBareKeyChar c = true)
    (hnext : ∀ c, text.head? = some c → endsWord c = true) :
    splitToken (chars ++ text) = some (some (.word chars), text) := by
  cases chars with
  | nil => exact absurd rfl hne
  | cons c chars =>
    have hc := hchars c (List.mem_cons_self ..)
    have hpass : ∀ d ∈ chars, (!endsWord d) = true := by
      intro d hd
      rw [endsWord_of_isBareKeyChar (hchars d (List.mem_cons_of_mem _ hd))]
      rfl
    have hstop : ∀ d, text.head? = some d → (!endsWord d) = false := by
      intro d hd
      rw [hnext d hd]
      rfl
    have hblank : ¬isBlank c = true := by
      rw [isBlank_iff]
      rintro (rfl | rfl) <;> cases hc
    have hquote : ¬(c = '"' ∨ c = '\'') := by
      rintro (rfl | rfl) <;> cases hc
    have hcomment : c ≠ '#' := ne_of_isBareKeyChar hc (by decide)
    rw [List.cons_append, splitToken, if_neg hblank, if_neg hcomment, if_neg hquote, mark?_of_isBareKeyChar hc]
    dsimp only
    rw [takeWhile_append_of_head hstop, dropWhile_append_of_head hstop, List.takeWhile_eq_self_iff.2 hpass,
      List.dropWhile_eq_nil_iff.2 hpass, List.nil_append]

theorem splitToken_text (chars : List Char) {text : List Char} (hdouble : text.head? ≠ some '"')
    (hsingle : text.head? ≠ some '\'') :
    splitToken (quotedChars chars ++ text) = some (some (.text chars (quotesFor chars).overLines), text) := by
  have hread := splitText_quotedChars chars hdouble hsingle
  obtain ⟨c, rest, hquoted, hc⟩ : ∃ c rest, quotedChars chars = c :: rest ∧ (c = '"' ∨ c = '\'') := by
    rw [quotedChars_eq]
    cases quotesFor chars
    · exact ⟨_, _, rfl, .inl rfl⟩
    · exact ⟨_, _, rfl, .inr rfl⟩
    · exact ⟨_, _, rfl, .inl rfl⟩
    · exact ⟨_, _, rfl, .inr rfl⟩
  have hblank : ¬isBlank c = true := by
    rw [isBlank_iff]
    obtain rfl | rfl := hc <;> decide
  have hcomment : c ≠ '#' := by
    obtain rfl | rfl := hc <;> decide
  rw [hquoted, List.cons_append] at hread ⊢
  rw [splitToken, if_neg hblank, if_neg hcomment, if_pos hc, hread]
  rfl

theorem splitToken_mark {c : Char} {token : Token} (hmark : mark? c = some token) (text : List Char) :
    splitToken (c :: text) = some (some token, text) := by
  have hblank : ¬isBlank c = true := by
    rw [isBlank_iff, not_or]
    exact ⟨ne_of_mark? hmark rfl, ne_of_mark? hmark rfl⟩
  have hquote : ¬(c = '"' ∨ c = '\'') := not_or.2 ⟨ne_of_mark? hmark rfl, ne_of_mark? hmark rfl⟩
  rw [splitToken, if_neg hblank, if_neg (ne_of_mark? hmark rfl), if_neg hquote, hmark]

theorem splitToken_blank {text : List Char} (hnext : ∀ c, text.head? = some c → isBlank c = false) :
    splitToken (' ' :: text) = some (some .blank, text) := by
  have hrest : text.dropWhile isBlank = text := by
    cases text with
    | nil => rfl
    | cons c text => exact List.dropWhile_cons_of_neg (by rw [hnext c rfl]; decide)
  rw [splitToken, if_pos (by decide), hrest]

/-! ### All tokens -/

theorem tokensFrom_of_writes {tokens : List Token} {text : List Char} (h : Writes tokens text) :
    tokensFrom text = some tokens := by
  induction h with
  | nil => rw [tokensFrom]
  | word hne hchars hnext _ ih => exact tokensFrom_of_splitToken (splitToken_word hne hchars hnext) ih
  | text chars hdouble hsingle _ ih => exact tokensFrom_of_splitToken (splitToken_text chars hdouble hsingle) ih
  | mark hmark _ ih => exact tokensFrom_of_splitToken (splitToken_mark hmark _) ih
  | blank hnext _ ih => exact tokensFrom_of_splitToken (splitToken_blank hnext) ih

theorem return_notMem_of_writes {tokens : List Token} {text : List Char} (h : Writes tokens text) : '\r' ∉ text := by
  induction h with
  | nil => exact List.not_mem_nil
  | word _ hchars _ _ ih =>
    rw [List.mem_append, not_or]
    exact ⟨fun hmem => absurd (hchars _ hmem) (by decide), ih⟩
  | text chars _ _ _ ih =>
    rw [List.mem_append, not_or]
    exact ⟨return_notMem_quotedChars chars, ih⟩
  | mark hmark _ ih =>
    rw [List.mem_cons, not_or]
    exact ⟨(ne_of_mark? hmark rfl).symm, ih⟩
  | blank _ _ ih =>
    rw [List.mem_cons, not_or]
    exact ⟨by decide, ih⟩

theorem head_ne_of_writes {tokens : List Token} {text : List Char} (h : Writes tokens text) :
    text.head? ≠ some '\ufeff' := by
  cases h with
  | nil => exact nofun
  | @word chars _ _ hne hchars =>
    cases chars with
    | nil => exact absurd rfl hne
    | cons c chars =>
      intro hhead
      rw [List.cons_append, List.head?_cons] at hhead
      exact ne_of_isBareKeyChar (hchars c (List.mem_cons_self ..)) (by decide) (Option.some.inj hhead)
  | text chars =>
    rw [quotedChars_eq]
    cases quotesFor chars <;> exact fun hhead => absurd (Option.some.inj hhead) (by decide)
  | mark hmark => exact fun hhead => ne_of_mark? hmark rfl (Option.some.inj hhead)
  | blank => exact fun hhead => absurd (Option.some.inj hhead) (by decide)

theorem lineFeedsOnly?_of_notMem {text : List Char} (h : '\r' ∉ text) : lineFeedsOnly? text = some text := by
  induction text with
  | nil => rfl
  | cons c text ih =>
    rw [List.mem_cons, not_or] at h
    rw [lineFeedsOnly?, if_neg (Ne.symm h.1), ih h.2]
    · rfl
    · exact fun _ hreturn => absurd hreturn (Ne.symm h.1)

/-- A text that stands for tokens is cut into these. -/
theorem tokens?_of_writes {tokens : List Token} {text : String} (h : Writes tokens text.toList) :
    tokens? text = some tokens := by
  have hmark := head_ne_of_writes h
  unfold tokens?
  split
  · rename_i hhead
    rw [hhead] at hmark
    exact absurd rfl hmark
  · rw [lineFeedsOnly?_of_notMem (return_notMem_of_writes h)]
    exact tokensFrom_of_writes h

end SpeechDispatch.Toml
