import SpeechDispatch.Json.Text
import SpeechDispatch.Proofs.JsonGrammar

/-!
# JSON texts are read as they were written

A character is written between quotes as itself, all of whose bytes are plain, or as an escape (`written_cases`).  The
grammar allows both (`isInside_inside`), and both are resolved to the character, so what stands between the quotes is
resolved to the text that was written (`resolve?_inside`).
-/

namespace SpeechDispatch

/-! ### Bytes of texts -/

namespace Bytes

theorem ofText_append (a b : String) : ofText (a ++ b) = ofText a ++ ofText b := by
  simp only [ofText, String.toUTF8_eq_toByteArray, String.toByteArray_append, ByteArray.toList_data_append]

theorem ofText_ofList (chars : List Char) : ofText (String.ofList chars) = chars.flatMap String.utf8EncodeChar := by
  simp only [ofText, String.toUTF8_eq_toByteArray, String.toByteArray_ofList, List.utf8Encode,
    List.toList_data_toByteArray]

theorem ofText_toString (c : Char) : ofText c.toString = String.utf8EncodeChar c := by
  rw [Char.toString, String.singleton_eq_ofList, ofText_ofList, List.flatMap_singleton]

theorem ofText_join (texts : List String) : ofText (String.join texts) = texts.flatMap ofText := by
  induction texts with
  | nil => rfl
  | cons text rest ih => rw [String.join_cons, ofText_append, ih, List.flatMap_cons]

theorem ofText_eq_flatMap (text : String) : ofText text = text.toList.flatMap fun c => ofText c.toString := by
  obtain ⟨chars, rfl⟩ := text.exists_eq_ofList
  simp only [ofText_ofList, ofText_toString, String.toList_ofList]

/-- One of the first 128 characters is one byte; all bytes of the others are beyond them. -/
theorem mem_ofText_toString {c : Char} {b : UInt8} (h : b ∈ ofText c.toString) :
    b.toNat = c.toNat ∨ 0x80 ≤ b.toNat := by
  have hhigh : ∀ x y : UInt8, 0x80 ≤ y.toNat → 0x80 ≤ (x ||| y).toNat := by
    intro x y hy
    rw [UInt8.toNat_or]
    exact Nat.le_trans hy Nat.right_le_or
  rw [ofText_toString] at h
  rcases c.utf8Size_eq with hsize | hsize | hsize | hsize
  · rw [String.utf8EncodeChar_eq_singleton hsize, List.mem_singleton] at h
    have hc : c.toNat ≤ 127 := UInt32.le_iff_toNat_le.1 (Char.utf8Size_eq_one_iff.1 hsize)
    left
    rw [h, UInt32.toNat_toUInt8]
    exact Nat.mod_eq_of_lt (Nat.lt_of_le_of_lt hc (by decide))
  all_goals right
  · rw [String.utf8EncodeChar_eq_cons_cons hsize, List.mem_cons, List.mem_singleton] at h
    rcases h with rfl | rfl <;> exact hhigh _ _ (by decide)
  · rw [String.utf8EncodeChar_eq_cons_cons_cons hsize, List.mem_cons, List.mem_cons, List.mem_singleton] at h
    rcases h with rfl | rfl | rfl <;> exact hhigh _ _ (by decide)
  · rw [String.utf8EncodeChar_eq_cons_cons_cons_cons hsize, List.mem_cons, List.mem_cons, List.mem_cons,
      List.mem_singleton] at h
    rcases h with rfl | rfl | rfl | rfl <;> exact hhigh _ _ (by decide)

end Bytes

namespace Json

namespace Text

/-- An escape, and the character for which it stands. -/
inductive IsEscape : Bytes → Char → Prop
  | letter {e c} (he : isEscapeLetter e = true) (hc : Bytes.ofText c.toString = [unescaped e]) :
    IsEscape [backslash, e] c
  | unit {h1 h2 h3 h4 c} (hhex : (isHexDigit h1 && isHexDigit h2 && isHexDigit h3 && isHexDigit h4) = true)
    (hunit : codeUnit h1 h2 h3 h4 = c.toNat) (hlow : c.toNat < 0xd800) : IsEscape [backslash, 0x75, h1, h2, h3, h4] c

/-! ### What is resolved -/

theorem resolveAfter_plain {bytes : Bytes} (h : ∀ b ∈ bytes, IsPlain b) (seen tail : Bytes) :
    resolveAfter seen (bytes ++ tail) = resolveAfter (bytes.reverse ++ seen) tail := by
  induction bytes generalizing seen with
  | nil => rfl
  | cons b rest ih =>
    obtain ⟨⟨-, hbackslash, -⟩, hrest⟩ := List.forall_mem_cons.1 h
    have hstep : resolveAfter seen (b :: (rest ++ tail)) = resolveAfter (b :: seen) (rest ++ tail) := by
      rw [resolveAfter.eq_def]
      simp only [beq_iff_eq, hbackslash, if_false]
    rw [List.cons_append, hstep, ih hrest, List.reverse_cons, List.append_assoc]
    rfl

theorem resolveAfter_escape {raw : Bytes} {c : Char} (h : IsEscape raw c) (seen tail : Bytes) :
    resolveAfter seen (raw ++ tail) = resolveAfter ((Bytes.ofText c.toString).reverse ++ seen) tail := by
  cases h with
  | @letter e _ he hc =>
    rw [hc]
    change resolveAfter seen (backslash :: e :: tail) = resolveAfter (unescaped e :: seen) tail
    rw [resolveAfter.eq_def]
    simp only [beq_self_eq_true, if_true]
    split
    · rename_i heq
      exact absurd (List.cons.inj heq).1 (ne_u_of_isEscapeLetter he)
    · rename_i heq
      obtain ⟨rfl, rfl⟩ := List.cons.inj heq
      rfl
    · rename_i heq
      cases heq
  | @unit h1 h2 h3 h4 _ hhex hunit hlow =>
    have hleading : isLeading c.toNat = false := by
      rw [isLeading, Bool.and_eq_false_imp, decide_eq_true_iff]
      omega
    have htrailing : isTrailing c.toNat = false := by
      rw [isTrailing, Bool.and_eq_false_imp, decide_eq_true_iff]
      omega
    change resolveAfter seen (backslash :: 0x75 :: h1 :: h2 :: h3 :: h4 :: tail) = _
    rw [resolveAfter.eq_def]
    simp only [beq_self_eq_true, if_true, hunit, hleading, htrailing, Bool.false_eq_true, if_false, encoded,
      Char.ofNat_toNat]

/-! ### What is written -/

/-- Whether bytes are an escape for the character of a number. -/
private def isEscapeFor (n : Nat) : Bytes → Bool
  | [b, e] => b == backslash && isEscapeLetter e && (Bytes.ofText (Char.ofNat n).toString == [unescaped e])
  | [b, u, h1, h2, h3, h4] => b == backslash && u == 0x75 &&
      (isHexDigit h1 && isHexDigit h2 && isHexDigit h3 && isHexDigit h4) && codeUnit h1 h2 h3 h4 == n
  | _ => false

private theorem isEscape_of_isEscapeFor {raw : Bytes} {c : Char} (hlow : c.toNat < 0xd800)
    (h : isEscapeFor c.toNat raw = true) : IsEscape raw c := by
  unfold isEscapeFor at h
  split at h
  · simp only [Bool.and_eq_true, beq_iff_eq, Char.ofNat_toNat] at h
    obtain ⟨⟨rfl, he⟩, hc⟩ := h
    exact .letter he hc
  · rw [Bool.and_eq_true, Bool.and_eq_true, Bool.and_eq_true, beq_iff_eq, beq_iff_eq, beq_iff_eq] at h
    obtain ⟨⟨⟨rfl, rfl⟩, hhex⟩, hunit⟩ := h
    exact .unit hhex hunit hlow
  · cases h

/-- Control characters are written as escapes. -/
private theorem isEscapeFor_control :
    ∀ n < 0x20, isEscapeFor n (Bytes.ofText (written (Char.ofNat n))) = true := by decide

private theorem isEscapeFor_quote : isEscapeFor '"'.toNat (Bytes.ofText (written '"')) = true := rfl

private theorem isEscapeFor_backslash : isEscapeFor '\\'.toNat (Bytes.ofText (written '\\')) = true := rfl

/-- A character is written as itself, and then all its bytes are plain, or as an escape. -/
theorem written_cases (c : Char) :
    (written c = c.toString ∧ ∀ b ∈ Bytes.ofText c.toString, IsPlain b) ∨ IsEscape (Bytes.ofText (written c)) c := by
  by_cases hcontrol : c.toNat < 0x20
  · have hescape := isEscapeFor_control c.toNat hcontrol
    rw [Char.ofNat_toNat] at hescape
    exact .inr (isEscape_of_isEscapeFor (by omega) hescape)
  by_cases hquote : c = '"'
  · subst hquote
    exact .inr (isEscape_of_isEscapeFor (by decide) isEscapeFor_quote)
  by_cases hbackslash : c = '\\'
  · subst hbackslash
    exact .inr (isEscape_of_isEscapeFor (by decide) isEscapeFor_backslash)
  left
  constructor
  · unfold written
    split
    case h_1 | h_2 => contradiction
    case h_8 => rw [if_neg (by omega), if_neg hcontrol]
    all_goals exact absurd (by decide) hcontrol
  · intro b hb
    -- a byte below 0x80 is the character itself
    have hsame : b.toNat < 0x80 → c = Char.ofNat b.toNat := by
      intro hlow
      rcases Bytes.mem_ofText_toString hb with h | h
      · rw [h, Char.ofNat_toNat]
      · omega
    refine ⟨?_, ?_, ?_⟩
    · rintro rfl
      exact hquote (hsame (by decide))
    · rintro rfl
      exact hbackslash (hsame (by decide))
    · intro hlow
      rw [UInt8.lt_iff_toNat_lt] at hlow
      rcases Bytes.mem_ofText_toString hb with h | h
      · exact hcontrol (h ▸ hlow)
      · exact absurd (Nat.lt_of_lt_of_le hlow (by decide)) (Nat.not_lt.2 h)

/-- What stands between the quotes of a written text. -/
def inside (text : String) : Bytes := text.toList.flatMap fun c => Bytes.ofText (written c)

theorem ofText_quoted (text : String) : Bytes.ofText (quoted text) = quote :: (inside text ++ [quote]) := by
  rw [quoted, Bytes.ofText_append, Bytes.ofText_append, Bytes.ofText_join, List.flatMap_map]
  rfl

/-- The grammar allows between quotes what is written there. -/
theorem isInside_inside (text : String) : IsInside (inside text) := by
  have hplain : ∀ {bytes rest}, (∀ b ∈ bytes, IsPlain b) → IsInside rest → IsInside (bytes ++ rest) := by
    intro bytes rest hbytes hrest
    induction bytes with
    | nil => exact hrest
    | cons b bytes ih =>
      obtain ⟨hb, hbytes⟩ := List.forall_mem_cons.1 hbytes
      exact .plain hb (ih hbytes)
  rw [inside]
  induction text.toList with
  | nil => exact .nil
  | cons c rest ih =>
    rw [List.flatMap_cons]
    rcases written_cases c with ⟨hsame, hbytes⟩ | hescape
    · rw [hsame]
      exact hplain hbytes ih
    · generalize Bytes.ofText (written c) = raw at hescape
      cases hescape with
      | letter he => exact .letter he ih
      | unit hhex => exact .unit hhex ih

theorem resolveAfter_written (c : Char) (seen tail : Bytes) :
    resolveAfter seen (Bytes.ofText (written c) ++ tail) =
      resolveAfter ((Bytes.ofText c.toString).reverse ++ seen) tail := by
  rcases written_cases c with ⟨hsame, hplain⟩ | hescape
  · rw [hsame]
    exact resolveAfter_plain hplain seen tail
  · exact resolveAfter_escape hescape seen tail

/-- What was written is read. -/
theorem resolve?_inside (text : String) : resolve? (inside text) = some text := by
  have hpass : ∀ (chars : List Char) (seen : Bytes),
      resolveAfter seen (chars.flatMap fun c => Bytes.ofText (written c)) =
        some (seen.reverse ++ chars.flatMap fun c => Bytes.ofText c.toString) := by
    intro chars
    induction chars with
    | nil =>
      intro seen
      rw [List.flatMap_nil, resolveAfter, List.flatMap_nil, List.append_nil]
    | cons c rest ih =>
      intro seen
      rw [List.flatMap_cons, resolveAfter_written, ih, List.reverse_append, List.reverse_reverse, List.append_assoc,
        List.flatMap_cons]
  rw [resolve?, inside, hpass, List.reverse_nil, List.nil_append, ← Bytes.ofText_eq_flatMap]
  exact Bytes.toText?_ofText text

end Text

end Json

end SpeechDispatch
