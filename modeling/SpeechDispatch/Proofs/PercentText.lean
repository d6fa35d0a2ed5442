import SpeechDispatch.Proofs.JsonText
import SpeechDispatch.Url.Percent

/-!
# Percent encoding in paths

A path keeps the percent sign and all digits as they are, so its escapes are those of the text it was made from, and it
is decoded to the same bytes as this text (`percentDecode_percentEncode`).  Each escape stands for less bytes than it is
written with: a text is decoded to itself if and only if it has none (`percentDecode_eq_ofText_iff`).
-/

namespace SpeechDispatch

/-! ### Bytes of texts that are part of others -/

namespace Bytes

/-- The number of bytes of a text. -/
def size (text : List Char) : Nat := (ofText (String.ofList text)).length

theorem ofText_cons (c : Char) (text : List Char) :
    ofText (String.ofList (c :: text)) = ofText c.toString ++ ofText (String.ofList text) := by
  rw [ofText_ofList, ofText_ofList, ofText_toString, List.flatMap_cons]

theorem size_cons (c : Char) (text : List Char) : size (c :: text) = c.utf8Size + size text := by
  rw [size, ofText_cons, List.length_append, ofText_toString, String.length_utf8EncodeChar]
  rfl

theorem size_le_of_sublist {part text : List Char} (h : part.Sublist text) : size part ≤ size text := by
  induction h with
  | slnil => exact Nat.le_refl _
  | cons c _ ih => rw [size_cons]; omega
  | cons_cons c _ ih => rw [size_cons, size_cons]; omega

/-- A part of a text that is as long is all of it. -/
theorem eq_of_sublist_of_size_le {part text : List Char} (h : part.Sublist text) (hsize : size text ≤ size part) :
    part = text := by
  induction h with
  | slnil => rfl
  | @cons part text c hpart ih =>
    have hle := size_le_of_sublist hpart
    have hpos := c.utf8Size_pos
    rw [size_cons] at hsize
    omega
  | cons_cons c _ ih =>
    rw [size_cons, size_cons] at hsize
    rw [ih (by omega)]

end Bytes

namespace Url

/-! ### Escapes -/

/-- Whether a text begins with two hexadecimal digits. -/
def startsHex : List Char → Bool
  | a :: b :: _ => (Net.hexValue? a).isSome && (Net.hexValue? b).isSome
  | _ => false

/-- Whether a text has a percent sign with two hexadecimal digits after it. -/
def hasEscape : List Char → Bool
  | [] => false
  | c :: rest => (c == '%' && startsHex rest) || hasEscape rest

theorem exists_of_startsHex {text : List Char} (h : startsHex text = true) :
    ∃ a b rest x y, text = a :: b :: rest ∧ Net.hexValue? a = some x ∧ Net.hexValue? b = some y := by
  match text, h with
  | a :: b :: rest, h =>
    obtain ⟨ha, hb⟩ := Bool.and_eq_true_iff.1 h
    obtain ⟨x, hx⟩ := Option.isSome_iff_exists.1 ha
    obtain ⟨y, hy⟩ := Option.isSome_iff_exists.1 hb
    exact ⟨a, b, rest, x, y, rfl, hx, hy⟩

theorem percentDecode_escape {a b : Char} {x y : Nat} (ha : Net.hexValue? a = some x) (hb : Net.hexValue? b = some y)
    (rest : List Char) : percentDecode ('%' :: a :: b :: rest) = (x * 16 + y).toUInt8 :: percentDecode rest := by
  rw [percentDecode]
  simp only [ha, hb]

/-- What begins no escape stands for itself. -/
theorem percentDecode_cons {c : Char} {rest : List Char} (h : c = '%' → startsHex rest = false) :
    percentDecode (c :: rest) = Bytes.ofText c.toString ++ percentDecode rest := by
  by_cases hc : c = '%'
  · subst hc
    match rest, h rfl with
    | [], _ => rfl
    | [_], _ => rfl
    | a :: b :: rest, h =>
      rw [percentDecode]
      cases ha : Net.hexValue? a with
      | none => rfl
      | some x =>
        cases hb : Net.hexValue? b with
        | none => rfl
        | some y => simp [startsHex, ha, hb] at h
  · rw [percentDecode]
    rintro a b rest rfl
    exact absurd rfl hc

/-- A text is made of escapes, and of characters that begin none. -/
@[elab_as_elim]
theorem escapeInduction {motive : List Char → Prop} (nil : motive [])
    (escape : ∀ a b rest x y, Net.hexValue? a = some x → Net.hexValue? b = some y → motive rest →
      motive ('%' :: a :: b :: rest))
    (plain : ∀ c rest, (c = '%' → startsHex rest = false) → motive rest → motive (c :: rest)) (text : List Char) :
    motive text := by
  induction text using percentDecode.induct with
  | case1 => exact nil
  | case2 a b rest x y hb ha ih => exact escape a b rest x y ha hb ih
  | case3 a b rest hnot ih =>
    refine plain '%' _ (fun _ => Bool.eq_false_iff.2 fun hhex => ?_) ih
    obtain ⟨a, b, rest, x, y, hcons, ha, hb⟩ := exists_of_startsHex hhex
    cases hcons
    exact hnot x y ha hb
  | case4 c rest hshort ih =>
    refine plain c rest (fun hc => Bool.eq_false_iff.2 fun hhex => ?_) ih
    obtain ⟨a, b, rest, x, y, rfl, -, -⟩ := exists_of_startsHex hhex
    exact hshort a b rest hc rfl

/-- Decoding makes a text shorter at each of its escapes, and nowhere else. -/
theorem length_percentDecode (text : List Char) :
    (percentDecode text).length ≤ Bytes.size text ∧
    ((percentDecode text).length = Bytes.size text ↔ hasEscape text = false) := by
  induction text using escapeInduction with
  | nil => exact ⟨Nat.le_refl _, iff_of_true rfl rfl⟩
  | escape a b rest x y ha hb ih =>
    have hescape : hasEscape ('%' :: a :: b :: rest) = true := by simp [hasEscape, startsHex, ha, hb]
    have hlt : (percentDecode ('%' :: a :: b :: rest)).length < Bytes.size ('%' :: a :: b :: rest) := by
      have hposA := a.utf8Size_pos
      have hposB := b.utf8Size_pos
      have hle := ih.1
      rw [percentDecode_escape ha hb, List.length_cons, Bytes.size_cons, Bytes.size_cons, Bytes.size_cons]
      omega
    exact ⟨Nat.le_of_lt hlt, iff_of_false (Nat.ne_of_lt hlt) (by simp [hescape])⟩
  | plain c rest hc ih =>
    have hhead : (c == '%' && startsHex rest) = false := by
      rw [Bool.and_eq_false_imp, beq_iff_eq]
      exact hc
    have hlength : (Bytes.ofText c.toString).length = c.utf8Size := by
      rw [Bytes.ofText_toString, String.length_utf8EncodeChar]
    rw [percentDecode_cons hc, List.length_append, hlength, Bytes.size_cons, hasEscape, hhead, Bool.false_or, ← ih.2]
    omega

/-- Only what has no escapes is decoded to itself. -/
theorem percentDecode_eq_ofText_iff (text : List Char) :
    percentDecode text = Bytes.ofText (String.ofList text) ↔ hasEscape text = false := by
  constructor
  · intro h
    rw [← (length_percentDecode text).2, h, Bytes.size]
  · induction text using escapeInduction with
    | nil => exact fun _ => rfl
    | escape a b rest x y ha hb => simp [hasEscape, startsHex, ha, hb]
    | plain c rest hc ih =>
      intro h
      rw [hasEscape, Bool.or_eq_false_iff] at h
      rw [percentDecode_cons hc, ih h.2, Bytes.ofText_cons]

/-! ### Encoding -/

/-- Whether a character is itself in a path. -/
def staysInPath (c : Char) : Bool := !(c.toNat < 0x20 || 0x7e < c.toNat || inPathSet c)

theorem percentEncode_cons_of_stays {c : Char} (h : staysInPath c = true) (rest : List Char) :
    percentEncode inPathSet (c :: rest) = c :: percentEncode inPathSet rest := by
  rw [staysInPath, Bool.not_eq_true'] at h
  rw [percentEncode, List.flatMap_cons, h]
  rfl

theorem percentEncode_cons_of_not_stays {c : Char} (h : staysInPath c = false) (rest : List Char) :
    percentEncode inPathSet (c :: rest) =
      (Bytes.ofText c.toString).flatMap percentByte ++ percentEncode inPathSet rest := by
  rw [staysInPath, Bool.not_eq_false'] at h
  rw [percentEncode, List.flatMap_cons, h]
  rfl

/-- Digits are themselves in a path. -/
theorem staysInPath_of_hexValue? {c : Char} {x : Nat} (h : Net.hexValue? c = some x) : staysInPath c = true := by
  have hset : inPathSet c = false := by
    refine Bool.eq_false_iff.2 fun hmem => ?_
    have hnone : [' ', '"', '<', '>', '`', '#', '?', '\x7b', '\x7d'].all (Net.hexValue? · == none) = true := by decide
    rw [inPathSet, List.contains_iff_mem] at hmem
    have hc : Net.hexValue? c = none := by simpa using List.all_eq_true.1 hnone c hmem
    exact nomatch h.symm.trans hc
  have hrange : 0x30 ≤ c.toNat ∧ c.toNat ≤ 0x66 := by
    unfold Net.hexValue? at h
    simp only [Char.isDigit, Char.le_def, Bool.and_eq_true, decide_eq_true_eq, ge_iff_le, UInt32.le_iff_toNat_le,
      Char.reduceVal, UInt32.reduceToNat] at h
    have hval : c.toNat = c.val.toNat := rfl
    split at h
    · omega
    · split at h
      · omega
      · split at h
        · omega
        · cases h
  simp only [staysInPath, hset, Bool.or_false, Bool.not_eq_true', Bool.or_eq_false_iff, decide_eq_false_iff_not]
  omega

theorem hexValue?_hexDigit {n : Nat} (h : n < 16) : Net.hexValue? (hexDigit n) = some n :=
  (by decide : ∀ n < 16, Net.hexValue? (hexDigit n) = some n) n h

theorem percentDecode_percentByte (b : UInt8) (rest : List Char) :
    percentDecode (percentByte b ++ rest) = b :: percentDecode rest := by
  have hb : b.toNat < 256 := b.toNat_lt
  have hhigh : Net.hexValue? (hexDigit (b.toNat / 16)) = some (b.toNat / 16) := hexValue?_hexDigit (by omega)
  have hlow : Net.hexValue? (hexDigit (b.toNat % 16)) = some (b.toNat % 16) := hexValue?_hexDigit (by omega)
  refine (percentDecode_escape hhigh hlow rest).trans ?_
  rw [Nat.div_add_mod']
  simp

theorem percentDecode_flatMap_percentByte (bytes : Bytes) (rest : List Char) :
    percentDecode (bytes.flatMap percentByte ++ rest) = bytes ++ percentDecode rest := by
  induction bytes with
  | nil => rfl
  | cons b bytes ih =>
    rw [List.flatMap_cons, List.append_assoc, percentDecode_percentByte, ih, List.cons_append]

/-- What is encoded begins with a percent sign. -/
theorem exists_percentEncode_of_not_stays {c : Char} (h : staysInPath c = false) (rest : List Char) :
    ∃ tail, percentEncode inPathSet (c :: rest) = '%' :: tail := by
  have hne : Bytes.ofText c.toString ≠ [] := by
    rw [← List.length_pos_iff, Bytes.ofText_toString, String.length_utf8EncodeChar]
    exact c.utf8Size_pos
  obtain ⟨b, bytes, hbytes⟩ := List.exists_cons_of_ne_nil hne
  rw [percentEncode_cons_of_not_stays h, hbytes]
  exact ⟨_, rfl⟩

/-- Encoding makes no two digits at the beginning of a text, and takes none away. -/
theorem startsHex_percentEncode (text : List Char) :
    startsHex (percentEncode inPathSet text) = startsHex text := by
  have hencoded : ∀ c, staysInPath c = false → Net.hexValue? c = none := by
    intro c hstays
    refine Option.eq_none_iff_forall_ne_some.2 fun x hx => ?_
    exact absurd (staysInPath_of_hexValue? hx) (by simp [hstays])
  have hpercent : (Net.hexValue? '%').isSome = false := by decide
  cases text with
  | nil => rfl
  | cons a text =>
    cases ha : staysInPath a with
    | false =>
      obtain ⟨tail, htail⟩ := exists_percentEncode_of_not_stays ha text
      rw [htail]
      cases tail <;> cases text <;> simp [startsHex, hencoded a ha, hpercent]
    | true =>
      rw [percentEncode_cons_of_stays ha]
      cases text with
      | nil => rfl
      | cons b text =>
        cases hb : staysInPath b with
        | false =>
          obtain ⟨tail, htail⟩ := exists_percentEncode_of_not_stays hb text
          simp [htail, startsHex, hencoded b hb, hpercent]
        | true =>
          rw [percentEncode_cons_of_stays hb]
          rfl

/-- A path is decoded to what the text that it was made from is decoded to. -/
theorem percentDecode_percentEncode (text : List Char) :
    percentDecode (percentEncode inPathSet text) = percentDecode text := by
  induction text using escapeInduction with
  | nil => rfl
  | escape a b rest x y ha hb ih =>
    rw [percentEncode_cons_of_stays (by decide), percentEncode_cons_of_stays (staysInPath_of_hexValue? ha),
      percentEncode_cons_of_stays (staysInPath_of_hexValue? hb), percentDecode_escape ha hb,
      percentDecode_escape ha hb, ih]
  | plain c rest hc ih =>
    rw [percentDecode_cons hc]
    cases hstays : staysInPath c with
    | true =>
      rw [percentEncode_cons_of_stays hstays, percentDecode_cons, ih]
      rwa [startsHex_percentEncode]
    | false => rw [percentEncode_cons_of_not_stays hstays, percentDecode_flatMap_percentByte, ih]

/-- Encoding makes no slashes. -/
theorem slash_notMem_percentEncode {text : List Char} (h : '/' ∉ text) : '/' ∉ percentEncode inPathSet text := by
  have hbyte : ∀ b : UInt8, '/' ∉ percentByte b := by
    intro b
    have hdigit : ∀ n < 16, '/' ≠ hexDigit n := by decide
    have hb : b.toNat < 256 := b.toNat_lt
    simp only [percentByte, List.mem_cons, List.not_mem_nil, or_false, not_or]
    exact ⟨by decide, hdigit _ (by omega), hdigit _ (by omega)⟩
  intro hmem
  obtain ⟨c, hc, hslash⟩ := List.mem_flatMap.1 hmem
  split at hslash
  · obtain ⟨b, -, hb⟩ := List.mem_flatMap.1 hslash
    exact hbyte b hb
  · exact h (List.mem_singleton.1 hslash ▸ hc)

end Url

end SpeechDispatch
