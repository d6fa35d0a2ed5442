import SpeechDispatch.Proofs.TextCuts
import SpeechDispatch.Url.Basic

/-!
# How the text of a URL is read

A URL is cleaned first (`Url.cleaned_append_mark` takes it apart at any character that stays), then its scheme is cut
off (`Url.splitScheme_eq_some_iff`), which is the scheme of the URL whatever follows (`Url.splitScheme_of_parse?`).  The
rest of a URL of the web is an authority and what stands behind it (`Url.parse?_of_splitScheme`,
`Url.withAuthority?_eq`).
-/

namespace SpeechDispatch.Url

/-! ### Cleaning -/

/-- The blanks and controls that count for nothing around a URL. -/
def isEdge (c : Char) : Bool := c.toNat ≤ 0x20

/-- All but tabs and line ends. -/
def isKept (c : Char) : Bool := c != '\t' && c != '\n' && c != '\r'

theorem cleaned_eq (text : String) : cleaned text = ((text.toList.dropWhile isEdge).rdropWhile isEdge).filter isKept :=
  rfl

theorem isKept_of_not_isEdge {c : Char} (h : isEdge c = false) : isKept c = true := by
  unfold isKept
  simp only [Bool.and_eq_true, bne_iff_ne]
  refine ⟨⟨?_, ?_⟩, ?_⟩ <;> rintro rfl <;> exact absurd h (by decide)

/-- At a character that stays a URL can be cleaned in two parts. -/
theorem cleaned_append_mark {text : String} {front back : List Char} {mark : Char} (hmark : isEdge mark = false)
    (htext : text.toList = front ++ mark :: back) :
    cleaned text = (front.dropWhile isEdge).filter isKept ++ mark :: (back.rdropWhile isEdge).filter isKept := by
  rw [cleaned_eq, htext, dropWhile_append_mark hmark, rdropWhile_append_mark hmark, List.filter_append,
    List.filter_cons_of_pos (isKept_of_not_isEdge hmark)]

/-! ### The scheme -/

/-- The characters of a scheme. -/
def isSchemeChar (c : Char) : Bool := c.isAlphanum || c == '+' || c == '-' || c == '.'

theorem splitScheme_eq (input : List Char) :
    splitScheme input =
      match input.dropWhile isSchemeChar with
      | ':' :: rest =>
        match input.takeWhile isSchemeChar with
        | c :: scheme => if c.isAlpha then some (String.ofList ((c :: scheme).map Char.toLower), rest) else none
        | [] => none
      | _ => none := rfl

/-- A scheme goes up to the first colon. -/
theorem splitScheme_append {c : Char} {name : List Char} (halpha : c.isAlpha = true)
    (hname : ∀ d ∈ c :: name, isSchemeChar d = true) (rest : List Char) :
    splitScheme (c :: name ++ ':' :: rest) = some (String.ofList ((c :: name).map Char.toLower), rest) := by
  have hcolon : isSchemeChar ':' = false := by decide
  rw [splitScheme_eq, takeWhile_append_mark hcolon, dropWhile_append_mark hcolon, List.dropWhile_eq_nil_iff.2 hname,
    List.takeWhile_eq_self_iff.2 hname, List.nil_append]
  simp only [halpha, if_true]

theorem splitScheme_eq_some_iff {input rest : List Char} {scheme : String} :
    splitScheme input = some (scheme, rest) ↔
      ∃ c name, input = c :: name ++ ':' :: rest ∧ (∀ d ∈ c :: name, isSchemeChar d = true) ∧ c.isAlpha = true ∧
        scheme = String.ofList ((c :: name).map Char.toLower) := by
  constructor
  · intro h
    have hcut := List.takeWhile_append_dropWhile (p := isSchemeChar) (l := input)
    have hname : ∀ d ∈ input.takeWhile isSchemeChar, isSchemeChar d = true := fun d hd => List.mem_takeWhile_imp hd
    rw [splitScheme_eq] at h
    split at h
    · rename_i after hdrop
      split at h
      · rename_i c name htake
        rw [htake, hdrop] at hcut
        rw [htake] at hname
        split at h
        · rename_i halpha
          obtain ⟨rfl, rfl⟩ := Prod.mk.inj (Option.some.inj h)
          exact ⟨c, name, hcut.symm, hname, halpha, rfl⟩
        · cases h
      · cases h
    · cases h
  · rintro ⟨c, name, rfl, hname, halpha, rfl⟩
    exact splitScheme_append halpha hname rest

/-! ### What follows the scheme -/

/-- The characters that separate the parts of a path. -/
def isSlash (c : Char) : Bool := c == '/' || c == '\\'

/-- The characters that end an authority. -/
def endsAuthority (special : Bool) (c : Char) : Bool := c == '/' || c == '?' || c == '#' || (special && c == '\\')

/-- The characters that end a path. -/
def endsPath (c : Char) : Bool := c == '?' || c == '#'

/-- The URL of a scheme, given host and port and what follows the authority. -/
def afterAuthority (scheme : String) (rest : List Char) (place : Option Host × Option Nat) : Url where
  scheme
  host := place.1
  port := if place.2 = defaultPort scheme then none else place.2
  path := pathAfterAuthority (isSpecialScheme scheme) (rest.takeWhile (!endsPath ·))
  query := queryOf (isSpecialScheme scheme) (rest.dropWhile (!endsPath ·))

theorem withAuthority?_eq (scheme : String) (input : List Char) :
    withAuthority? scheme input =
      (authority? (isSpecialScheme scheme) (!(input.dropWhile (!endsAuthority (isSpecialScheme scheme) ·)).isEmpty)
        (input.takeWhile (!endsAuthority (isSpecialScheme scheme) ·))).map
          (afterAuthority scheme (input.dropWhile (!endsAuthority (isSpecialScheme scheme) ·))) := by
  rw [Option.map_eq_bind]
  rfl

theorem authority?_eq (followed : Bool) (authority : List Char) :
    authority? true followed authority = authority? true true authority := by
  unfold authority?
  simp only [Bool.true_or, if_true]

/-- A URL of the web needs a host. -/
theorem withAuthority?_nil {scheme : String} (h : isSpecialScheme scheme = true) : withAuthority? scheme [] = none := by
  rw [withAuthority?_eq, h]
  rfl

/-- The slashes between scheme and host count for nothing in a URL of the web. -/
theorem parse?_of_splitScheme {text scheme : String} {rest : List Char}
    (h : splitScheme (cleaned text) = some (scheme, rest)) (hspecial : isSpecialScheme scheme = true) :
    parse? text = withAuthority? scheme (rest.dropWhile isSlash) := by
  have hfile : scheme ≠ "file" := by
    rintro rfl
    exact absurd hspecial (by decide)
  unfold parse?
  rw [h]
  simp only [Option.bind_eq_bind, Option.bind_some, if_neg hfile, if_pos hspecial]
  rfl

theorem scheme_withAuthority? {scheme : String} {input : List Char} {u : Url}
    (h : withAuthority? scheme input = some u) : u.scheme = scheme := by
  rw [withAuthority?_eq] at h
  obtain ⟨parts, -, rfl⟩ := Option.map_eq_some_iff.1 h
  rfl

theorem scheme_fileUrl? {input : List Char} {u : Url} (h : fileUrl? input = some u) : u.scheme = "file" := by
  unfold fileUrl? at h
  simp only [Option.bind_eq_bind, Option.pure_def] at h
  split at h
  · split at h
    · split at h
      · cases h
        rfl
      · obtain ⟨host, -, hurl⟩ := Option.bind_eq_some_iff.1 h
        cases hurl
        rfl
    · cases h
      rfl
  · cases h
    rfl

/-- The scheme of a URL is the one that is cut off. -/
theorem splitScheme_of_parse? {text : String} {u : Url} (h : parse? text = some u) :
    ∃ rest, splitScheme (cleaned text) = some (u.scheme, rest) := by
  unfold parse? at h
  cases hsplit : splitScheme (cleaned text) with
  | none =>
    rw [hsplit] at h
    cases h
  | some cut =>
    obtain ⟨scheme, rest⟩ := cut
    refine ⟨rest, ?_⟩
    rw [hsplit] at h
    simp only [Option.bind_eq_bind, Option.bind_some] at h
    split at h
    · rename_i hfile
      rw [scheme_fileUrl? h, hfile]
    · split at h
      · rw [scheme_withAuthority? h]
      · split at h
        · rw [scheme_withAuthority? h]
        · cases h
          rfl

end SpeechDispatch.Url
