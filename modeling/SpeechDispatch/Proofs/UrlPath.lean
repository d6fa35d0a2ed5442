import SpeechDispatch.Proofs.PercentText
import SpeechDispatch.Proofs.UrlText

/-!
# Paths of URLs

A path is resolved segment by segment, so what a text adds to a folder depends on the segments of the folder only
(`pathAfterAuthority_append`).  Slashes at the end of a path change nothing but such slashes
(`trimmed_pathAfterAuthority`), and the last segment of a path is the last one of its text, or empty
(`exists_splitOn_slashed`, `exists_resolveDots_singleton`).
-/

namespace SpeechDispatch

theorem Net.splitAt_eq (mark : Char) (text : List Char) : Net.splitAt mark text = text.splitOn mark := by
  induction text with
  | nil => rfl
  | cons c rest ih =>
    rw [Net.splitAt, ih, List.splitOn_cons_eq_if_modifyHead]
    by_cases hc : c = mark
    · simp [hc]
    · rw [if_neg hc, if_neg (by simpa using hc)]
      cases hrest : rest.splitOn mark with
      | nil => exact absurd hrest (List.splitOn_ne_nil mark rest)
      | cons part parts => rfl

namespace Url

/-- A path with its backslashes read as slashes. -/
def slashed (text : List Char) : List Char := text.map fun c => if c = '\\' then '/' else c

/-- The path that leads through some segments. -/
def joinSegments (segments : List (List Char)) : List Char :=
  segments.flatMap fun segment => '/' :: percentEncode inPathSet segment

/-- A path without slashes at its end. -/
def trimmed (path : List Char) : List Char := path.rdropWhile (· == '/')

theorem hierarchicalPath_eq (text : List Char) :
    hierarchicalPath true text = String.ofList (joinSegments (resolveDots [] ((slashed text).splitOn '/'))) := by
  rw [← Net.splitAt_eq]
  rfl

theorem joinSegments_append (front back : List (List Char)) :
    joinSegments (front ++ back) = joinSegments front ++ joinSegments back := List.flatMap_append

theorem trimmed_joinSegments_concat_nil (segments : List (List Char)) :
    trimmed (joinSegments (segments ++ [[]])) = trimmed (joinSegments segments) := by
  rw [joinSegments_append]
  exact List.rdropWhile_concat_pos _ _ _ rfl

/-! ### Resolving dots -/

/-- The segments passed, last first, after one more that others follow. -/
def passSegment (seen : List (List Char)) (segment : List Char) : List (List Char) :=
  if isDoubleDot segment then seen.tail else if isSingleDot segment then seen else segment :: seen

/-- Whether a segment stands for a place relative to it. -/
def isDots (segment : List Char) : Bool := isDoubleDot segment || isSingleDot segment

theorem resolveDots_cons {rest : List (List Char)} (h : rest ≠ []) (seen : List (List Char)) (segment : List Char) :
    resolveDots seen (segment :: rest) = resolveDots (passSegment seen segment) rest := by
  rw [resolveDots, passSegment]
  · split
    · rfl
    · split <;> rfl
  · exact h

theorem resolveDots_append {back : List (List Char)} (h : back ≠ []) (seen front : List (List Char)) :
    resolveDots seen (front ++ back) = resolveDots (front.foldl passSegment seen) back := by
  induction front generalizing seen with
  | nil => rfl
  | cons segment front ih => rw [List.cons_append, resolveDots_cons (by simp [h]), ih, List.foldl_cons]

theorem resolveDots_singleton (seen : List (List Char)) (last : List Char) :
    resolveDots seen [last] =
      if isDots last then (passSegment seen last).reverse ++ [[]] else (passSegment seen last).reverse := by
  rw [resolveDots, passSegment, isDots]
  cases isDoubleDot last <;> cases isSingleDot last <;> simp

theorem resolveDots_of_not_isDots {last : List Char} (h : isDots last = false) (seen : List (List Char)) :
    resolveDots seen [last] = seen.reverse ++ [last] := by
  obtain ⟨hdouble, hsingle⟩ := Bool.or_eq_false_iff.1 h
  simp [resolveDots_singleton, passSegment, h, hdouble, hsingle]

/-- What comes last is the last segment, or nothing if it is dots. -/
theorem exists_resolveDots_singleton (seen : List (List Char)) (last : List Char) :
    ∃ before, resolveDots seen [last] = before ++ [if isDots last then [] else last] := by
  cases hdots : isDots last with
  | true => exact ⟨_, by rw [resolveDots_singleton, if_pos hdots]; rfl⟩
  | false => exact ⟨_, resolveDots_of_not_isDots hdots seen⟩

/-- A last segment leads to where it leads when others follow. -/
theorem trimmed_resolveDots_singleton (seen : List (List Char)) (last : List Char) :
    trimmed (joinSegments (resolveDots seen [last])) = trimmed (joinSegments (passSegment seen last).reverse) := by
  rw [resolveDots_singleton]
  split
  · rw [trimmed_joinSegments_concat_nil]
  · rfl

theorem trimmed_resolveDots_slashes (count : Nat) (seen : List (List Char)) :
    trimmed (joinSegments (resolveDots seen ((List.replicate count '/').splitOn '/'))) =
      trimmed (joinSegments seen.reverse) := by
  have hempty : ∀ seen : List (List Char), passSegment seen [] = [] :: seen := fun _ => rfl
  induction count generalizing seen with
  | zero =>
    rw [List.replicate_zero, List.splitOn_nil, trimmed_resolveDots_singleton, hempty, List.reverse_cons,
      trimmed_joinSegments_concat_nil]
  | succ count ih =>
    rw [List.replicate_succ, ← List.nil_append ('/' :: _), List.splitOn_append_cons_self, List.splitOn_nil,
      List.singleton_append, resolveDots_cons (List.splitOn_ne_nil _ _), ih, hempty, List.reverse_cons,
      trimmed_joinSegments_concat_nil]

/-! ### Paths after an authority -/

/-- Whether a text can stand behind an authority: it is empty or begins with a slash. -/
def StartsPath (text : List Char) : Prop := ∀ c, text.head? = some c → isSlash c = true

/-- The segments of a path, as long as others follow. -/
def folderSegments : List Char → List (List Char)
  | [] => []
  | _ :: rest => (slashed rest).splitOn '/'

theorem pathAfterAuthority_cons {c : Char} (h : isSlash c = true) (rest : List Char) :
    pathAfterAuthority true (c :: rest) = hierarchicalPath true rest := by
  rw [pathAfterAuthority]
  exact if_pos (by simpa [isSlash] using h)

/-- What stands behind a folder is read from where the folder leads to. -/
theorem pathAfterAuthority_append {folder : List Char} (h : StartsPath folder) (text : List Char) :
    pathAfterAuthority true (folder ++ '/' :: text) =
      String.ofList (joinSegments
        (resolveDots ((folderSegments folder).foldl passSegment []) ((slashed text).splitOn '/'))) := by
  cases folder with
  | nil => rw [List.nil_append, pathAfterAuthority_cons rfl, hierarchicalPath_eq]; rfl
  | cons c rest =>
    have hslashed : slashed (rest ++ '/' :: text) = slashed rest ++ '/' :: slashed text := by simp [slashed]
    rw [List.cons_append, pathAfterAuthority_cons (h c rfl), hierarchicalPath_eq, hslashed,
      List.splitOn_append_cons_self, resolveDots_append (List.splitOn_ne_nil _ _)]
    rfl

/-- Slashes behind a folder lead to the folder. -/
theorem trimmed_pathAfterAuthority {folder : List Char} (h : StartsPath folder) (count : Nat) :
    trimmed (pathAfterAuthority true (folder ++ List.replicate count '/')).toList =
      trimmed (joinSegments ((folderSegments folder).foldl passSegment []).reverse) := by
  cases count with
  | succ count =>
    have hslashed : slashed (List.replicate count '/') = List.replicate count '/' := by simp [slashed]
    rw [List.replicate_succ, pathAfterAuthority_append h, String.toList_ofList, hslashed, trimmed_resolveDots_slashes]
  | zero =>
    rw [List.replicate_zero, List.append_nil]
    cases folder with
    | nil => decide
    | cons c rest =>
      rw [pathAfterAuthority_cons (h c rfl), hierarchicalPath_eq, String.toList_ofList, folderSegments]
      obtain ⟨front, last, hsplit⟩ := ((slashed rest).splitOn '/').eq_nil_or_concat.resolve_left
        (List.splitOn_ne_nil _ _)
      rw [hsplit, List.concat_eq_append, resolveDots_append (List.cons_ne_nil last []), trimmed_resolveDots_singleton,
        List.foldl_append]
      rfl

/-! ### The last segment -/

theorem splitOn_slashed_of_notMem {text : List Char} (h : ∀ c ∈ text, isSlash c = false) :
    (slashed text).splitOn '/' = [text] := by
  have hplain : ∀ c ∈ text, c ≠ '/' ∧ c ≠ '\\' := fun c hc => by simpa [isSlash] using h c hc
  have hslashed : slashed text = text := by
    rw [slashed, List.map_congr_left fun c hc => if_neg (hplain c hc).2, List.map_id']
  rw [hslashed, List.splitOn_eq_singleton fun hmem => (hplain _ hmem).1 rfl]

/-- The last segment of a text stands at its end. -/
theorem exists_splitOn_slashed (text : List Char) :
    ∃ front last, (slashed text).splitOn '/' = front ++ [last] ∧ last <:+ text ∧ ∀ c ∈ last, isSlash c = false := by
  by_cases hslash : ∃ c ∈ text, isSlash c = true
  · obtain ⟨front, c, last, rfl, hc, hlast⟩ := exists_last_mark hslash
    have hslashed : slashed (front ++ c :: last) = slashed front ++ '/' :: slashed last := by
      obtain rfl | rfl : c = '/' ∨ c = '\\' := by simpa [isSlash] using hc
      all_goals simp [slashed]
    refine ⟨(slashed front).splitOn '/', last, ?_, ⟨front ++ [c], by simp⟩, hlast⟩
    rw [hslashed, List.splitOn_append_cons_self, splitOn_slashed_of_notMem hlast]
  · have hall : ∀ c ∈ text, isSlash c = false := fun c hc => Bool.eq_false_iff.2 fun h => hslash ⟨c, hc, h⟩
    exact ⟨[], text, splitOn_slashed_of_notMem hall, List.suffix_rfl, hall⟩

end Url

end SpeechDispatch
