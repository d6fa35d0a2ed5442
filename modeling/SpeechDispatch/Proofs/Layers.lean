import SpeechDispatch.Config.Source
import SpeechDispatch.Proofs.TomlTree

/-!
# What a document laid over another changes

A value is laid at the end of a path of member names.  It changes what is at this path and nothing beside it
(`Document.get?_changeAt`).  Where a source names its members plainly and no member twice, laying it over a document
lays each of its members over the member below (`Document.get?_layOver`).

Settings are two names deep, in a section and there under a key.  `Document.value?` is what a document has there,
`Document.value?_layOver_of_plain` what a file makes of it, `Document.value?_layOver_of_not_touches` and
`Document.value?_layOver_of_own` what variables do.
-/

namespace SpeechDispatch

namespace DocumentStep

/-- The name of a member that is not taken for a path. -/
def IsPlain (name : String) : Prop := ofName name = [.member name]

/-- Whether a path leads to the place two members deep, past it, or to something that holds it. -/
def touches (sectionName key : String) : List DocumentStep → Bool
  | .member first :: .member second :: _ => first = sectionName && second = key
  | .member first :: _ => first = sectionName
  | _ => true

end DocumentStep

open DocumentStep

namespace Document

/-! ### One value -/

theorem lookup_setMember (name : String) (value : Document) (members : List (String × Document)) (other : String) :
    (setMember name value members).lookup other = if other = name then some value else members.lookup other := by
  induction members with
  | nil => rw [setMember, lookup_cons_eq]
  | cons member rest ih =>
    obtain ⟨first, old⟩ := member
    by_cases hfirst : first = name
    · subst hfirst
      rw [setMember, if_pos rfl, lookup_cons_eq, lookup_cons_eq]
      by_cases hother : other = first
      · rw [if_pos hother, if_pos hother]
      · rw [if_neg hother, if_neg hother, if_neg hother]
    · rw [setMember, if_neg hfirst, lookup_cons_eq, lookup_cons_eq, ih]
      by_cases hother : other = first
      · subst hother
        rw [if_pos rfl, if_neg hfirst, if_pos rfl]
      · rw [if_neg hother, if_neg hother]

theorem lookup_members (document : Document) (name : String) : document.members.lookup name = document.get? name := by
  cases document <;> rfl

theorem get?_changeAt (change : Document → Document) (name : String) (path : List DocumentStep) (document : Document)
    (other : String) :
    (document.changeAt change (.member name :: path)).get? other =
      if other = name then some (((document.get? name).getD null).changeAt change path) else document.get? other := by
  rw [changeAt, get?, lookup_setMember, lookup_members, lookup_members]

/-- Only a table is laid over a table; anything else stands in place of what is below. -/
theorem overlay_of_not_table {below above : Document} (h : ∀ old new, below = table old → above ≠ table new) :
    overlay below above = above := by
  cases above with
  | table new =>
    cases below with
    | table old => exact absurd rfl (h old new rfl)
    | _ => rfl
  | _ => rfl

/-- Members that come once each are laid over those of the same names. -/
theorem lookup_overlayMembers {above : List (String × Document)} (hnodup : (above.map (·.1)).Nodup)
    (below : List (String × Document)) (name : String) :
    (overlayMembers below above).lookup name =
      match above.lookup name with
      | none => below.lookup name
      | some value => some (match below.lookup name with
        | some old => overlay old value
        | none => value) := by
  induction above generalizing below with
  | nil =>
    rw [overlayMembers]
    rfl
  | cons member rest ih =>
    obtain ⟨first, value⟩ := member
    obtain ⟨hfirst, hrest⟩ := List.nodup_cons.1 hnodup
    rw [overlayMembers, ih hrest, lookup_cons_eq]
    by_cases hname : name = first
    · subst hname
      rw [lookup_eq_none_iff_notMem.2 hfirst, if_pos rfl]
      exact (lookup_setMember name _ below name).trans (if_pos rfl)
    · rw [lookup_setMember, if_neg hname, if_neg hname]

/-! ### Sources -/

theorem layOver_append (below : Document) (first second : List (String × Document)) :
    below.layOver (first ++ second) = (below.layOver first).layOver second := by
  rw [layOver, List.foldl_append]
  rfl

/-- A source of plain names that come once each. -/
theorem get?_layOver {source : List (String × Document)} (hplain : ∀ entry ∈ source, IsPlain entry.1)
    (hnodup : (source.map (·.1)).Nodup) (below : Document) (name : String) :
    (below.layOver source).get? name =
      match source.lookup name with
      | none => below.get? name
      | some value => some (overlay ((below.get? name).getD null) value) := by
  induction source generalizing below with
  | nil => rfl
  | cons entry rest ih =>
    obtain ⟨first, value⟩ := entry
    obtain ⟨hfirst, hrest⟩ := List.nodup_cons.1 hnodup
    have hpath : ofName first = [.member first] := hplain (first, value) (List.mem_cons_self ..)
    have hlay : below.layOver ((first, value) :: rest) =
        (below.changeAt (overlay · value) [.member first]).layOver rest := by
      rw [← hpath]
      rfl
    rw [hlay, ih (fun entry hentry => hplain entry (List.mem_cons_of_mem _ hentry)) hrest, lookup_cons_eq,
      get?_changeAt]
    by_cases hname : name = first
    · subst hname
      rw [lookup_eq_none_iff_notMem.2 hfirst, if_pos rfl, if_pos rfl]
      rfl
    · rw [if_neg hname, if_neg hname]

/-! ### Values two names deep -/

/-- The value under a key of a section. -/
def value? (document : Document) (sectionName key : String) : Option Document :=
  (document.get? sectionName).bind (·.get? key)

/-- What a source gives that names its sections plainly, and each as a table; what it does not give is as before. -/
theorem value?_layOver_of_plain {source : List (String × Document)} (hplain : ∀ entry ∈ source, IsPlain entry.1)
    (hnodup : (source.map (·.1)).Nodup) {sectionName : String}
    (htable : ∀ value, source.lookup sectionName = some value → ∃ members, value = table members ∧
      (members.map (·.1)).Nodup)
    {below : Document} {old : List (String × Document)} (hbelow : below.get? sectionName = some (table old))
    (key : String) :
    (below.layOver source).value? sectionName key =
      match (table source).value? sectionName key with
      | none => old.lookup key
      | some value => some (match old.lookup key with
        | some document => overlay document value
        | none => value) := by
  rw [value?, get?_layOver hplain hnodup, hbelow, value?, get?]
  cases hsource : source.lookup sectionName with
  | none => rfl
  | some value =>
    obtain ⟨members, rfl, hmembers⟩ := htable value hsource
    exact lookup_overlayMembers hmembers old key

/-- A value that is not laid near the place leaves it alone. -/
theorem value?_changeAt_of_not_touches {sectionName key : String} {path : List DocumentStep}
    (hpath : touches sectionName key path = false) (change : Document → Document) (document : Document) :
    (document.changeAt change path).value? sectionName key = document.value? sectionName key := by
  match path with
  | [] | .place _ :: _ => cases hpath
  | [.member first] | .member first :: .place _ :: _ =>
    have hfirst : ¬ sectionName = first := fun h => of_decide_eq_false hpath h.symm
    rw [value?, get?_changeAt, if_neg hfirst, value?]
  | .member first :: .member second :: path =>
    rw [value?, get?_changeAt, value?]
    by_cases hfirst : sectionName = first
    · subst hfirst
      have hsecond : ¬ key = second := by
        intro h
        simp [touches, h] at hpath
      rw [if_pos rfl, Option.bind_some, get?_changeAt, if_neg hsecond]
      cases document.get? sectionName <;> rfl
    · rw [if_neg hfirst]

theorem value?_layOver_of_not_touches {sectionName key : String} {source : List (String × Document)}
    (hsource : ∀ entry ∈ source, touches sectionName key (ofName entry.1) = false) (below : Document) :
    (below.layOver source).value? sectionName key = below.value? sectionName key := by
  induction source generalizing below with
  | nil => rfl
  | cons entry rest ih =>
    rw [← List.singleton_append, layOver_append,
      ih fun entry hentry => hsource entry (List.mem_cons_of_mem _ hentry)]
    exact value?_changeAt_of_not_touches (hsource entry (List.mem_cons_self ..)) _ _

/-- The last value that is laid near the place counts, if it is laid just there and is not a table. -/
theorem value?_layOver_of_own {sectionName key name : String} (hname : ofName name = [.member sectionName, .member key])
    {value : Document} (hvalue : ∀ members, value ≠ table members) {after : List (String × Document)}
    (hafter : ∀ entry ∈ after, touches sectionName key (ofName entry.1) = false) (below : Document)
    (before : List (String × Document)) :
    (below.layOver (before ++ (name, value) :: after)).value? sectionName key = some value := by
  have hlay : below.layOver (before ++ (name, value) :: after) =
      ((below.layOver before).changeAt (overlay · value) [.member sectionName, .member key]).layOver after := by
    rw [layOver_append, ← hname]
    rfl
  rw [hlay, value?_layOver_of_not_touches hafter, value?, get?_changeAt, if_pos rfl, Option.bind_some, get?_changeAt,
    if_pos rfl, changeAt, overlay_of_not_table fun _ new _ => hvalue new]

end Document

end SpeechDispatch
