/-!
# Tables

A finite map from names to values, listed in the order of the names.  The order is part of the type, so a table has
one form only: tables with the same look-ups are equal (`Table.ext_get?`).  The look-ups after an insertion or a
removal are `get?_insert` and `get?_erase`.
-/

namespace SpeechDispatch

/-- A finite map whose entries are listed with strictly increasing names. -/
structure Table (β : Type) where
  entries : List (String × β)
  sorted : entries.Pairwise (fun a b => a.1 < b.1)

namespace Table

variable {β γ : Type}

private theorem lt_of_not_lt_ne {a b : String} (h : ¬ a < b) (hne : a ≠ b) : b < a := by
  rcases Classical.em (b < a) with h' | h'
  · exact h'
  · exact absurd (String.le_antisymm (String.not_lt.1 h') (String.not_lt.1 h)) hne

/-- Puts an entry at its place in a listed map, over an entry of the same name if there is one. -/
def place (name : String) (value : β) : List (String × β) → List (String × β)
  | [] => [(name, value)]
  | entry :: rest =>
    if name < entry.1 then (name, value) :: entry :: rest
    else if name = entry.1 then (name, value) :: rest
    else entry :: place name value rest

theorem mem_place {name : String} {value : β} {entry : String × β} {l : List (String × β)}
    (h : entry ∈ place name value l) : entry = (name, value) ∨ entry ∈ l := by
  induction l with
  | nil => simpa [place] using h
  | cons a l ih =>
    unfold place at h
    split at h
    · simpa using h
    · split at h
      · rcases List.mem_cons.1 h with h | h
        · exact .inl h
        · exact .inr (List.mem_cons_of_mem _ h)
      · rcases List.mem_cons.1 h with h | h
        · exact .inr (by simp [h])
        · exact (ih h).imp_right (List.mem_cons_of_mem _)

theorem sorted_place (name : String) (value : β) {l : List (String × β)}
    (h : l.Pairwise (fun a b => a.1 < b.1)) : (place name value l).Pairwise (fun a b => a.1 < b.1) := by
  induction l with
  | nil => simp [place]
  | cons a l ih =>
    have ha := List.pairwise_cons.1 h
    unfold place
    split
    · refine List.pairwise_cons.2 ⟨fun b hb => ?_, h⟩
      rcases List.mem_cons.1 hb with rfl | hb
      · assumption
      · exact String.lt_trans ‹_› (ha.1 b hb)
    · split
      · subst name
        exact List.pairwise_cons.2 ⟨ha.1, ha.2⟩
      · refine List.pairwise_cons.2 ⟨fun b hb => ?_, ih ha.2⟩
        rcases mem_place hb with rfl | hb
        · exact lt_of_not_lt_ne ‹_› ‹_›
        · exact ha.1 b hb

/-- The value under a name in a listed map. -/
def find (name : String) : List (String × β) → Option β
  | [] => none
  | entry :: rest => if name = entry.1 then some entry.2 else find name rest

/-! ### Operations -/

def empty : Table β := ⟨[], .nil⟩

instance : EmptyCollection (Table β) := ⟨empty⟩

instance : Inhabited (Table β) := ⟨empty⟩

def get? (t : Table β) (name : String) : Option β := find name t.entries

def contains (t : Table β) (name : String) : Bool := (t.get? name).isSome

def insert (t : Table β) (name : String) (value : β) : Table β :=
  ⟨place name value t.entries, sorted_place name value t.sorted⟩

def erase (t : Table β) (name : String) : Table β :=
  ⟨t.entries.filter (fun entry => entry.1 != name), t.sorted.filter _⟩

/-- The table with the value under a name changed; a name without a value stays without one. -/
def modify (t : Table β) (name : String) (f : β → β) : Table β :=
  match t.get? name with
  | none => t
  | some value => t.insert name (f value)

/-- The table with every value changed. -/
def mapValues (t : Table β) (f : β → γ) : Table γ :=
  ⟨t.entries.map fun entry => (entry.1, f entry.2), List.pairwise_map.2 t.sorted⟩

def names (t : Table β) : List String := t.entries.map (·.1)

def values (t : Table β) : List β := t.entries.map (·.2)

def size (t : Table β) : Nat := t.entries.length

def isEmpty (t : Table β) : Bool := t.entries.isEmpty

/-- The table of a list of entries, of which the last under a name counts. -/
def ofList (l : List (String × β)) : Table β := l.foldl (fun t entry => t.insert entry.1 entry.2) empty

/-- Removes the values under the given names one after another, and lists those that were there. -/
def takeAll (t : Table β) : List String → List β × Table β
  | [] => ([], t)
  | name :: rest =>
    let (taken, left) := (t.erase name).takeAll rest
    (((t.get? name).toList) ++ taken, left)

/-! ### Look-ups -/

private theorem find_place (name other : String) (value : β) (l : List (String × β)) :
    find other (place name value l) = if other = name then some value else find other l := by
  induction l with
  | nil => rfl
  | cons a l ih =>
    unfold place
    split
    · rfl
    · split
      · subst name
        by_cases h : other = a.1 <;> simp [find, h]
      · by_cases h : other = a.1
        · have hne : ¬ other = name := fun e => ‹¬ name = a.1› (e ▸ h)
          simp [find, h, h ▸ hne]
        · simp [find, h, ih]

theorem get?_insert (t : Table β) (name other : String) (value : β) :
    (t.insert name value).get? other = if other = name then some value else t.get? other :=
  find_place name other value t.entries

private theorem find_filter_ne (name other : String) (l : List (String × β)) :
    find other (l.filter (fun entry => entry.1 != name)) = if other = name then none else find other l := by
  induction l with
  | nil => simp [find]
  | cons a l ih =>
    by_cases ha : a.1 = name
    · rw [List.filter_cons_of_neg (by simpa using ha), ih]
      by_cases h : other = name
      · simp [h]
      · simp [find, ha, h]
    · rw [List.filter_cons_of_pos (by simpa using ha)]
      by_cases h : other = a.1
      · simp [find, h, ha]
      · simp [find, h, ih]

theorem get?_erase (t : Table β) (name other : String) :
    (t.erase name).get? other = if other = name then none else t.get? other :=
  find_filter_ne name other t.entries

@[simp] theorem get?_empty (name : String) : (∅ : Table β).get? name = none := rfl

theorem get?_modify (t : Table β) (name other : String) (f : β → β) :
    (t.modify name f).get? other = if other = name then (t.get? name).map f else t.get? other := by
  unfold modify
  split
  · by_cases h : other = name <;> simp_all
  · rw [get?_insert]
    by_cases h : other = name <;> simp_all

private theorem find_map (name : String) (f : β → γ) (l : List (String × β)) :
    find name (l.map fun entry => (entry.1, f entry.2)) = (find name l).map f := by
  induction l with
  | nil => rfl
  | cons a l ih =>
    by_cases h : name = a.1
    · simp [find, h]
    · simp [find, h, ih]

theorem get?_mapValues (t : Table β) (f : β → γ) (name : String) :
    (t.mapValues f).get? name = (t.get? name).map f :=
  find_map name f t.entries

/-! ### One form for each map -/

private theorem find_eq_none_of_lt {name : String} {l : List (String × β)} (h : ∀ b ∈ l, name < b.1) :
    find name l = none := by
  induction l with
  | nil => rfl
  | cons a l ih =>
    have ha : ¬ name = a.1 := fun e => String.lt_irrefl a.1 (by simpa [e] using h a (by simp))
    rw [find, if_neg ha]
    exact ih fun b hb => h b (by simp [hb])

private theorem head_le_of_find {a b : String × β} {l l' : List (String × β)}
    (h : (b :: l').Pairwise (fun a b => a.1 < b.1))
    (hfind : ∀ name, find name (a :: l) = find name (b :: l')) : ¬ a.1 < b.1 := by
  intro hlt
  have hnone : find a.1 (b :: l') = none := find_eq_none_of_lt fun c hc => by
    rcases List.mem_cons.1 hc with rfl | hc
    · exact hlt
    · exact String.lt_trans hlt ((List.pairwise_cons.1 h).1 c hc)
  have := hfind a.1
  rw [hnone] at this
  simp [find] at this

private theorem entries_ext {l l' : List (String × β)} (h : l.Pairwise (fun a b => a.1 < b.1))
    (h' : l'.Pairwise (fun a b => a.1 < b.1)) (hfind : ∀ name, find name l = find name l') : l = l' := by
  induction l generalizing l' with
  | nil =>
    cases l' with
    | nil => rfl
    | cons b l' => have := hfind b.1; simp [find] at this
  | cons a l ih =>
    cases l' with
    | nil => have := hfind a.1; simp [find] at this
    | cons b l' =>
      have hab : a.1 = b.1 := String.le_antisymm
        (String.not_lt.1 (head_le_of_find h fun name => (hfind name).symm)) (String.not_lt.1 (head_le_of_find h' hfind))
      have hval : a = b := by
        have := hfind a.1
        simp only [find, hab, if_true, Option.some.injEq] at this
        exact Prod.ext hab this
      subst hval
      congr 1
      refine ih (List.pairwise_cons.1 h).2 (List.pairwise_cons.1 h').2 fun name => ?_
      by_cases e : name = a.1
      · rw [e, find_eq_none_of_lt (List.pairwise_cons.1 h).1, find_eq_none_of_lt (List.pairwise_cons.1 h').1]
      · simpa [find, e] using hfind name

/-- Tables with the same look-ups are equal. -/
theorem ext_get? {t t' : Table β} (h : ∀ name, t.get? name = t'.get? name) : t = t' := by
  obtain ⟨l, hl⟩ := t
  obtain ⟨l', hl'⟩ := t'
  have : l = l' := entries_ext hl hl' h
  subst this
  rfl

end Table

end SpeechDispatch
