import SpeechDispatch.Table

/-!
# The entries of a table

What is listed in a table is what can be looked up in it (`Table.mem_entries`), so an insertion or a removal changes
the listing by one entry, up to order (`Table.entries_insert_perm`, `Table.entries_perm_of_get?`).  Names taken out
one after another are gone, the others stay (`Table.get?_takeAll`), and what was taken is what was there
(`Table.mem_takeAll`).
-/

namespace SpeechDispatch.Table

variable {β : Type}

private theorem find_eq_some_of_mem {name : String} {value : β} {l : List (String × β)}
    (h : l.Pairwise (fun a b => a.1 < b.1)) (hmem : (name, value) ∈ l) : find name l = some value := by
  induction l with
  | nil => simp at hmem
  | cons a l ih =>
    rw [List.pairwise_cons] at h
    rcases List.mem_cons.1 hmem with rfl | hmem
    · simp [find]
    · have hlt := h.1 _ hmem
      have hne : ¬ name = a.1 := fun e => String.lt_irrefl a.1 (e ▸ hlt)
      rw [find, if_neg hne]
      exact ih h.2 hmem

private theorem mem_of_find_eq_some {name : String} {value : β} {l : List (String × β)}
    (h : find name l = some value) : (name, value) ∈ l := by
  induction l with
  | nil => simp [find] at h
  | cons a l ih =>
    unfold find at h
    split at h
    · rename_i hname
      have hvalue : a.2 = value := Option.some.inj h
      subst hname hvalue
      exact List.mem_cons_self ..
    · exact List.mem_cons_of_mem _ (ih h)

theorem mem_entries {t : Table β} {name : String} {value : β} :
    (name, value) ∈ t.entries ↔ t.get? name = some value :=
  ⟨find_eq_some_of_mem t.sorted, mem_of_find_eq_some⟩

theorem mem_values {t : Table β} {value : β} : value ∈ t.values ↔ ∃ name, t.get? name = some value := by
  simp only [values, List.mem_map, Prod.exists, mem_entries, exists_eq_right]

theorem entries_nodup (t : Table β) : t.entries.Nodup := by
  refine t.sorted.imp ?_
  rintro a b hlt rfl
  exact String.lt_irrefl _ hlt

theorem names_nodup (t : Table β) : t.names.Nodup := by
  refine List.pairwise_map.2 (t.sorted.imp ?_)
  intro a b hlt heq
  rw [heq] at hlt
  exact String.lt_irrefl _ hlt

/-- In a table whose values know the names under which they stand, the names are those of the values. -/
theorem map_values_eq_names {t : Table β} {key : β → String}
    (hkey : ∀ {name value}, t.get? name = some value → key value = name) : t.values.map key = t.names := by
  rw [values, names, List.map_map]
  exact List.map_congr_left fun entry hentry => hkey (mem_entries.1 hentry)

theorem get?_insert_self (t : Table β) (name : String) (value : β) : (t.insert name value).get? name = some value := by
  rw [get?_insert, if_pos rfl]

theorem get?_insert_of_ne (t : Table β) {name other : String} (value : β) (h : other ≠ name) :
    (t.insert name value).get? other = t.get? other := by
  rw [get?_insert, if_neg h]

theorem get?_erase_self (t : Table β) (name : String) : (t.erase name).get? name = none := by
  rw [get?_erase, if_pos rfl]

theorem get?_erase_of_ne (t : Table β) {name other : String} (h : other ≠ name) :
    (t.erase name).get? other = t.get? other := by
  rw [get?_erase, if_neg h]

/-- What is there already can be put in again. -/
theorem insert_of_get? {t : Table β} {name : String} {value : β} (h : t.get? name = some value) :
    t.insert name value = t := by
  apply ext_get?
  intro other
  rw [get?_insert]
  by_cases hname : other = name
  · rw [if_pos hname, hname, h]
  · rw [if_neg hname]

theorem erase_of_get?_eq_none {t : Table β} {name : String} (h : t.get? name = none) : t.erase name = t := by
  apply ext_get?
  intro other
  rw [get?_erase]
  split
  · subst other
    exact h.symm
  · rfl

/-! ### Listings up to order -/

theorem entries_perm_of_get? {t : Table β} {name : String} {value : β} (h : t.get? name = some value) :
    t.entries.Perm ((name, value) :: (t.erase name).entries) := by
  have hnot : (name, value) ∉ (t.erase name).entries := by
    rw [mem_entries, get?_erase_self]
    exact nofun
  rw [List.perm_ext_iff_of_nodup t.entries_nodup (List.nodup_cons.2 ⟨hnot, entries_nodup _⟩)]
  rintro ⟨other, v⟩
  rw [List.mem_cons, mem_entries, mem_entries, get?_erase]
  by_cases hname : other = name
  · subst hname
    simp [h, eq_comm]
  · simp [hname]

theorem entries_insert_perm (t : Table β) (name : String) (value : β) :
    (t.insert name value).entries.Perm ((name, value) :: (t.erase name).entries) := by
  have herase : (t.insert name value).erase name = t.erase name := by
    apply ext_get?
    intro other
    rw [get?_erase, get?_erase, get?_insert]
    split <;> rfl
  rw [← herase]
  exact entries_perm_of_get? (get?_insert_self t name value)

/-- In a table whose entries stand under the keys of their values, one key has one value at most. -/
theorem filter_values_eq {t : Table β} {key : β → String}
    (hkey : ∀ {name value}, t.get? name = some value → key value = name) {name : String} {value : β}
    (h : t.get? name = some value) : t.values.filter (key · == name) = [value] := by
  have hperm : t.values.Perm (value :: (t.erase name).values) := (entries_perm_of_get? h).map Prod.snd
  have hrest : (t.erase name).values.filter (key · == name) = [] := by
    rw [List.filter_eq_nil_iff]
    intro v hv
    obtain ⟨other, hother⟩ := mem_values.1 hv
    rw [get?_erase] at hother
    split at hother
    · exact absurd hother nofun
    · rename_i hne
      simpa [hkey hother] using hne
  have := hperm.filter (key · == name)
  rw [List.filter_cons_of_pos (by simp [hkey h]), hrest] at this
  exact List.perm_singleton.1 this

/-! ### Taking names out -/

theorem takeAll_cons (t : Table β) (name : String) (rest : List String) :
    t.takeAll (name :: rest) =
      ((t.get? name).toList ++ ((t.erase name).takeAll rest).1, ((t.erase name).takeAll rest).2) := rfl

theorem get?_takeAll (t : Table β) (names : List String) (name : String) :
    (t.takeAll names).2.get? name = if name ∈ names then none else t.get? name := by
  induction names generalizing t with
  | nil => rfl
  | cons first rest ih =>
    rw [takeAll_cons, ih, get?_erase]
    by_cases hfirst : name = first <;> by_cases hrest : name ∈ rest <;> simp [hfirst, hrest]

theorem mem_takeAll {t : Table β} {names : List String} {value : β} :
    value ∈ (t.takeAll names).1 ↔ ∃ name ∈ names, t.get? name = some value := by
  induction names generalizing t with
  | nil => simp [takeAll]
  | cons first rest ih =>
    rw [takeAll_cons, List.mem_append, ih, Option.mem_toList]
    constructor
    · rintro (h | ⟨name, hname, h⟩)
      · exact ⟨first, List.mem_cons_self .., h⟩
      · rw [get?_erase] at h
        split at h
        · exact absurd h nofun
        · exact ⟨name, List.mem_cons_of_mem _ hname, h⟩
    · rintro ⟨name, hname, h⟩
      by_cases hfirst : name = first
      · exact .inl (hfirst ▸ h)
      · refine .inr ⟨name, (List.mem_cons.1 hname).resolve_left hfirst, ?_⟩
        rwa [get?_erase_of_ne t hfirst]

/-- Of distinct names under which something is there, each is found in what is taken out, in its place. -/
theorem map_takeAll {t : Table β} {key : β → String}
    (hkey : ∀ {name value}, t.get? name = some value → key value = name) {names : List String} (hnodup : names.Nodup)
    (hthere : ∀ name ∈ names, ∃ value, t.get? name = some value) : (t.takeAll names).1.map key = names := by
  induction names generalizing t with
  | nil => rfl
  | cons first rest ih =>
    obtain ⟨hfirst, hrest⟩ := List.nodup_cons.1 hnodup
    obtain ⟨value, hvalue⟩ := hthere first (List.mem_cons_self ..)
    have hleft : ∀ {name value}, (t.erase first).get? name = some value → t.get? name = some value := by
      intro name value h
      rw [get?_erase] at h
      split at h
      · cases h
      · exact h
    have hothers : (((t.erase first).takeAll rest).1).map key = rest := by
      refine ih (fun h => hkey (hleft h)) hrest fun name hname => ?_
      have hne : name ≠ first := by
        rintro rfl
        exact hfirst hname
      rw [get?_erase_of_ne t hne]
      exact hthere name (List.mem_cons_of_mem _ hname)
    rw [takeAll_cons, hvalue, Option.toList_some, List.singleton_append, List.map_cons, hkey hvalue, hothers]

/-- Taking out what satisfies a condition leaves what does not, and hands over each thing once. -/
theorem takeAll_where {t : Table β} {key : β → String}
    (hkey : ∀ {name value}, t.get? name = some value → key value = name) {p : β → Bool} {names : List String}
    (hnodup : names.Nodup) (hmem : ∀ {name}, name ∈ names ↔ ∃ value, t.get? name = some value ∧ p value = true) :
    (∀ name, (t.takeAll names).2.get? name = (t.get? name).filter (!p ·)) ∧
      (∀ value, value ∈ (t.takeAll names).1 ↔ t.get? (key value) = some value ∧ p value = true) ∧
      (t.takeAll names).1.map key = names := by
  refine ⟨fun name => ?_, fun value => ?_, ?_⟩
  · rw [get?_takeAll]
    cases hvalue : t.get? name with
    | none => simp
    | some value =>
      cases hp : p value with
      | true =>
        rw [if_pos (hmem.2 ⟨value, hvalue, hp⟩), Option.filter_some, hp]
        rfl
      | false =>
        have hnot : name ∉ names := by
          intro hname
          obtain ⟨other, hother, hpo⟩ := hmem.1 hname
          obtain rfl := Option.some.inj (hvalue.symm.trans hother)
          exact Bool.false_ne_true (hp.symm.trans hpo)
        rw [if_neg hnot, Option.filter_some, hp]
        rfl
  · rw [mem_takeAll]
    constructor
    · rintro ⟨name, hname, hvalue⟩
      obtain ⟨other, hother, hp⟩ := hmem.1 hname
      obtain rfl := Option.some.inj (hvalue.symm.trans hother)
      rw [hkey hvalue]
      exact ⟨hvalue, hp⟩
    · rintro ⟨hvalue, hp⟩
      exact ⟨key value, hmem.2 ⟨value, hvalue, hp⟩, hvalue⟩
  · refine map_takeAll hkey hnodup fun name hname => ?_
    obtain ⟨value, hvalue, -⟩ := hmem.1 hname
    exact ⟨value, hvalue⟩

/-- The table with those values only that satisfy a condition. -/
def filter (t : Table β) (p : β → Bool) : Table β :=
  ⟨t.entries.filter fun entry => p entry.2, t.sorted.filter _⟩

theorem get?_filter (t : Table β) (p : β → Bool) (name : String) : (t.filter p).get? name = (t.get? name).filter p := by
  have hmem : ∀ value, (t.filter p).get? name = some value ↔ t.get? name = some value ∧ p value = true := by
    intro value
    rw [← mem_entries, ← mem_entries]
    exact List.mem_filter
  ext value
  rw [hmem, Option.filter_eq_some_iff]

/-- Values that stand under their keys are told apart by them. -/
theorem eq_of_map_key_eq {t : Table β} {key : β → String} {l l' : List β}
    (hl : ∀ value ∈ l, t.get? (key value) = some value) (hl' : ∀ value ∈ l', t.get? (key value) = some value)
    (h : l.map key = l'.map key) : l = l' := by
  have hread : ∀ {values : List β}, (∀ value ∈ values, t.get? (key value) = some value) →
      (values.map key).map t.get? = values.map some := by
    intro values hvalues
    rw [List.map_map]
    exact List.map_congr_left hvalues
  have hsame : l.map some = l'.map some := by rw [← hread hl, ← hread hl', h]
  exact (List.map_inj_right fun _ _ => Option.some.inj).1 hsame

/-- In a table whose values know the names under which they stand, those that satisfy a condition are taken out by
their names, in order, and the others stay. -/
theorem takeAll_map_filter {t : Table β} {key : β → String}
    (hkey : ∀ {name value}, t.get? name = some value → key value = name) (p : β → Bool) :
    t.takeAll ((t.values.filter p).map key) = (t.values.filter p, t.filter (!p ·)) := by
  have hnodup : ((t.values.filter p).map key).Nodup := by
    have hall : (t.values.map key).Nodup := by
      rw [map_values_eq_names hkey]
      exact t.names_nodup
    exact hall.sublist (List.filter_sublist.map _)
  have hstands : ∀ {value}, value ∈ t.values → t.get? (key value) = some value := by
    intro value hvalue
    obtain ⟨name, hname⟩ := mem_values.1 hvalue
    rw [hkey hname]
    exact hname
  have hmem : ∀ {name}, name ∈ (t.values.filter p).map key ↔ ∃ value, t.get? name = some value ∧ p value = true := by
    intro name
    simp only [List.mem_map, List.mem_filter]
    constructor
    · rintro ⟨value, ⟨hvalue, hp⟩, rfl⟩
      exact ⟨value, hstands hvalue, hp⟩
    · rintro ⟨value, hvalue, hp⟩
      exact ⟨value, ⟨mem_values.2 ⟨name, hvalue⟩, hp⟩, hkey hvalue⟩
  obtain ⟨hleft, htaken, hkeys⟩ := takeAll_where hkey hnodup hmem
  refine Prod.ext ?_ (ext_get? fun name => ?_)
  · refine eq_of_map_key_eq (fun value hvalue => ((htaken value).1 hvalue).1) (fun value hvalue => ?_) hkeys
    exact hstands (List.mem_filter.1 hvalue).1
  · rw [hleft, get?_filter]

/-- Where nothing was there to be taken, nothing was changed. -/
theorem takeAll_of_fst_eq_nil {t : Table β} {names : List String} (h : (t.takeAll names).1 = []) :
    (t.takeAll names).2 = t := by
  apply ext_get?
  intro name
  rw [get?_takeAll]
  split
  · rename_i hname
    cases hvalue : t.get? name with
    | none => rfl
    | some value =>
      have hmem : value ∈ (t.takeAll names).1 := mem_takeAll.2 ⟨name, hname, hvalue⟩
      rw [h] at hmem
      cases hmem
  · rfl

end SpeechDispatch.Table
