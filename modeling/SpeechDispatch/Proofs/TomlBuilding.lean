import SpeechDispatch.Proofs.TomlTree

/-!
# The tables that statements build

A statement that opens a table and those that assign values to keys in it add one table with these values
(`foldlM_step_section`); a run of statements that open items of a list of tables, each with values, adds a list of
tables (`foldlM_step_items`).
-/

namespace SpeechDispatch.Toml

/-! ### The last member -/

section

variable {members : Members} {key : String}

theorem lookup_append_self (hnew : members.lookup key = none) (node : Node) :
    (members ++ [(key, node)]).lookup key = some node := by
  rw [List.lookup_append, hnew, Option.none_or, lookup_cons_eq, if_pos rfl]

theorem replaceMember_append_self (hnew : members.lookup key = none) (old new : Node) :
    replaceMember key new (members ++ [(key, old)]) = members ++ [(key, new)] := by
  induction members with
  | nil => exact if_pos rfl
  | cons member rest ih =>
    obtain ⟨first, node⟩ := member
    rw [lookup_eq_none_iff_notMem, List.map_cons, List.mem_cons, not_or] at hnew
    rw [List.cons_append, replaceMember, if_neg (Ne.symm hnew.1), ih (lookup_eq_none_iff_notMem.2 hnew.2),
      List.cons_append]

/-- `put` puts members among others where a path leads. -/
def Reaches (path : List String) (put : Members → Members) : Prop :=
  ∀ change inner, within change path (put inner) = (change inner).map put

theorem reaches_nil : Reaches [] id := fun change inner => by rw [Option.map_id_fun]; rfl

variable {path : List String} {put : Members → Members}

theorem Reaches.table (h : Reaches path put) (hnew : members.lookup key = none) (origin : Origin) :
    Reaches (key :: path) fun inner => members ++ [(key, .table origin (put inner))] := by
  intro change inner
  rw [within, lookup_append_self hnew]
  dsimp only
  rw [h, Option.map_map]
  exact congrArg (Option.map · _) (funext fun inner => replaceMember_append_self hnew _ _)

theorem Reaches.items (h : Reaches path put) (hnew : members.lookup key = none) (before : List Members) :
    Reaches (key :: path) fun inner => members ++ [(key, .items (put inner :: before))] := by
  intro change inner
  rw [within, lookup_append_self hnew]
  dsimp only
  rw [h, Option.map_map]
  exact congrArg (Option.map · _) (funext fun inner => replaceMember_append_self hnew _ _)

end

/-! ### Values in a table -/

/-- The key and the value of a statement that assigns one in the table that is open. -/
def entry? : Statement → Option (String × Document)
  | .assign [key] value => value.toDocument?.map (key, ·)
  | _ => none

/-- Members that hold values. -/
def valueMembers (entries : List (String × Document)) : Members := entries.map fun entry => (entry.1, .value entry.2)

theorem step_of_entry? {path : List String} {put : Members → Members} (hput : Reaches path put) {statement : Statement}
    {entry : String × Document} (h : entry? statement = some entry) {inner : Members}
    (hnew : inner.lookup entry.1 = none) :
    Draft.step ⟨put inner, path⟩ statement = some ⟨put (inner ++ valueMembers [entry]), path⟩ := by
  unfold entry? at h
  split at h
  · rename_i key value
    obtain ⟨document, hvalue, rfl⟩ := Option.map_eq_some_iff.1 h
    have hnone : ¬(inner.lookup key).isSome = true := by
      rw [hnew]
      exact Bool.false_ne_true
    rw [Draft.step, hvalue, Option.bind_some, hput, assign, if_neg hnone]
    rfl
  · cases h

/-- Statements that assign values to new keys of the table that is open add these to it. -/
theorem foldlM_step_entries {path : List String} {put : Members → Members} (hput : Reaches path put)
    {statements : List Statement} {entries : List (String × Document)} (h : statements.mapM entry? = some entries)
    {inner : Members} (hnodup : (inner.map (·.1) ++ entries.map (·.1)).Nodup) :
    statements.foldlM Draft.step ⟨put inner, path⟩ = some ⟨put (inner ++ valueMembers entries), path⟩ := by
  induction statements generalizing inner entries with
  | nil =>
    rw [List.mapM_nil] at h
    cases h
    rw [valueMembers, List.map_nil, List.append_nil]
    rfl
  | cons statement statements ih =>
    rw [List.mapM_cons] at h
    obtain ⟨entry, hentry, h⟩ := Option.bind_eq_some_iff.1 h
    obtain ⟨later, hlater, h⟩ := Option.bind_eq_some_iff.1 h
    cases h
    have hnew : inner.lookup entry.1 = none := by
      rw [lookup_eq_none_iff_notMem]
      exact fun hmem => (List.nodup_append.1 hnodup).2.2 _ hmem _ (List.mem_cons_self ..) rfl
    have hrest : ((inner ++ valueMembers [entry]).map (·.1) ++ later.map (·.1)).Nodup := by
      rw [List.map_append, List.append_assoc]
      exact hnodup
    rw [List.foldlM_cons, step_of_entry? hput hentry hnew]
    change statements.foldlM Draft.step _ = _
    rw [ih hlater hrest, List.append_assoc]
    rfl

/-- Statements that assign these values, all to distinct keys. -/
structure Assigns (statements : List Statement) (entries : List (String × Document)) : Prop where
  mapM_entry? : statements.mapM entry? = some entries
  nodup : (entries.map (·.1)).Nodup

/-- Opening a new table and assigning values to keys in it adds a table with these values. -/
theorem foldlM_step_section (members : Members) (name : String) (hnew : members.lookup name = none)
    {statements : List Statement} {entries : List (String × Document)} (h : Assigns statements entries)
    (current : List String) :
    (.openTable [name] :: statements).foldlM Draft.step ⟨members, current⟩ =
      some ⟨members ++ [(name, .table .opened (valueMembers entries))], [name]⟩ := by
  have hopen : Draft.step ⟨members, current⟩ (.openTable [name]) =
      some ⟨members ++ [(name, .table .opened [])], [name]⟩ := by
    rw [Draft.step, make, placeTable, hnew]
    rfl
  rw [List.foldlM_cons, hopen]
  exact foldlM_step_entries (reaches_nil.table hnew .opened) h.mapM_entry? h.nodup

/-! ### Lists of tables -/

/-- Members with a list of tables at the end, if there are any. -/
def withTables (own : Members) (name : String) : List Members → Members
  | [] => own
  | tables => own ++ [(name, .items tables)]

theorem placeItem_withTables {own : Members} {name : String} (hnew : own.lookup name = none) (tables : List Members) :
    placeItem name (withTables own name tables) = some (withTables own name ([] :: tables)) := by
  cases tables with
  | nil =>
    rw [placeItem, withTables, hnew]
    rfl
  | cons table tables =>
    rw [placeItem, withTables, lookup_append_self hnew]
    · exact congrArg some (replaceMember_append_self hnew _ _)
    · exact List.cons_ne_nil _ _

/-- Opening items of a list in the last table, and assigning values to keys in each, adds tables with these values. -/
theorem foldlM_step_items {members own : Members} {first name : String} (hfirst : members.lookup first = none)
    (hname : own.lookup name = none) {α : Type} {statements : α → List Statement}
    {entries : α → List (String × Document)} {l : List α} (h : ∀ a ∈ l, Assigns (statements a) (entries a))
    (tables : List Members) (current : List String) :
    ∃ current', (l.flatMap fun a => .openItem [first, name] :: statements a).foldlM Draft.step
        ⟨members ++ [(first, .table .opened (withTables own name tables))], current⟩ =
      some ⟨members ++ [(first, .table .opened
        (withTables own name ((l.map fun a => valueMembers (entries a)).reverse ++ tables)))], current'⟩ := by
  induction l generalizing tables current with
  | nil => exact ⟨current, rfl⟩
  | cons a l ih =>
    have hentries := h a (List.mem_cons_self ..)
    obtain ⟨current', hrest⟩ := ih (fun a ha => h a (List.mem_cons_of_mem _ ha)) (valueMembers (entries a) :: tables)
      [first, name]
    have hopen : Draft.step ⟨members ++ [(first, .table .opened (withTables own name tables))], current⟩
          (.openItem [first, name]) =
        some ⟨members ++ [(first, .table .opened (own ++ [(name, .items ([] :: tables))]))], [first, name]⟩ := by
      rw [Draft.step, make, lookup_append_self hfirst]
      · dsimp only
        rw [make, placeItem_withTables hname]
        exact congrArg (fun members => some (Draft.mk members _)) (replaceMember_append_self hfirst _ _)
      · exact List.cons_ne_nil _ _
    have hassign : (statements a).foldlM Draft.step
          ⟨members ++ [(first, .table .opened (own ++ [(name, .items ([] :: tables))]))], [first, name]⟩ =
        some ⟨members ++ [(first, .table .opened (withTables own name (valueMembers (entries a) :: tables)))],
          [first, name]⟩ :=
      foldlM_step_entries ((reaches_nil.items hname tables).table hfirst .opened) hentries.mapM_entry? hentries.nodup
    refine ⟨current', ?_⟩
    rw [List.flatMap_cons, List.cons_append, List.foldlM_cons, hopen]
    change ((statements a ++ _).foldlM Draft.step _) = _
    rw [List.foldlM_append, hassign]
    change List.foldlM Draft.step _ _ = _
    rw [hrest, List.map_cons, List.reverse_cons, List.append_assoc]
    rfl

/-! ### What the tables hold -/

theorem documents_append (left right : Members) : documents (left ++ right) = documents left ++ documents right := by
  induction left with
  | nil => rw [List.nil_append, documents, List.nil_append]
  | cons member left ih =>
    obtain ⟨key, node⟩ := member
    rw [List.cons_append, documents, documents, ih, List.cons_append]

theorem documents_valueMembers (entries : List (String × Document)) : documents (valueMembers entries) = entries := by
  induction entries with
  | nil => rw [valueMembers, List.map_nil, documents]
  | cons entry entries ih =>
    rw [valueMembers, List.map_cons, documents, Node.toDocument]
    exact congrArg _ ih

theorem tableDocuments_eq (tables : List Members) :
    tableDocuments tables = tables.map fun members => .table (documents members) := by
  induction tables with
  | nil => rw [tableDocuments, List.map_nil]
  | cons members tables ih => rw [tableDocuments, ih, List.map_cons]

theorem documents_cons_table (name : String) (origin : Origin) (inner rest : Members) :
    documents ((name, .table origin inner) :: rest) = (name, .table (documents inner)) :: documents rest := by
  rw [documents, Node.toDocument]

/-- A list of tables of values that was built item by item. -/
theorem documents_withTables {own : Members} {name : String} {α : Type} {entries : α → List (String × Document)}
    {l : List α} (hne : l ≠ []) :
    documents (withTables own name (l.map fun a => valueMembers (entries a)).reverse) =
      documents own ++ [(name, .list (l.map fun a => .table (entries a)))] := by
  have htables : (l.map fun a => valueMembers (entries a)).reverse ≠ [] := by
    rwa [ne_eq, List.reverse_eq_nil_iff, List.map_eq_nil_iff]
  have hlist : (tableDocuments (l.map fun a => valueMembers (entries a)).reverse).reverse =
      l.map fun a => .table (entries a) := by
    rw [tableDocuments_eq, List.map_reverse, List.reverse_reverse, List.map_map]
    exact List.map_congr_left fun a _ => congrArg Document.table (documents_valueMembers _)
  rw [withTables, documents_append, documents, Node.toDocument, documents, hlist]
  exact htables

end SpeechDispatch.Toml
