import SpeechDispatch.Toml.Tree

/-!
# No name comes twice

Whatever statements a TOML text consists of, no table of the document that they build has two members of one name
(`Toml.isDistinct_of_document?`).  A statement adds a member only where none of its name is, and otherwise replaces one.
-/

namespace SpeechDispatch

/-! ### Names and members -/

/-- What is under a name, with a member in front. -/
theorem lookup_cons_eq {α : Type} (first : String) (value : α) (rest : List (String × α)) (name : String) :
    ((first, value) :: rest).lookup name = if name = first then some value else rest.lookup name := by
  by_cases hname : name = first
  · simp [hname]
  · have hbeq : (name == first) = false := beq_false_of_ne hname
    simp [List.lookup_cons, hname, hbeq]

theorem lookup_eq_none_iff_notMem {α : Type} {members : List (String × α)} {name : String} :
    members.lookup name = none ↔ name ∉ members.map (·.1) := by
  induction members with
  | nil => simp
  | cons member rest ih =>
    obtain ⟨first, value⟩ := member
    rw [lookup_cons_eq, List.map_cons, List.mem_cons, not_or]
    by_cases hname : name = first
    · simp [hname]
    · rw [if_neg hname, ih]
      exact ⟨fun h => ⟨hname, h⟩, fun h => h.2⟩

theorem mem_of_lookup_eq_some {α : Type} {members : List (String × α)} {name : String} {value : α}
    (h : members.lookup name = some value) : (name, value) ∈ members := by
  obtain ⟨before, after, rfl, -⟩ := List.lookup_eq_some_iff.1 h
  exact List.mem_append_right _ (List.mem_cons_self ..)

/-! ### Documents and nodes -/

/-- No table in a document has two members of one name. -/
inductive Document.IsDistinct : Document → Prop
  | null : IsDistinct .null
  | bool (b : Bool) : IsDistinct (.bool b)
  | integer (n : Int) : IsDistinct (.integer n)
  | float (x : Float) : IsDistinct (.float x)
  | text (s : String) : IsDistinct (.text s)
  | date (s : String) : IsDistinct (.date s)
  | list {items : List Document} (hitems : ∀ item ∈ items, IsDistinct item) : IsDistinct (.list items)
  | table {members : List (String × Document)} (hnodup : (members.map (·.1)).Nodup)
    (hmembers : ∀ member ∈ members, IsDistinct member.2) : IsDistinct (.table members)

namespace Toml

/-- No table in a node has two members of one name. -/
inductive Node.IsDistinct : Node → Prop
  | value {document : Document} (h : document.IsDistinct) : IsDistinct (.value document)
  | table {origin : Origin} {members : Members} (hnodup : (members.map (·.1)).Nodup)
    (hmembers : ∀ member ∈ members, IsDistinct member.2) : IsDistinct (.table origin members)
  | items {tables : List Members} (hnodup : ∀ members ∈ tables, (members.map (·.1)).Nodup)
    (hmembers : ∀ members ∈ tables, ∀ member ∈ members, IsDistinct member.2) : IsDistinct (.items tables)

/-- No name comes twice among members or in one of them. -/
structure Members.IsDistinct (members : Members) : Prop where
  nodup : (members.map (·.1)).Nodup
  members : ∀ member ∈ members, member.2.IsDistinct

namespace Members.IsDistinct

variable {members : Members}

theorem nil : Members.IsDistinct [] := ⟨List.nodup_nil, nofun⟩

theorem of_lookup (h : members.IsDistinct) {key : String} {node : Node} (hlookup : members.lookup key = some node) :
    node.IsDistinct := h.members (key, node) (mem_of_lookup_eq_some hlookup)

/-- A member is added where none of its name is. -/
theorem append (h : members.IsDistinct) {key : String} (hnone : members.lookup key = none) {node : Node}
    (hnode : node.IsDistinct) : Members.IsDistinct (members ++ [(key, node)]) := by
  constructor
  · rw [List.map_append, List.nodup_append]
    refine ⟨h.nodup, List.pairwise_singleton _ _, ?_⟩
    rintro name hname other hother rfl
    obtain rfl := List.mem_singleton.1 hother
    exact lookup_eq_none_iff_notMem.1 hnone hname
  · intro member hmem
    obtain hmem | hmem := List.mem_append.1 hmem
    · exact h.members member hmem
    · obtain rfl := List.mem_singleton.1 hmem
      exact hnode

theorem names_replaceMember {key : String} {node : Node} (hsome : (members.lookup key).isSome = true) :
    (replaceMember key node members).map (·.1) = members.map (·.1) := by
  induction members with
  | nil => cases hsome
  | cons member rest ih =>
    obtain ⟨first, old⟩ := member
    by_cases hfirst : first = key
    · rw [replaceMember, if_pos hfirst, List.map_cons, List.map_cons, hfirst]
    · have hrest : (List.lookup key rest).isSome = true := by
        rwa [List.lookup_cons, beq_false_of_ne (Ne.symm hfirst)] at hsome
      rw [replaceMember, if_neg hfirst, List.map_cons, List.map_cons, ih hrest]

theorem mem_replaceMember {key : String} {node : Node} {member : String × Node}
    (hmem : member ∈ replaceMember key node members) : member = (key, node) ∨ member ∈ members := by
  induction members with
  | nil => exact .inl (List.mem_singleton.1 hmem)
  | cons first rest ih =>
    by_cases hfirst : first.1 = key
    · rw [replaceMember, if_pos hfirst] at hmem
      exact (List.mem_cons.1 hmem).imp_right (List.mem_cons_of_mem _)
    · rw [replaceMember, if_neg hfirst] at hmem
      obtain rfl | hmem := List.mem_cons.1 hmem
      · exact .inr (List.mem_cons_self ..)
      · exact (ih hmem).imp_right (List.mem_cons_of_mem _)

theorem replace (h : members.IsDistinct) {key : String} {old node : Node} (hlookup : members.lookup key = some old)
    (hnode : node.IsDistinct) : Members.IsDistinct (replaceMember key node members) := by
  constructor
  · rw [names_replaceMember (by rw [hlookup]; rfl)]
    exact h.nodup
  · intro member hmem
    obtain rfl | hmem := mem_replaceMember hmem
    · exact hnode
    · exact h.members member hmem

end Members.IsDistinct

namespace Node.IsDistinct

theorem inner {origin : Origin} {members : Members} (h : (Node.table origin members).IsDistinct) :
    members.IsDistinct := by
  cases h with
  | table hnodup hmembers => exact ⟨hnodup, hmembers⟩

theorem of_inner {origin : Origin} {members : Members} (h : members.IsDistinct) :
    (Node.table origin members).IsDistinct := .table h.nodup h.members

theorem item {tables : List Members} (h : (Node.items tables).IsDistinct) {members : Members}
    (hmem : members ∈ tables) : members.IsDistinct := by
  cases h with
  | items hnodup hmembers => exact ⟨hnodup members hmem, hmembers members hmem⟩

theorem of_items {tables : List Members} (h : ∀ members ∈ tables, members.IsDistinct) :
    (Node.items tables).IsDistinct := .items (fun m hm => (h m hm).nodup) fun m hm => (h m hm).members

/-- The last of a list of tables replaced. -/
theorem replace_last {last last' : Members} {before : List Members}
    (h : (Node.items (last :: before)).IsDistinct) (hlast : last'.IsDistinct) :
    (Node.items (last' :: before)).IsDistinct := by
  refine of_items fun members hmem => ?_
  obtain rfl | hmem := List.mem_cons.1 hmem
  · exact hlast
  · exact h.item (List.mem_cons_of_mem _ hmem)

end Node.IsDistinct

/-! ### One statement -/

theorem isDistinct_of_assign {path : List String} {value : Document} (hvalue : value.IsDistinct) {members : Members}
    (h : members.IsDistinct) {members' : Members} (hassign : assign path value members = some members') :
    members'.IsDistinct := by
  fun_induction assign path value members generalizing members' with
  | case1 | case2 | case6 | case8 | case10 => cases hassign
  | case3 key value members hnone =>
    cases hassign
    exact h.append (Option.not_isSome_iff_eq_none.1 hnone) (.value hvalue)
  | case4 key path value members hpath hnone ih =>
    obtain ⟨inner, hinner, rfl⟩ := Option.map_eq_some_iff.1 hassign
    exact h.append hnone (.of_inner (ih hvalue .nil hinner))
  | case5 key path value members hpath inner hlookup ih =>
    obtain ⟨inner', hinner, rfl⟩ := Option.map_eq_some_iff.1 hassign
    exact h.replace hlookup (.of_inner (ih hvalue (h.of_lookup hlookup).inner hinner))
  | case7 key path value members hpath inner hlookup hlength ih =>
    obtain ⟨inner', hinner, rfl⟩ := Option.map_eq_some_iff.1 hassign
    exact h.replace hlookup (.of_inner (ih hvalue (h.of_lookup hlookup).inner hinner))
  | case9 key path value members hpath last before hlookup hlength ih =>
    obtain ⟨last', hlast, rfl⟩ := Option.map_eq_some_iff.1 hassign
    have hitems := h.of_lookup hlookup
    exact h.replace hlookup (hitems.replace_last (ih hvalue (hitems.item (List.mem_cons_self ..)) hlast))

/-- A change of members that keeps names distinct. -/
def Keeps (change : Members → Option Members) : Prop :=
  ∀ {members members'}, members.IsDistinct → change members = some members' → members'.IsDistinct

theorem isDistinct_of_within {change : Members → Option Members} (hchange : Keeps change) {path : List String}
    {members : Members} (h : members.IsDistinct) {members' : Members}
    (hwithin : within change path members = some members') : members'.IsDistinct := by
  fun_induction within change path members generalizing members' with
  | case1 members => exact hchange h hwithin
  | case2 key path members origin inner hlookup ih =>
    obtain ⟨inner', hinner, rfl⟩ := Option.map_eq_some_iff.1 hwithin
    exact h.replace hlookup (.of_inner (ih (h.of_lookup hlookup).inner hinner))
  | case3 key path members last before hlookup ih =>
    obtain ⟨last', hlast, rfl⟩ := Option.map_eq_some_iff.1 hwithin
    have hitems := h.of_lookup hlookup
    exact h.replace hlookup (hitems.replace_last (ih (hitems.item (List.mem_cons_self ..)) hlast))
  | case4 => cases hwithin

theorem isDistinct_of_make {place : String → Members → Option Members} (hplace : ∀ key, Keeps (place key))
    {path : List String} {members : Members} (h : members.IsDistinct) {members' : Members}
    (hmake : make place path members = some members') : members'.IsDistinct := by
  fun_induction make place path members generalizing members' with
  | case1 | case6 => cases hmake
  | case2 key members => exact hplace key h hmake
  | case3 key path members hpath hnone ih =>
    obtain ⟨inner, hinner, rfl⟩ := Option.map_eq_some_iff.1 hmake
    exact h.append hnone (.of_inner (ih .nil hinner))
  | case4 key path members hpath origin inner hlookup ih =>
    obtain ⟨inner', hinner, rfl⟩ := Option.map_eq_some_iff.1 hmake
    exact h.replace hlookup (.of_inner (ih (h.of_lookup hlookup).inner hinner))
  | case5 key path members hpath last before hlookup ih =>
    obtain ⟨last', hlast, rfl⟩ := Option.map_eq_some_iff.1 hmake
    have hitems := h.of_lookup hlookup
    exact h.replace hlookup (hitems.replace_last (ih (hitems.item (List.mem_cons_self ..)) hlast))

theorem keeps_placeTable (key : String) : Keeps (placeTable key) := by
  intro members members' h hplace
  unfold placeTable at hplace
  split at hplace
  case h_1 hnone =>
    cases hplace
    exact h.append hnone (.of_inner .nil)
  case h_2 inner hlookup =>
    cases hplace
    exact h.replace hlookup (.of_inner (h.of_lookup hlookup).inner)
  case h_3 => cases hplace

theorem keeps_placeItem (key : String) : Keeps (placeItem key) := by
  intro members members' h hplace
  have hnil : ∀ {tables : List Members}, (∀ members ∈ tables, members.IsDistinct) →
      (Node.items ([] :: tables)).IsDistinct := by
    intro tables htables
    refine .of_items fun members hmem => ?_
    obtain rfl | hmem := List.mem_cons.1 hmem
    · exact .nil
    · exact htables members hmem
  unfold placeItem at hplace
  split at hplace
  case h_1 hnone =>
    cases hplace
    exact h.append hnone (hnil nofun)
  case h_2 tables hlookup =>
    cases hplace
    exact h.replace hlookup (hnil fun members hmem => (h.of_lookup hlookup).item hmem)
  case h_3 => cases hplace

/-! ### Documents -/

theorem map_fst_documents (members : List (String × Node)) : (documents members).map (·.1) = members.map (·.1) := by
  induction members with
  | nil => rw [documents]; rfl
  | cons member rest ih =>
    obtain ⟨key, node⟩ := member
    rw [documents, List.map_cons, List.map_cons, ih]

theorem mem_documents {members : List (String × Node)} {entry : String × Document} (h : entry ∈ documents members) :
    ∃ node, (entry.1, node) ∈ members ∧ entry.2 = node.toDocument := by
  induction members with
  | nil => rw [documents] at h; cases h
  | cons member rest ih =>
    obtain ⟨key, node⟩ := member
    rw [documents] at h
    obtain rfl | h := List.mem_cons.1 h
    · exact ⟨node, List.mem_cons_self .., rfl⟩
    · obtain ⟨node', hmem, heq⟩ := ih h
      exact ⟨node', List.mem_cons_of_mem _ hmem, heq⟩

theorem mem_tableDocuments {tables : List (List (String × Node))} {document : Document}
    (h : document ∈ tableDocuments tables) : ∃ members ∈ tables, document = .table (documents members) := by
  induction tables with
  | nil => rw [tableDocuments] at h; cases h
  | cons members rest ih =>
    rw [tableDocuments] at h
    obtain rfl | h := List.mem_cons.1 h
    · exact ⟨members, List.mem_cons_self .., rfl⟩
    · obtain ⟨members', hmem, heq⟩ := ih h
      exact ⟨members', List.mem_cons_of_mem _ hmem, heq⟩

/-- A table of documents that are distinct each. -/
theorem isDistinct_table {members : Members} (hnodup : (members.map (·.1)).Nodup)
    (hmembers : ∀ member ∈ members, member.2.toDocument.IsDistinct) :
    (Document.table (documents members)).IsDistinct := by
  refine .table (by rwa [map_fst_documents]) fun entry hentry => ?_
  obtain ⟨node, hmem, heq⟩ := mem_documents hentry
  rw [heq]
  exact hmembers _ hmem

theorem Node.IsDistinct.toDocument {node : Node} (h : node.IsDistinct) : node.toDocument.IsDistinct := by
  induction h with
  | value h =>
    rw [Node.toDocument]
    exact h
  | table hnodup _ ih =>
    rw [Node.toDocument]
    exact isDistinct_table hnodup ih
  | items hnodup _ ih =>
    rw [Node.toDocument]
    refine .list fun item hitem => ?_
    obtain ⟨members, hmem, rfl⟩ := mem_tableDocuments (List.mem_reverse.1 hitem)
    exact isDistinct_table (hnodup members hmem) (ih members hmem)

theorem Members.IsDistinct.toDocument {members : Members} (h : members.IsDistinct) :
    (Document.table (documents members)).IsDistinct :=
  isDistinct_table h.nodup fun member hmem => (h.members member hmem).toDocument

/-! ### Values -/

/-- What is no list and no table. -/
def IsAtom : Document → Prop
  | .list _ | .table _ => False
  | _ => True

theorem IsAtom.isDistinct {document : Document} (h : IsAtom document) : document.IsDistinct := by
  cases document with
  | null => exact .null
  | bool b => exact .bool b
  | integer n => exact .integer n
  | float x => exact .float x
  | text s => exact .text s
  | date s => exact .date s
  | list | table => exact h.elim

/-- A value whose lists and tables are written as such. -/
inductive Value.HasAtoms : Value → Prop
  | scalar {document : Document} (h : IsAtom document) : HasAtoms (.scalar document)
  | array {items : List Value} (hitems : ∀ item ∈ items, HasAtoms item) : HasAtoms (.array items)
  | inlineTable {members : List (List String × Value)} (hmembers : ∀ member ∈ members, HasAtoms member.2) :
    HasAtoms (.inlineTable members)

theorem isAtom_of_scalarValue? {input : List Char} {document : Document} (h : scalarValue? input = some document) :
    IsAtom document := by
  unfold scalarValue? at h
  split at h
  · cases h; trivial
  split at h
  · cases h; trivial
  split at h
  · split at h
    · cases h; trivial
    · cases h
  · obtain h | ⟨-, h⟩ := Option.or_eq_some_iff.1 h
    · obtain ⟨x, -, rfl⟩ := Option.map_eq_some_iff.1 h
      trivial
    · obtain ⟨x, -, rfl⟩ := Option.map_eq_some_iff.1 h
      trivial

theorem hasAtoms_of_splitRun {input rest : List Token} {value : Value} (h : splitRun input = some (value, rest)) :
    value.HasAtoms := by
  have hscalar : ∀ {run : List Char} {after : List Token},
      (scalarValue? run).map (fun value => (Value.scalar value, after)) = some (value, rest) → value.HasAtoms := by
    intro run after h
    obtain ⟨document, hdocument, heq⟩ := Option.map_eq_some_iff.1 h
    cases heq
    exact .scalar (isAtom_of_scalarValue? hdocument)
  unfold splitRun at h
  dsimp only at h
  split at h
  · split at h <;> exact hscalar h
  · exact hscalar h

mutual

theorem hasAtoms_of_splitValue (depth : Nat) {input rest : List Token} {value : Value}
    (h : splitValue depth input = some (value, rest)) : value.HasAtoms := by
  unfold splitValue at h
  split at h
  · cases h
  · cases h
    exact .scalar trivial
  · obtain ⟨⟨items, after⟩, hitems, heq⟩ := Option.map_eq_some_iff.1 h
    cases heq
    exact .array (hasAtoms_of_splitItems _ (List.forall_mem_nil _) hitems)
  · obtain ⟨⟨members, after⟩, hmembers, heq⟩ := Option.map_eq_some_iff.1 h
    cases heq
    exact .inlineTable (hasAtoms_of_splitMembers _ (List.forall_mem_nil _) hmembers)
  · exact hasAtoms_of_splitRun h

theorem hasAtoms_of_splitItems (depth : Nat) {seen : List Value} (hseen : ∀ item ∈ seen, item.HasAtoms)
    {input rest : List Token} {items : List Value} (h : splitItems depth seen input = some (items, rest)) :
    ∀ item ∈ items, item.HasAtoms := by
  have hnext : ∀ {value : Value}, value.HasAtoms → ∀ item ∈ value :: seen, item.HasAtoms := by
    intro value hvalue item hitem
    obtain rfl | hitem := List.mem_cons.1 hitem
    · exact hvalue
    · exact hseen item hitem
  unfold splitItems at h
  split at h
  · cases h
  · cases h
    exact fun item hitem => hseen item (List.mem_reverse.1 hitem)
  · split at h
    · cases h
    · rename_i value after hvalue
      have hvalue := hasAtoms_of_splitValue _ hvalue
      split at h
      · exact hasAtoms_of_splitItems _ (hnext hvalue) h
      · cases h
        exact fun item hitem => hnext hvalue item (List.mem_reverse.1 hitem)
      · cases h

theorem hasAtoms_of_splitMembers (depth : Nat) {seen : List (List String × Value)}
    (hseen : ∀ member ∈ seen, member.2.HasAtoms) {input rest : List Token} {members : List (List String × Value)}
    (h : splitMembers depth seen input = some (members, rest)) : ∀ member ∈ members, member.2.HasAtoms := by
  have hnext : ∀ {path : List String} {value : Value}, value.HasAtoms →
      ∀ member ∈ (path, value) :: seen, member.2.HasAtoms := by
    intro path value hvalue member hmember
    obtain rfl | hmember := List.mem_cons.1 hmember
    · exact hvalue
    · exact hseen member hmember
  unfold splitMembers at h
  split at h
  · cases h
  · cases h
    exact fun member hmember => hseen member (List.mem_reverse.1 hmember)
  · split at h
    · split at h
      · cases h
      · rename_i value after hvalue
        have hvalue := hasAtoms_of_splitValue _ hvalue
        split at h
        · exact hasAtoms_of_splitMembers _ (hnext hvalue) h
        · cases h
          exact fun member hmember => hnext hvalue member (List.mem_reverse.1 hmember)
        · cases h
    · cases h

end

mutual

theorem isDistinct_of_toDocument? {value : Value} (hvalue : value.HasAtoms) {document : Document}
    (h : value.toDocument? = some document) : document.IsDistinct := by
  match value with
  | .scalar scalar =>
    rw [Value.toDocument?] at h
    cases h
    cases hvalue with
    | scalar hatom => exact hatom.isDistinct
  | .array items =>
    rw [Value.toDocument?] at h
    obtain ⟨documents, hdocuments, rfl⟩ := Option.map_eq_some_iff.1 h
    cases hvalue with
    | array hitems => exact .list (isDistinct_of_itemDocuments? hitems hdocuments)
  | .inlineTable members =>
    rw [Value.toDocument?] at h
    obtain ⟨members', hmembers', rfl⟩ := Option.map_eq_some_iff.1 h
    cases hvalue with
    | inlineTable hmembers => exact (isDistinct_of_inlineMembers? hmembers .nil hmembers').toDocument

theorem isDistinct_of_itemDocuments? {items : List Value} (hitems : ∀ item ∈ items, item.HasAtoms)
    {documents : List Document} (h : itemDocuments? items = some documents) :
    ∀ document ∈ documents, document.IsDistinct := by
  match items with
  | [] =>
    rw [itemDocuments?] at h
    cases h
    exact nofun
  | item :: rest =>
    rw [itemDocuments?] at h
    split at h
    · cases h
    · rename_i first hfirst
      obtain ⟨others, hothers, rfl⟩ := Option.map_eq_some_iff.1 h
      intro document hdocument
      obtain rfl | hdocument := List.mem_cons.1 hdocument
      · exact isDistinct_of_toDocument? (hitems item (List.mem_cons_self ..)) hfirst
      · exact isDistinct_of_itemDocuments? (fun item hitem => hitems item (List.mem_cons_of_mem _ hitem)) hothers
          document hdocument

theorem isDistinct_of_inlineMembers? {members : Members} {entries : List (List String × Value)}
    (hentries : ∀ entry ∈ entries, entry.2.HasAtoms) (hmembers : members.IsDistinct) {members' : Members}
    (h : inlineMembers? members entries = some members') : members'.IsDistinct := by
  match entries with
  | [] =>
    rw [inlineMembers?] at h
    cases h
    exact hmembers
  | (path, value) :: rest =>
    rw [inlineMembers?] at h
    split at h
    · cases h
    · rename_i document hdocument
      split at h
      · cases h
      · rename_i next hnext
        have hvalue := isDistinct_of_toDocument? (hentries (path, value) (List.mem_cons_self ..)) hdocument
        exact isDistinct_of_inlineMembers? (fun entry hentry => hentries entry (List.mem_cons_of_mem _ hentry))
          (isDistinct_of_assign hvalue hmembers hnext) h

end

/-! ### Texts -/

/-- A statement whose value, if it has one, is written out. -/
def Statement.HasAtoms : Statement → Prop
  | .assign _ value => value.HasAtoms
  | _ => True

theorem hasAtoms_of_splitStatement {input rest : List Token} {statement : Statement}
    (h : splitStatement input = some (statement, rest)) : statement.HasAtoms := by
  unfold splitStatement at h
  split at h
  · split at h
    · cases h; trivial
    · cases h
  · split at h
    · cases h; trivial
    · cases h
  · split at h
    · obtain ⟨⟨value, after⟩, hvalue, heq⟩ := Option.map_eq_some_iff.1 h
      cases heq
      exact hasAtoms_of_splitValue _ hvalue
    · cases h

theorem hasAtoms_of_statementsAfter {depth : Nat} {seen : List Statement} (hseen : ∀ s ∈ seen, s.HasAtoms)
    {input : List Token} {statements : List Statement} (h : statementsAfter seen depth input = some statements) :
    ∀ s ∈ statements, s.HasAtoms := by
  fun_induction statementsAfter seen depth input with
  | case1 =>
    cases h
    exact fun s hs => hseen s (List.mem_reverse.1 hs)
  | case2 | case3 | case6 => cases h
  | case4 seen input depth statement rest hrest hlines hstatement =>
    cases h
    intro s hs
    obtain rfl | hs := List.mem_cons.1 (List.mem_reverse.1 hs)
    · exact hasAtoms_of_splitStatement hstatement
    · exact hseen s hs
  | case5 seen input depth statement rest after hrest hlines hstatement ih =>
    refine ih (fun s hs => ?_) h
    obtain rfl | hs := List.mem_cons.1 hs
    · exact hasAtoms_of_splitStatement hstatement
    · exact hseen s hs

theorem isDistinct_of_step {draft draft' : Draft} (hdraft : draft.members.IsDistinct) {statement : Statement}
    (hstatement : statement.HasAtoms) (h : draft.step statement = some draft') : draft'.members.IsDistinct := by
  cases statement with
  | assign path value =>
    obtain ⟨document, hdocument, h⟩ := Option.bind_eq_some_iff.1 h
    obtain ⟨members, hmembers, rfl⟩ := Option.map_eq_some_iff.1 h
    have hvalue := isDistinct_of_toDocument? hstatement hdocument
    exact isDistinct_of_within (fun hmembers => isDistinct_of_assign hvalue hmembers) hdraft hmembers
  | openTable path =>
    obtain ⟨members, hmembers, rfl⟩ := Option.map_eq_some_iff.1 h
    exact isDistinct_of_make keeps_placeTable hdraft hmembers
  | openItem path =>
    obtain ⟨members, hmembers, rfl⟩ := Option.map_eq_some_iff.1 h
    exact isDistinct_of_make keeps_placeItem hdraft hmembers

theorem isDistinct_of_foldlM {statements : List Statement} (hstatements : ∀ s ∈ statements, s.HasAtoms)
    {draft draft' : Draft} (hdraft : draft.members.IsDistinct)
    (h : statements.foldlM Draft.step draft = some draft') : draft'.members.IsDistinct := by
  induction statements generalizing draft with
  | nil =>
    cases h
    exact hdraft
  | cons statement rest ih =>
    rw [List.foldlM_cons] at h
    obtain ⟨next, hnext, h⟩ := Option.bind_eq_some_iff.1 h
    have hkept := isDistinct_of_step hdraft (hstatements statement (List.mem_cons_self ..)) hnext
    exact ih (fun s hs => hstatements s (List.mem_cons_of_mem _ hs)) hkept h

/-- The document of a text is a table, in which no name comes twice at any depth. -/
theorem isDistinct_of_document? {text : String} {document : Document} (h : document? text = some document) :
    ∃ members, document = .table members ∧ document.IsDistinct := by
  obtain ⟨statements, hstatements, h⟩ := Option.bind_eq_some_iff.1 h
  obtain ⟨draft, hdraft, rfl⟩ := Option.map_eq_some_iff.1 h
  obtain ⟨tokens, -, hstatements⟩ := Option.bind_eq_some_iff.1 hstatements
  have hatoms := hasAtoms_of_statementsAfter (List.forall_mem_nil _) hstatements
  exact ⟨_, rfl, (isDistinct_of_foldlM hatoms .nil hdraft).toDocument⟩

end Toml

end SpeechDispatch
