import SpeechDispatch.Proofs.JsonNumber

/-!
# Records are read from the members of an object

Of an object that the grammar derives, a record takes for each field the value of the one member that has one of its
names (`IsObject.record?_eq_some_iff`), if the keys of all members are names (`IsObject.record?_of_unnamed`).  What the
value of a field is read as, it writes (`text?_firstLexeme`, `int64?_firstLexeme`).  Objects written without white
space have the members that were written (`isObject_objectText`, `hasField_written`).
-/

namespace SpeechDispatch.Json

/-- The name for which the key of a member stands, if it stands for a text. -/
def Member.name? (member : Member) : Option String := Text.resolve? member.key

/-- The values of the members that have one of these names, as they are written. -/
def valuesUnder (names : List String) (members : List Member) : List Bytes :=
  (members.filter fun member => member.name?.any names.contains).map (·.value)

/-- The value of just one member has one of these names, and it is such. -/
def HasField (members : List Member) (names : List String) (IsSuch : Bytes → Prop) : Prop :=
  ∃ value, valuesUnder names members = [value] ∧ IsSuch value

theorem HasField.cons_of_unnamed {members : List Member} {names : List String} {IsSuch : Bytes → Prop}
    (h : HasField members names IsSuch) {member : Member} (hname : member.name? = none) :
    HasField (member :: members) names IsSuch := by
  have hother : member.name?.any names.contains = false := by rw [hname, Option.any_none]
  have hvalues : valuesUnder names (member :: members) = valuesUnder names members := by
    simp only [valuesUnder, List.filter_cons, hother, Bool.false_eq_true, if_false]
  rw [HasField, hvalues]
  exact h

/-! ### Keys -/

/-- A member with its name. -/
private def Member.named (member : Member) : String × Lexeme := (member.name?.getD "", firstLexeme member.value)

private theorem readKeys_of_named {members : List Member} (hnamed : ∀ member ∈ members, member.name?.isSome = true) :
    readKeys (members.map Member.entry) = some (members.map Member.named) := by
  induction members with
  | nil => rfl
  | cons member rest ih =>
    obtain ⟨hname, hrest⟩ := List.forall_mem_cons.1 hnamed
    obtain ⟨name, hname⟩ := Option.isSome_iff_exists.1 hname
    have hkey : Text.resolve? member.key = some name := hname
    simp only [List.map_cons, readKeys, Member.entry, hkey, ih hrest, Member.named, hname, Option.getD_some]

private theorem readKeys_of_unnamed {members : List Member} {member : Member} (hmem : member ∈ members)
    (hname : member.name? = none) : readKeys (members.map Member.entry) = none := by
  induction members with
  | nil => cases hmem
  | cons first rest ih =>
    rcases List.mem_cons.1 hmem with rfl | hmem
    · have hkey : Text.resolve? member.key = none := hname
      simp only [List.map_cons, readKeys, Member.entry, hkey]
    · simp only [List.map_cons, readKeys, ih hmem]
      cases Text.resolve? (Member.entry first).1 <;> rfl

private theorem single?_eq_some_iff {members : List Member}
    (hnamed : ∀ member ∈ members, member.name?.isSome = true) {names : List String} {lexeme : Lexeme} :
    single? names (members.map Member.named) = some lexeme ↔ HasField members names (firstLexeme · = lexeme) := by
  have hfilter : (members.map Member.named).filter (fun entry => names.contains entry.1) =
      (members.filter fun member => member.name?.any names.contains).map Member.named := by
    rw [List.filter_map]
    refine congrArg _ (List.filter_congr fun member hmem => ?_)
    obtain ⟨name, hname⟩ := Option.isSome_iff_exists.1 (hnamed member hmem)
    simp only [Function.comp_apply, Member.named, hname, Option.getD_some, Option.any_some]
  unfold single? HasField valuesUnder
  rw [hfilter]
  generalize members.filter (fun member => member.name?.any names.contains) = found
  constructor
  · rcases found with _ | ⟨first, _ | ⟨second, rest⟩⟩ <;> intro h
    · cases h
    · exact ⟨first.value, rfl, Option.some.inj h⟩
    · cases h
  · rintro ⟨value, hvalues, rfl⟩
    obtain ⟨member, rfl, rfl⟩ := List.map_eq_singleton_iff.1 hvalues
    rfl

namespace IsObject

variable {members : List Member} {body : Bytes}

/-- A record is read if each of its fields stands among the members just once. -/
theorem record?_eq_some_iff (h : IsObject members body) (hnamed : ∀ member ∈ members, member.name?.isSome = true)
    {fields : List (List String)} {lexemes : List Lexeme} : record? fields body = some lexemes ↔
      List.Forall₂ (fun names lexeme => HasField members names (firstLexeme · = lexeme)) fields lexemes := by
  have hrecord : record? fields body = fields.mapM (single? · (members.map Member.named)) := by
    simp only [record?, h.composite?_eq, readKeys_of_named hnamed, Option.bind_some]
  rw [hrecord]
  clear hrecord
  induction fields generalizing lexemes with
  | nil =>
    rw [List.mapM_nil]
    constructor
    · intro hnil
      obtain rfl := Option.some.inj hnil
      exact .nil
    · rintro ⟨⟩
      rfl
  | cons names fields ih =>
    rw [List.mapM_cons, Option.bind_eq_bind, Option.bind_eq_some_iff]
    constructor
    · rintro ⟨first, hfirst, hlater⟩
      obtain ⟨rest, hrest, heq⟩ := Option.bind_eq_some_iff.1 hlater
      obtain rfl := Option.some.inj heq
      exact .cons ((single?_eq_some_iff hnamed).1 hfirst) (ih.1 hrest)
    · rintro (_ | ⟨hfirst, hrest⟩)
      exact ⟨_, (single?_eq_some_iff hnamed).2 hfirst, Option.bind_eq_some_iff.2 ⟨_, ih.2 hrest, rfl⟩⟩

theorem isValue_of_valuesUnder (h : IsObject members body) {names : List String} {value : Bytes}
    (hvalue : valuesUnder names members = [value]) : IsValue value := by
  obtain ⟨member, hmember, rfl⟩ := List.map_eq_singleton_iff.1 hvalue
  exact h.isValue member (List.mem_filter.1 (hmember ▸ List.mem_singleton_self member)).1

theorem record?_of_unnamed (h : IsObject members body) {member : Member} (hmem : member ∈ members)
    (hname : member.name? = none) (fields : List (List String)) : record? fields body = none := by
  simp only [record?, h.composite?_eq, readKeys_of_unnamed hmem hname, Option.bind_none]

/-- Of an object that is read, the keys of all members are names. -/
theorem isSome_name?_of_record? (h : IsObject members body) {fields : List (List String)} {lexemes : List Lexeme}
    (hread : record? fields body = some lexemes) : ∀ member ∈ members, member.name?.isSome = true := by
  intro member hmem
  by_contra hname
  rw [h.record?_of_unnamed hmem (Option.not_isSome_iff_eq_none.1 hname)] at hread
  cases hread

end IsObject

/-! ### Values of fields -/

/-- A value that writes a text. -/
def WritesText (value : Bytes) (text : String) : Prop :=
  ∃ raw, value = quote :: (raw ++ [quote]) ∧ Text.resolve? raw = some text

/-- A value that writes a whole number of 64 bits with a sign. -/
def WritesInt64 (value : Bytes) (n : Int) : Prop := value = Bytes.ofText (toString n) ∧ isInt64 n = true

/-- What a value is read as when a text is wanted, it writes. -/
theorem text?_firstLexeme {value : Bytes} (h : IsValue value) {text : String} :
    (firstLexeme value).text? = some text ↔ WritesText value text := by
  have hother : ∀ {value : Bytes}, value.head? ≠ some quote → ¬ WritesText value text := by
    rintro _ hne ⟨raw, rfl, -⟩
    exact hne rfl
  cases h with
  | @text raw h =>
    rw [firstLexeme_text h]
    constructor
    · exact fun hread => ⟨raw, rfl, hread⟩
    · rintro ⟨raw', hsame, hread⟩
      obtain rfl : raw = raw' := List.append_inj_left' (List.cons.inj hsame).2 rfl
      exact hread
  | number h =>
    rw [firstLexeme_number h]
    obtain ⟨b, rest, rfl, hb⟩ := h.exists_cons
    refine iff_of_false (Option.some_ne_none text).symm (hother fun heq => ?_)
    obtain rfl := Option.some.inj heq
    exact absurd hb (by decide)
  | word h =>
    rw [firstLexeme_word h]
    refine iff_of_false (Option.some_ne_none text).symm (hother ?_)
    cases h <;> decide
  | emptyArray | array | emptyObject | object =>
    refine iff_of_false (Option.some_ne_none text).symm (hother ?_)
    rw [List.head?_cons]
    decide

/-- What a value is read as when a whole number is wanted, it writes. -/
theorem int64?_firstLexeme {value : Bytes} (h : IsValue value) {n : Int} :
    (firstLexeme value).int64? = some n ↔ WritesInt64 value n := by
  have hother : ∀ {b : UInt8} {rest : Bytes}, ¬ (b = 0x2d ∨ isDigit b = true) → ¬ WritesInt64 (b :: rest) n := by
    rintro b rest hnot ⟨hvalue, -⟩
    obtain ⟨b', rest', hwritten, hb⟩ := (isNumber_ofText n).exists_cons
    rw [hwritten] at hvalue
    exact hnot ((List.cons.inj hvalue).1 ▸ hb)
  cases h with
  | text h =>
    rw [firstLexeme_text h]
    exact iff_of_false (Option.some_ne_none n).symm (hother (by decide))
  | number h =>
    rw [firstLexeme_number h]
    exact int64?_eq_some_iff h
  | word h =>
    rw [firstLexeme_word h]
    cases h <;> exact iff_of_false (Option.some_ne_none n).symm (hother (by decide))
  | emptyArray | array | emptyObject | object =>
    exact iff_of_false (Option.some_ne_none n).symm (hother (by decide))

/-! ### Written objects -/

/-- A member without white space: its name and its value, which is written already. -/
def memberText (member : String × String) : String := Text.quoted member.1 ++ ":" ++ member.2

/-- An object without white space. -/
def objectText : List (String × String) → String
  | [] => "\x7b\x7d"
  | member :: rest =>
    "\x7b" ++ memberText member ++ String.join (rest.map fun member => "," ++ memberText member) ++ "\x7d"

/-- A member as it is written in such an object. -/
def writtenMember (member : String × String) : Member := ⟨Text.inside member.1, Bytes.ofText member.2⟩

theorem isValue_quoted (text : String) : IsValue (Bytes.ofText (Text.quoted text)) := by
  rw [Text.ofText_quoted]
  exact .text (Text.isInside_inside text)

theorem writesText_quoted (text : String) : WritesText (Bytes.ofText (Text.quoted text)) text :=
  ⟨Text.inside text, Text.ofText_quoted text, Text.resolve?_inside text⟩

theorem isMember_memberText {member : String × String} (h : IsValue (Bytes.ofText member.2)) :
    IsMember (writtenMember member) (Bytes.ofText (memberText member)) := by
  have hcolon : Bytes.ofText ":" = [0x3a] := rfl
  have helement : IsElement (Bytes.ofText member.2) (Bytes.ofText member.2) := by
    have hbare := IsElement.mk areSpaces_nil h areSpaces_nil
    rw [List.nil_append, List.append_nil] at hbare
    exact hbare
  have hmember : IsMember (writtenMember member) _ :=
    .mk areSpaces_nil (Text.isInside_inside member.1) areSpaces_nil helement
  rw [memberText, Bytes.ofText_append, Bytes.ofText_append, hcolon, Text.ofText_quoted]
  simpa only [List.nil_append, List.cons_append, List.append_assoc] using hmember

/-- The grammar derives written objects, if it derives their values. -/
theorem isObject_objectText {members : List (String × String)}
    (h : ∀ member ∈ members, IsValue (Bytes.ofText member.2)) :
    IsObject (members.map writtenMember) (Bytes.ofText (objectText members)) := by
  have hopen : Bytes.ofText "\x7b" = [0x7b] := rfl
  have hclose : Bytes.ofText "\x7d" = [0x7d] := rfl
  have hcomma : Bytes.ofText "," = [0x2c] := rfl
  cases members with
  | nil =>
    have hempty : IsObject [] _ := .empty areSpaces_nil areSpaces_nil areSpaces_nil
    have hbytes : Bytes.ofText (objectText []) = [0x7b, 0x7d] := rfl
    rw [hbytes]
    exact hempty
  | cons member rest =>
    have hmembers : AreMembers ((member :: rest).map writtenMember) (Bytes.ofText (memberText member) ++
        (rest.map fun member => "," ++ memberText member).flatMap Bytes.ofText) := by
      induction rest generalizing member with
      | nil =>
        rw [List.map_nil, List.flatMap_nil, List.append_nil]
        exact .single (isMember_memberText (h member (List.mem_cons_self ..)))
      | cons second rest ih =>
        obtain ⟨hmember, hrest⟩ := List.forall_mem_cons.1 h
        have hall := AreMembers.cons (isMember_memberText hmember) (ih second hrest)
        simp only [List.map_cons, List.flatMap_cons, Bytes.ofText_append, hcomma]
        exact hall
    have hobject : IsObject _ _ := .members areSpaces_nil hmembers areSpaces_nil
    simp only [objectText, Bytes.ofText_append, Bytes.ofText_join, hopen, hclose]
    simpa only [List.nil_append, List.cons_append, List.append_assoc] using hobject

theorem hasField_written {members : List (String × String)} {names : List String} {value : String}
    (h : (members.filter fun member => names.contains member.1).map (·.2) = [value]) {IsSuch : Bytes → Prop}
    (hsuch : IsSuch (Bytes.ofText value)) : HasField (members.map writtenMember) names IsSuch := by
  refine ⟨_, ?_, hsuch⟩
  have hname : ∀ member : String × String,
      (writtenMember member).name?.any names.contains = names.contains member.1 := by
    intro member
    change (Text.resolve? (Text.inside member.1)).any _ = _
    rw [Text.resolve?_inside, Option.any_some]
  unfold valuesUnder
  rw [List.filter_map, List.map_map, ← List.map_singleton, ← h, List.map_map]
  simp only [Function.comp_def, hname]
  rfl

theorem isSome_name?_written (members : List (String × String)) :
    ∀ member ∈ members.map writtenMember, member.name?.isSome = true := by
  intro member hmem
  obtain ⟨written, -, rfl⟩ := List.mem_map.1 hmem
  change (Text.resolve? (Text.inside written.1)).isSome = true
  rw [Text.resolve?_inside]
  rfl

end SpeechDispatch.Json
