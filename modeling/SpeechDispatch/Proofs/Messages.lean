import SpeechDispatch.Message.FailureNotice
import SpeechDispatch.Message.Samples
import SpeechDispatch.Proofs.JsonRecord

/-!
# Messages are read as they were written

Each message is written as an object without white space (`Registration.encode_eq`, `WorkItem.encode_eq`).  From an
object the decoders read the fields wherever they stand among the members (`Registration.decode_of_fieldsIn`,
`WorkItem.decode_of_fieldsIn`), so they read what was written.  An object without these fields is malformed
(`Registration.decode_of_not_fieldsIn`, `WorkItem.decode_of_not_fieldsIn`).
-/

namespace SpeechDispatch

open Json

/-! ### Failure notices -/

theorem FailureNotice.encode_eq (notice : FailureNotice) :
    notice.encode = objectText [("id", Text.quoted notice.id), ("error", Text.quoted notice.error),
      ("failure_count", toString notice.failureCount)] := by
  have hid : "\x7b\"id\":" = "\x7b" ++ (Text.quoted "id" ++ ":") := rfl
  have herror : ",\"error\":" = "," ++ (Text.quoted "error" ++ ":") := rfl
  have hcount : ",\"failure_count\":" = "," ++ (Text.quoted "failure_count" ++ ":") := rfl
  simp only [encode, hid, herror, hcount, objectText, memberText, List.map_cons, List.map_nil, String.join_cons,
    String.join_nil, String.append_assoc, String.append_empty]

/-- A caller reads the notice that was written, whatever the id and the reason consist of. -/
theorem FailureNotice.decode_encode {notice : FailureNotice} (hcount : notice.failureCount < size32) :
    decode (Bytes.ofText notice.encode) = .ok notice := by
  have hnumber : IsNumber (Bytes.ofText (toString notice.failureCount)) := isNumber_ofText notice.failureCount
  have hobject : IsObject ([("id", Text.quoted notice.id), ("error", Text.quoted notice.error),
      ("failure_count", toString notice.failureCount)].map writtenMember) (Bytes.ofText notice.encode) := by
    rw [encode_eq]
    exact isObject_objectText (List.forall_mem_cons.2 ⟨isValue_quoted notice.id,
      List.forall_mem_cons.2 ⟨isValue_quoted notice.error, List.forall_mem_singleton.2 (.number hnumber)⟩⟩)
  have hrecord : record? fields (Bytes.ofText notice.encode) = some [_, _, _] :=
    (hobject.record?_eq_some_iff (isSome_name?_written _)).2
      (.cons (hasField_written rfl rfl) (.cons (hasField_written rfl rfl) (.cons (hasField_written rfl rfl) .nil)))
  simp only [decode, hrecord, (text?_firstLexeme (isValue_quoted _)).2 (writesText_quoted _),
    firstLexeme_number hnumber, uint32?_ofText hcount]

/-! ### Registrations -/

namespace Registration

/-- The fields of a registration as they stand among the members of an object, each just once and of its type. -/
structure FieldsIn (members : List Member) (queue kind : String) (timestamp : Int) : Prop where
  queue : HasField members ["queue"] (WritesText · queue)
  kind : HasField members ["type"] (WritesText · kind)
  timestamp : HasField members ["timestamp"] (WritesInt64 · timestamp)

variable {members : List Member} {body : Bytes}

/-- From an object the fields are read, wherever they stand. -/
theorem decode_of_fieldsIn (h : IsObject members body) (hnamed : ∀ member ∈ members, member.name?.isSome = true)
    {queue kind : String} {timestamp : Int} (hfields : FieldsIn members queue kind timestamp) :
    decode body = if isBlank queue = true then .error (.protocol .missingQueue)
      else (RegistrationKind.ofWord kind).map fun kind => ⟨queue, kind, timestamp⟩ := by
  obtain ⟨value, hvalue, hqueue⟩ := hfields.queue
  obtain ⟨value', hvalue', hkind⟩ := hfields.kind
  obtain ⟨value'', hvalue'', htimestamp⟩ := hfields.timestamp
  have hrecord := (h.record?_eq_some_iff hnamed).2
    (.cons ⟨value, hvalue, rfl⟩ (.cons ⟨value', hvalue', rfl⟩ (.cons ⟨value'', hvalue'', rfl⟩ .nil)))
  simp only [decode, fields, hrecord, (text?_firstLexeme (h.isValue_of_valuesUnder hvalue)).2 hqueue,
    (text?_firstLexeme (h.isValue_of_valuesUnder hvalue')).2 hkind,
    (int64?_firstLexeme (h.isValue_of_valuesUnder hvalue'')).2 htimestamp]

theorem decode_of_unnamed (h : IsObject members body) {member : Member} (hmem : member ∈ members)
    (hname : member.name? = none) : decode body = .error malformed := by
  rw [decode, h.record?_of_unnamed hmem hname]

/-- An object without these fields is refused for its form. -/
theorem decode_of_not_fieldsIn (h : IsObject members body)
    (hnot : ∀ queue kind timestamp, ¬ FieldsIn members queue kind timestamp) : decode body = .error malformed := by
  unfold decode
  split
  · rename_i hrecord
    rcases (h.record?_eq_some_iff (h.isSome_name?_of_record? hrecord)).1 hrecord with _ |
      ⟨⟨value, hvalue, rfl⟩, _ | ⟨⟨value', hvalue', rfl⟩, _ | ⟨⟨value'', hvalue'', rfl⟩, -⟩⟩⟩
    split
    · rename_i hqueue hkind htimestamp
      have hfields : FieldsIn members _ _ _ :=
        { queue := ⟨value, hvalue, (text?_firstLexeme (h.isValue_of_valuesUnder hvalue)).1 hqueue⟩
          kind := ⟨value', hvalue', (text?_firstLexeme (h.isValue_of_valuesUnder hvalue')).1 hkind⟩
          timestamp := ⟨value'', hvalue'', (int64?_firstLexeme (h.isValue_of_valuesUnder hvalue'')).1 htimestamp⟩ }
      exact absurd hfields (hnot _ _ _)
    · rfl
  · rfl

/-- Written members are read, in whatever order they stand. -/
private theorem decode_objectText {members : List (String × String)} {queue kind : String} {timestamp : Int}
    (hvalues : ∀ member ∈ members, IsValue (Bytes.ofText member.2))
    (hqueue : (members.filter fun member => ["queue"].contains member.1).map (·.2) = [Text.quoted queue])
    (hkind : (members.filter fun member => ["type"].contains member.1).map (·.2) = [Text.quoted kind])
    (htimestamp : (members.filter fun member => ["timestamp"].contains member.1).map (·.2) = [toString timestamp])
    (hrange : isInt64 timestamp = true) : decode (Bytes.ofText (objectText members)) =
      if isBlank queue = true then .error (.protocol .missingQueue)
      else (RegistrationKind.ofWord kind).map fun kind => ⟨queue, kind, timestamp⟩ :=
  decode_of_fieldsIn (isObject_objectText hvalues) (isSome_name?_written members)
    { queue := hasField_written hqueue (writesText_quoted queue)
      kind := hasField_written hkind (writesText_quoted kind)
      timestamp := hasField_written htimestamp ⟨rfl, hrange⟩ }

/-- The object that has just these fields. -/
def compact (queue kind : String) (timestamp : Int) : String :=
  objectText [("queue", Text.quoted queue), ("type", Text.quoted kind), ("timestamp", toString timestamp)]

theorem decode_compact {queue kind : String} {timestamp : Int} (hrange : isInt64 timestamp = true) :
    decode (Bytes.ofText (compact queue kind timestamp)) =
      if isBlank queue = true then .error (.protocol .missingQueue)
      else (RegistrationKind.ofWord kind).map fun kind => ⟨queue, kind, timestamp⟩ :=
  decode_objectText (List.forall_mem_cons.2 ⟨isValue_quoted queue, List.forall_mem_cons.2 ⟨isValue_quoted kind,
    List.forall_mem_singleton.2 (.number (isNumber_ofText timestamp))⟩⟩) rfl rfl rfl hrange

private theorem queueKey : "\x7b\"queue\":" = "\x7b" ++ (Text.quoted "queue" ++ ":") := rfl

private theorem kindKey : ",\"type\":" = "," ++ (Text.quoted "type" ++ ":") := rfl

private theorem timestampKey : ",\"timestamp\":" = "," ++ (Text.quoted "timestamp" ++ ":") := rfl

theorem encode_eq (m : Registration) : m.encode = compact m.queue m.kind.word m.timestamp := by
  simp only [encode, compact, queueKey, kindKey, timestampKey, objectText, memberText, List.map_cons, List.map_nil,
    String.join_cons, String.join_nil, String.append_assoc, String.append_empty]

theorem decode_encode {m : Registration} (hqueue : isBlank m.queue = false) (hrange : isInt64 m.timestamp = true) :
    decode (Bytes.ofText m.encode) = .ok m := by
  rw [encode_eq, decode_compact hrange, RegistrationKind.ofWord_word]
  simp only [hqueue, Bool.false_eq_true, if_false, Except.map]

/-- The members of a sample stand in another order. -/
theorem decode_registrationBody {m : Registration} (hqueue : isBlank m.queue = false)
    (hrange : isInt64 m.timestamp = true) :
    decode (Samples.registrationBody m.queue m.kind.word m.timestamp) = .ok m := by
  have hbody : Samples.registrationBody m.queue m.kind.word m.timestamp = Bytes.ofText (objectText
      [("queue", Text.quoted m.queue), ("timestamp", toString m.timestamp), ("type", Text.quoted m.kind.word)]) := by
    simp only [Samples.registrationBody, queueKey, timestampKey, kindKey, objectText, memberText, List.map_cons,
      List.map_nil, String.join_cons, String.join_nil, String.append_assoc, String.append_empty]
  have hvalues : ∀ member ∈ [("queue", Text.quoted m.queue), ("timestamp", toString m.timestamp),
      ("type", Text.quoted m.kind.word)], IsValue (Bytes.ofText member.2) :=
    List.forall_mem_cons.2 ⟨isValue_quoted m.queue, List.forall_mem_cons.2 ⟨.number (isNumber_ofText m.timestamp),
      List.forall_mem_singleton.2 (isValue_quoted m.kind.word)⟩⟩
  rw [hbody, decode_objectText hvalues rfl rfl rfl hrange, RegistrationKind.ofWord_word]
  simp only [hqueue, Bool.false_eq_true, if_false, Except.map]

/-- What is read can be written. -/
theorem wellFormed_of_decode {body : Bytes} {m : Registration} (h : decode body = .ok m) :
    isBlank m.queue = false ∧ isInt64 m.timestamp = true := by
  unfold decode at h
  split at h
  · split at h
    · rename_i _ kind _ _ _ htimestamp
      split at h
      · cases h
      · rename_i hqueue
        cases hword : RegistrationKind.ofWord kind with
        | error e =>
          rw [hword] at h
          cases h
        | ok read =>
          rw [hword] at h
          cases h
          exact ⟨Bool.eq_false_iff.2 hqueue, isInt64_of_int64? htimestamp⟩
    · cases h
  · cases h

end Registration

/-! ### Work items -/

namespace WorkItem

/-- The fields of a work item as they stand among the members of an object, each just once and of its type. -/
structure FieldsIn (members : List Member) (id profile : String) : Prop where
  id : HasField members ["id"] (WritesText · id)
  profile : HasField members ["profile", "recognizer"] (WritesText · profile)

variable {members : List Member} {body : Bytes}

theorem decode_of_fieldsIn (h : IsObject members body) (hnamed : ∀ member ∈ members, member.name?.isSome = true)
    {id profile : String} (hfields : FieldsIn members id profile) :
    decode body = if isBlank id = true then .error (.protocol .missingItemId)
      else if isBlank profile = true then .error (.protocol (.missingProfile id)) else .ok ⟨id, profile⟩ := by
  obtain ⟨value, hvalue, hid⟩ := hfields.id
  obtain ⟨value', hvalue', hprofile⟩ := hfields.profile
  have hrecord := (h.record?_eq_some_iff hnamed).2 (.cons ⟨value, hvalue, rfl⟩ (.cons ⟨value', hvalue', rfl⟩ .nil))
  simp only [decode, fields, hrecord, (text?_firstLexeme (h.isValue_of_valuesUnder hvalue)).2 hid,
    (text?_firstLexeme (h.isValue_of_valuesUnder hvalue')).2 hprofile]

theorem decode_of_unnamed (h : IsObject members body) {member : Member} (hmem : member ∈ members)
    (hname : member.name? = none) : decode body = .error malformed := by
  rw [decode, h.record?_of_unnamed hmem hname]

/-- An object without these fields is refused for its form. -/
theorem decode_of_not_fieldsIn (h : IsObject members body) (hnot : ∀ id profile, ¬ FieldsIn members id profile) :
    decode body = .error malformed := by
  unfold decode
  split
  · rename_i hrecord
    rcases (h.record?_eq_some_iff (h.isSome_name?_of_record? hrecord)).1 hrecord with _ |
      ⟨⟨value, hvalue, rfl⟩, _ | ⟨⟨value', hvalue', rfl⟩, -⟩⟩
    split
    · rename_i hid hprofile
      have hfields : FieldsIn members _ _ :=
        { id := ⟨value, hvalue, (text?_firstLexeme (h.isValue_of_valuesUnder hvalue)).1 hid⟩
          profile := ⟨value', hvalue', (text?_firstLexeme (h.isValue_of_valuesUnder hvalue')).1 hprofile⟩ }
      exact absurd hfields (hnot _ _)
    · rfl
  · rfl

/-- The object that has just these fields, the profile under one of its names. -/
def compact (name id profile : String) : String := objectText [("id", Text.quoted id), (name, Text.quoted profile)]

theorem decode_compact {name : String} (hname : name ∈ ["profile", "recognizer"]) (id profile : String) :
    decode (Bytes.ofText (compact name id profile)) =
      if isBlank id = true then .error (.protocol .missingItemId)
      else if isBlank profile = true then .error (.protocol (.missingProfile id)) else .ok ⟨id, profile⟩ := by
  have hfields : FieldsIn ([("id", Text.quoted id), (name, Text.quoted profile)].map writtenMember) id profile := by
    rcases List.mem_cons.1 hname with rfl | hname
    · exact ⟨hasField_written rfl (writesText_quoted id), hasField_written rfl (writesText_quoted profile)⟩
    · obtain rfl := List.mem_singleton.1 hname
      exact ⟨hasField_written rfl (writesText_quoted id), hasField_written rfl (writesText_quoted profile)⟩
  exact decode_of_fieldsIn (isObject_objectText (List.forall_mem_cons.2 ⟨isValue_quoted id,
    List.forall_mem_singleton.2 (isValue_quoted profile)⟩)) (isSome_name?_written _) hfields

theorem encode_eq (item : WorkItem) : item.encode = compact "profile" item.id item.profile := by
  have hid : "\x7b\"id\":" = "\x7b" ++ (Text.quoted "id" ++ ":") := rfl
  have hprofile : ",\"profile\":" = "," ++ (Text.quoted "profile" ++ ":") := rfl
  simp only [encode, compact, hid, hprofile, objectText, memberText, List.map_cons, List.map_nil, String.join_cons,
    String.join_nil, String.append_assoc, String.append_empty]

theorem decode_encode {item : WorkItem} (hid : isBlank item.id = false) (hprofile : isBlank item.profile = false) :
    decode (Bytes.ofText item.encode) = .ok item := by
  rw [encode_eq, decode_compact (List.mem_cons_self ..)]
  simp only [hid, hprofile, Bool.false_eq_true, if_false]

/-- What is read can be written. -/
theorem wellFormed_of_decode {body : Bytes} {item : WorkItem} (h : decode body = .ok item) :
    isBlank item.id = false ∧ isBlank item.profile = false := by
  unfold decode at h
  split at h
  · split at h
    · split at h
      · cases h
      · rename_i hid
        split at h
        · cases h
        · rename_i hprofile
          cases h
          exact ⟨Bool.eq_false_iff.2 hid, Bool.eq_false_iff.2 hprofile⟩
    · cases h
  · cases h

end WorkItem

/-! ### Registrations and work items are read as they were written -/

/-- A message whose texts say something is read as it was written, with its members in either order, and whatever was
read from some body is read again after it has been written. -/
theorem messages_roundTrip :
    (∀ m : Registration, isBlank m.queue = false → isInt64 m.timestamp = true →
      Registration.decode (Bytes.ofText m.encode) = .ok m ∧
      Registration.decode (Samples.registrationBody m.queue m.kind.word m.timestamp) = .ok m) ∧
    (∀ item : WorkItem, isBlank item.id = false → isBlank item.profile = false →
      WorkItem.decode (Bytes.ofText item.encode) = .ok item ∧
      WorkItem.decode (Samples.workItemBody item.id item.profile) = .ok item) ∧
    (∀ body m, Registration.decode body = .ok m → Registration.decode (Bytes.ofText m.encode) = .ok m) ∧
    (∀ body item, WorkItem.decode body = .ok item → WorkItem.decode (Bytes.ofText item.encode) = .ok item) := by
  refine ⟨fun m hqueue hrange => ?_, fun item hid hprofile => ?_, fun body m h => ?_, fun body item h => ?_⟩
  · exact ⟨Registration.decode_encode hqueue hrange, Registration.decode_registrationBody hqueue hrange⟩
  · exact ⟨WorkItem.decode_encode hid hprofile, WorkItem.decode_encode hid hprofile⟩
  · obtain ⟨hqueue, hrange⟩ := Registration.wellFormed_of_decode h
    exact Registration.decode_encode hqueue hrange
  · obtain ⟨hid, hprofile⟩ := WorkItem.wellFormed_of_decode h
    exact WorkItem.decode_encode hid hprofile

/-- Quotes, backslashes and line ends in the name of a queue, and a time before the epoch. -/
theorem messages_roundTrip_escapes :
    isBlank "a\"\\\n" = false ∧ isInt64 (-5) = true ∧
    Registration.decode (Bytes.ofText (Registration.encode ⟨"a\"\\\n", .beat, -5⟩)) = .ok ⟨"a\"\\\n", .beat, -5⟩ ∧
    isBlank "\t1" = false ∧ WorkItem.decode (Bytes.ofText (WorkItem.encode ⟨"\t1", "\t1"⟩)) = .ok ⟨"\t1", "\t1"⟩ := by
  have hqueue : isBlank "a\"\\\n" = false := rfl
  have hid : isBlank "\t1" = false := rfl
  have hread := (messages_roundTrip.1 ⟨"a\"\\\n", .beat, -5⟩ hqueue (by decide)).1
  have hagain := messages_roundTrip.2.2.1 _ _ hread
  have hitem := (messages_roundTrip.2.1 ⟨"\t1", "\t1"⟩ hid hid).1
  exact ⟨hqueue, by decide, hagain, hid, messages_roundTrip.2.2.2 _ _ hitem⟩

end SpeechDispatch
