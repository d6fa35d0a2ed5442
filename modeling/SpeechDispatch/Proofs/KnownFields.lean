import SpeechDispatch.Proofs.Messages

/-!
# Other members of a message do not count

Other programs may add members to a message.  A decoder passes them, whatever their values are, and reads the known
fields as if they stood alone.  But it reads every key as a text to find out which it is, so a key that stands for no
text makes the message malformed, while such a text within the value of an unknown member does no harm.
-/

namespace SpeechDispatch

open Json

/-- Of an object of which all keys are texts, the decoders read what the compact object with just the known fields
says.  A field that is missing, repeated or of another type makes the object malformed, and so does a key that is no
text. -/
theorem decode_object {members : List Member} {body : Bytes} (h : IsObject members body) :
    ((∀ member ∈ members, member.name?.isSome = true) →
      (∀ queue kind timestamp, Registration.FieldsIn members queue kind timestamp →
        Registration.decode body = Registration.decode (Bytes.ofText (Registration.compact queue kind timestamp))) ∧
      (∀ id profile, WorkItem.FieldsIn members id profile → ∀ name ∈ ["profile", "recognizer"],
        WorkItem.decode body = WorkItem.decode (Bytes.ofText (WorkItem.compact name id profile)))) ∧
    ((∀ queue kind timestamp, ¬ Registration.FieldsIn members queue kind timestamp) →
      ∃ reason, Registration.decode body = .error (.serialization reason)) ∧
    ((∀ id profile, ¬ WorkItem.FieldsIn members id profile) →
      ∃ reason, WorkItem.decode body = .error (.serialization reason)) ∧
    (∀ member ∈ members, member.name? = none →
      (∃ reason, Registration.decode body = .error (.serialization reason)) ∧
      ∃ reason, WorkItem.decode body = .error (.serialization reason)) := by
  refine ⟨fun hnamed => ⟨fun queue kind timestamp hfields => ?_, fun id profile hfields name hname => ?_⟩,
    fun hnot => ?_, fun hnot => ?_, fun member hmem hname => ⟨?_, ?_⟩⟩
  · have hrange : isInt64 timestamp = true := by
      obtain ⟨-, -, -, hrange⟩ := hfields.timestamp
      exact hrange
    rw [Registration.decode_of_fieldsIn h hnamed hfields, Registration.decode_compact hrange]
  · rw [WorkItem.decode_of_fieldsIn h hnamed hfields, WorkItem.decode_compact hname]
  · exact ⟨_, Registration.decode_of_not_fieldsIn h hnot⟩
  · exact ⟨_, WorkItem.decode_of_not_fieldsIn h hnot⟩
  · exact ⟨_, Registration.decode_of_unnamed h hmem hname⟩
  · exact ⟨_, WorkItem.decode_of_unnamed h hmem hname⟩

/-- One object may hold both messages, in any order, and a nested value besides. -/
theorem decode_object_nested : ∃ members body, IsObject members body ∧
    body = Bytes.ofText ("\x7b\"timestamp\":-5,\"recognizer\":\"p\",\"extra\":[ \x7b\x7d,null ],\"queue\":\"a\"," ++
      "\"id\":\"b\",\"type\":\"beat\"\x7d") ∧
    Registration.decode body = .ok ⟨"a", .beat, -5⟩ ∧ WorkItem.decode body = .ok ⟨"b", "p"⟩ := by
  have hspace : AreSpaces [0x20] := List.forall_mem_singleton.2 rfl
  have hempty : IsElement [0x7b, 0x7d] [0x20, 0x7b, 0x7d] := .mk hspace (.emptyObject areSpaces_nil) areSpaces_nil
  have hnull : IsElement [0x6e, 0x75, 0x6c, 0x6c] [0x6e, 0x75, 0x6c, 0x6c, 0x20] :=
    .mk areSpaces_nil (.word .null) hspace
  have hextra : IsValue (Bytes.ofText "[ \x7b\x7d,null ]") := by
    have hbytes : Bytes.ofText "[ \x7b\x7d,null ]" =
        0x5b :: (([0x20, 0x7b, 0x7d] ++ 0x2c :: [0x6e, 0x75, 0x6c, 0x6c, 0x20]) ++ [0x5d]) := rfl
    rw [hbytes]
    exact .array (.cons hempty (.single hnull))
  let members := [("timestamp", toString (-5 : Int)), ("recognizer", Text.quoted "p"), ("extra", "[ \x7b\x7d,null ]"),
    ("queue", Text.quoted "a"), ("id", Text.quoted "b"), ("type", Text.quoted "beat")]
  have hvalues : ∀ member ∈ members, IsValue (Bytes.ofText member.2) :=
    List.forall_mem_cons.2 ⟨.number (isNumber_ofText (-5)), List.forall_mem_cons.2 ⟨isValue_quoted "p",
      List.forall_mem_cons.2 ⟨hextra, List.forall_mem_cons.2 ⟨isValue_quoted "a",
        List.forall_mem_cons.2 ⟨isValue_quoted "b", List.forall_mem_singleton.2 (isValue_quoted "beat")⟩⟩⟩⟩⟩
  have hobject := isObject_objectText hvalues
  have hnamed := isSome_name?_written members
  have hregistration : Registration.FieldsIn (members.map writtenMember) "a" "beat" (-5) :=
    { queue := hasField_written rfl (writesText_quoted "a")
      kind := hasField_written rfl (writesText_quoted "beat")
      timestamp := hasField_written rfl ⟨rfl, by decide⟩ }
  have hitem : WorkItem.FieldsIn (members.map writtenMember) "b" "p" :=
    { id := hasField_written rfl (writesText_quoted "b")
      profile := hasField_written rfl (writesText_quoted "p") }
  have hqueue : isBlank "a" = false := rfl
  have hid : isBlank "b" = false := rfl
  have hprofile : isBlank "p" = false := rfl
  refine ⟨_, _, hobject, rfl, ?_, ?_⟩
  · rw [((decode_object hobject).1 hnamed).1 _ _ _ hregistration, Registration.decode_compact (by decide), hqueue]
    rfl
  · rw [((decode_object hobject).1 hnamed).2 _ _ hitem "profile" (List.mem_cons_self ..),
      WorkItem.decode_compact (List.mem_cons_self ..), hid, hprofile]
    rfl

/-- A key may be half of a character that takes two escapes.  By its form the member is one, but it has no name. -/
theorem decode_lone_surrogate_key : ∃ members body, IsObject members body ∧ WorkItem.FieldsIn members "a" "p" ∧
    body = Bytes.ofText "\x7b\"\\ud800\":1,\"id\":\"a\",\"profile\":\"p\"\x7d" ∧
    WorkItem.decode (Bytes.ofText (WorkItem.compact "profile" "a" "p")) = .ok ⟨"a", "p"⟩ ∧
    WorkItem.decode body = .error WorkItem.malformed := by
  have hkey : IsInside [0x5c, 0x75, 0x64, 0x38, 0x30, 0x30] := .unit rfl .nil
  have hvalue : IsElement (Bytes.ofText (toString 1)) ([] ++ (Bytes.ofText (toString 1) ++ [])) :=
    .mk areSpaces_nil (.number (isNumber_ofText 1)) areSpaces_nil
  let lone : Member := ⟨[0x5c, 0x75, 0x64, 0x38, 0x30, 0x30], Bytes.ofText (toString 1)⟩
  let known := [("id", Text.quoted "a"), ("profile", Text.quoted "p")]
  have hlone : lone.name? = none := by decide
  have hobject : IsObject (lone :: known.map writtenMember) _ :=
    .members areSpaces_nil (.cons (.mk areSpaces_nil hkey areSpaces_nil hvalue)
      (.cons (isMember_memberText (isValue_quoted "a")) (.single (isMember_memberText (isValue_quoted "p")))))
      areSpaces_nil
  have hfields : WorkItem.FieldsIn (lone :: known.map writtenMember) "a" "p" :=
    { id := (hasField_written rfl (writesText_quoted "a")).cons_of_unnamed hlone
      profile := (hasField_written rfl (writesText_quoted "p")).cons_of_unnamed hlone }
  have hid : isBlank "a" = false := rfl
  have hprofile : isBlank "p" = false := rfl
  refine ⟨_, _, hobject, hfields, rfl, ?_, WorkItem.decode_of_unnamed hobject (List.mem_cons_self ..) hlone⟩
  rw [WorkItem.decode_compact (List.mem_cons_self ..), hid, hprofile]
  rfl

end SpeechDispatch
