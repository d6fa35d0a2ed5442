import SpeechDispatch.Error
import SpeechDispatch.Json.Record
import SpeechDispatch.Text.Blank

/-!
# Work items

A request for a transcription names the item and the recognition profile it wants.  Whatever else it says is for the
worker.
-/

namespace SpeechDispatch

structure WorkItem where
  id : String
  /-- The key of a recognition profile. -/
  profile : String
  deriving DecidableEq

namespace WorkItem

/-- The names of the fields; the profile goes by two. -/
def fields : List (List String) := [["id"], ["profile", "recognizer"]]

def malformed : DispatchError := .serialization "not a work item"

/-- Reads a request. -/
def decode (body : Bytes) : Except DispatchError WorkItem :=
  match Json.record? fields body with
  | some [id, profile] =>
    match id.text?, profile.text? with
    | some id, some profile =>
      if isBlank id then .error (.protocol .missingItemId)
      else if isBlank profile then .error (.protocol (.missingProfile id))
      else .ok ⟨id, profile⟩
    | _, _ => .error malformed
  | _ => .error malformed

def encode (item : WorkItem) : String :=
  "\x7b\"id\":" ++ Json.Text.quoted item.id ++ ",\"profile\":" ++ Json.Text.quoted item.profile ++ "\x7d"

end WorkItem

end SpeechDispatch
