import SpeechDispatch.Error
import SpeechDispatch.Json.Record

/-!
# Failure notices

The message that a caller gets in place of a result when its task is given up: `FailureNotice.encode` writes it, and the
caller reads it by `FailureNotice.decode`.
-/

namespace SpeechDispatch

structure FailureNotice where
  id : String
  error : String
  /-- How many workers were lost with the task. -/
  failureCount : Nat
  deriving DecidableEq

namespace FailureNotice

/-- The names of the fields, in their order. -/
def fields : List (List String) := [["id"], ["error"], ["failure_count"]]

def malformed : DispatchError := .serialization "not a failure notice"

def decode (body : Bytes) : Except DispatchError FailureNotice :=
  match Json.record? fields body with
  | some [id, error, count] =>
    match id.text?, error.text?, count.uint32? with
    | some id, some error, some count => .ok ⟨id, error, count⟩
    | _, _, _ => .error malformed
  | _ => .error malformed

def encode (notice : FailureNotice) : String :=
  "\x7b\"id\":" ++ Json.Text.quoted notice.id ++ ",\"error\":" ++ Json.Text.quoted notice.error ++
    ",\"failure_count\":" ++ toString notice.failureCount ++ "\x7d"

end FailureNotice

end SpeechDispatch
