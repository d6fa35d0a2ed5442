import SpeechDispatch.Error
import SpeechDispatch.Json.Record
import SpeechDispatch.Text.Blank

/-!
# Registration messages

A worker announces itself, shows that it is alive, and takes its leave by messages of one format, which
`Registration.decode` reads and `Registration.encode` writes.
-/

namespace SpeechDispatch

inductive RegistrationKind
  | register
  | beat
  | exit
  deriving DecidableEq

namespace RegistrationKind

/-- The word for a kind in a message. -/
def word : RegistrationKind → String
  | register => "register"
  | beat => "beat"
  | exit => "exit"

def ofWord (text : String) : Except DispatchError RegistrationKind :=
  if text = "register" then .ok register
  else if text = "beat" then .ok beat
  else if text = "exit" then .ok exit
  else .error (.protocol (.unknownKind text))

theorem ofWord_word (kind : RegistrationKind) : ofWord kind.word = .ok kind := by
  cases kind <;> rfl

end RegistrationKind

/-- A message of a worker, known by the name of its queue. -/
structure Registration where
  queue : String
  kind : RegistrationKind
  /-- Seconds since the epoch. -/
  timestamp : Int
  deriving DecidableEq

namespace Registration

/-- The names of the fields, in their order. -/
def fields : List (List String) := [["queue"], ["type"], ["timestamp"]]

def malformed : DispatchError := .serialization "not a registration"

/-- Reads a message: first its form, then the name of the queue, then the kind. -/
def decode (body : Bytes) : Except DispatchError Registration :=
  match Json.record? fields body with
  | some [queue, kind, timestamp] =>
    match queue.text?, kind.text?, timestamp.int64? with
    | some queue, some kind, some timestamp =>
      if isBlank queue then .error (.protocol .missingQueue)
      else (RegistrationKind.ofWord kind).map fun kind => ⟨queue, kind, timestamp⟩
    | _, _, _ => .error malformed
  | _ => .error malformed

/-- A message as an object with the fields in their order. -/
def encode (m : Registration) : String :=
  "\x7b\"queue\":" ++ Json.Text.quoted m.queue ++ ",\"type\":" ++ Json.Text.quoted m.kind.word ++ ",\"timestamp\":" ++
    toString m.timestamp ++ "\x7d"

/-- The time at which a message was sent. -/
def sentAt (m : Registration) : Except DispatchError Instant :=
  match Instant.ofSeconds? m.timestamp with
  | some t => .ok t
  | none => .error (.protocol (.badTimestamp m.timestamp))

end Registration

end SpeechDispatch
