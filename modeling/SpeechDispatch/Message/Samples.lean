import SpeechDispatch.Message.Registration
import SpeechDispatch.Message.WorkItem
import SpeechDispatch.Task
import SpeechDispatch.Worker

/-!
# Sample messages and tasks

Bodies of messages as other programs write them, with the members in alphabetical order, and tasks and workers with
plain values, for rehearsals.
-/

namespace SpeechDispatch.Samples

/-- The body of a registration of any kind. -/
def registrationBody (queue kind : String) (timestamp : Int) : Bytes :=
  Bytes.ofText ("\x7b\"queue\":" ++ Json.Text.quoted queue ++ ",\"timestamp\":" ++ toString timestamp ++ ",\"type\":" ++
    Json.Text.quoted kind ++ "\x7d")

/-- The body of a work item. -/
def workItemBody (id profile : String) : Bytes := Bytes.ofText (WorkItem.encode ⟨id, profile⟩)

/-- A task for half a minute of speech. -/
def task (id : String) (now : Instant) : Task Float :=
  Task.arrive id ⟨"general", 1, 10⟩ 30 now ⟨workItemBody id "default", none, none⟩

/-- An idle worker without a model. -/
def worker (queue : String) : WorkerView Float := { queue, remaining := 0 }

end SpeechDispatch.Samples
