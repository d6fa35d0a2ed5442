import SpeechDispatch.Instant
import SpeechDispatch.Quantity
import SpeechDispatch.Table
import SpeechDispatch.Text.Bytes

/-!
# Tasks

A task is a work item for which the model and the expected duration are known.  It is pending until it is started, and
exhausted when the workers that had it were lost too often.
-/

namespace SpeechDispatch

/-- The request behind a task: its body, which goes to the worker as it is, and where the result goes. -/
structure Origin where
  payload : Bytes
  replyTo : Option String := none
  correlationId : Option String := none
  deriving DecidableEq

/-- The model that a recognition profile stands for. -/
structure ModelProfile (α : Type) where
  modelType : String
  realTimeFactor : α
  loadSeconds : α

structure Task (α : Type) where
  id : String
  modelType : String
  /-- The length of the recording. -/
  duration : α
  /-- How long it takes to load the model. -/
  loadSeconds : α
  realTimeFactor : α
  arrivedAt : Instant
  assignedTo : Option String := none
  started : Bool := false
  /-- How many workers were lost with it.  A counter of 32 bits is enough for it: the ceiling at which a task is given
  up has no more, and a task that has reached it gets no other worker to lose. -/
  failures : Nat := 0
  origin : Origin
  /-- Since when the result waits to be delivered again. -/
  forwardFailedAt : Option Instant := none

/-- What the matching sees of a task. -/
structure TaskView (α : Type) where
  id : String
  modelType : String
  processing : α
  arrivedAt : Instant

/-- Pending tasks by model type, those of one type from the oldest on. -/
abbrev TaskGroups (α : Type) := Table (List (TaskView α))

variable {α : Type} [Quantity α]

namespace Task

/-- A task as it arrives. -/
def arrive (id : String) (profile : ModelProfile α) (duration : α) (arrivedAt : Instant) (origin : Origin) : Task α :=
  { id, modelType := profile.modelType, duration, loadSeconds := profile.loadSeconds,
    realTimeFactor := profile.realTimeFactor, arrivedAt, origin }

/-- The time that a worker with the model at hand takes. -/
def processing (task : Task α) : α := task.duration * task.realTimeFactor

omit [Quantity α] in
/-- Whether a task has failed so often that it is given up. -/
def isExhausted (task : Task α) (ceiling : Nat) : Bool := ceiling ≤ task.failures

omit [Quantity α] in
/-- Whether a task waits for a worker. -/
def isPending (task : Task α) (ceiling : Nat) : Bool := !task.started && !task.isExhausted ceiling

def view (task : Task α) : TaskView α := ⟨task.id, task.modelType, task.processing, task.arrivedAt⟩

/-- How long a task has waited. -/
def waited (task : Task α) (now : Instant) : α := Quantity.ofSpan (task.arrivedAt.millis now)

/-- The correlation id that the caller of a task knows it by. -/
def callerCorrelation {α : Type} (task : Task α) : String := task.origin.correlationId.getD task.id

end Task

/-- How long a task has waited. -/
def TaskView.waited (task : TaskView α) (now : Instant) : α := Quantity.ofSpan (task.arrivedAt.millis now)

end SpeechDispatch
