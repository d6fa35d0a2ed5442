import SpeechDispatch.Instant
import SpeechDispatch.Quantity

/-!
# Workers

A worker is known by the queue on which it takes its tasks.  It is live as long as its beats are recent, and holds at
most one task.
-/

namespace SpeechDispatch

structure Worker where
  queue : String
  lastBeatAt : Instant
  /-- The model of the task it last had; empty if it had none. -/
  specialization : String := ""
  busy : Bool := false
  currentTask : Option String := none
  /-- When it is expected to be free. -/
  freeAt : Instant
  deriving DecidableEq

/-- What the matching sees of a worker. -/
structure WorkerView (α : Type) where
  queue : String
  specialization : String := ""
  busy : Bool := false
  /-- For how long it is expected to stay busy. -/
  remaining : α

namespace Worker

/-- A worker whose first beat was accepted. -/
def join (queue : String) (beatAt now : Instant) : Worker := { queue, lastBeatAt := beatAt, freeAt := now }

/-- Whether no beat came for so many seconds. -/
def isSilentFor (worker : Worker) (now : Instant) (seconds : Int) : Bool :=
  Instant.seconds seconds ≤ now - worker.lastBeatAt

def holds (worker : Worker) (task : String) : Bool := worker.currentTask == some task

variable {α : Type} [Quantity α]

/-- How long a worker is expected to stay busy. -/
def remaining (worker : Worker) (now : Instant) : α :=
  if worker.busy then Quantity.ofSpan (now.millis worker.freeAt) else 0

def view (worker : Worker) (now : Instant) : WorkerView α :=
  ⟨worker.queue, worker.specialization, worker.busy, worker.remaining now⟩

end Worker

def WorkerView.isSpecializedFor {α : Type} (worker : WorkerView α) (modelType : String) : Bool :=
  worker.specialization == modelType

end SpeechDispatch
