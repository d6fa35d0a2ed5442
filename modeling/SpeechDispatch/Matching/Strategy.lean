import SpeechDispatch.Error
import SpeechDispatch.Task
import SpeechDispatch.Worker

/-!
# Matching strategies

A strategy is asked for one idle worker at a time: it sees all workers and all pending tasks, and names a task or none.
-/

namespace SpeechDispatch

/-- A choice for the worker at an index, made of what is known of the workers and the pending tasks at a time. -/
abbrev Strategy (α : Type) :=
  List (WorkerView α) → TaskGroups α → Nat → Instant → Except DispatchError (Option String)

end SpeechDispatch
