import SpeechDispatch.Error
import SpeechDispatch.Task
import SpeechDispatch.Text.Blank

/-!
# The registry of tasks

The tasks that are not finished, by their ids.  The snapshot groups the pending ones by model type; it depends on the
tasks only, not on the order in which they are listed.
-/

namespace SpeechDispatch

structure TaskRegistry (α : Type) where
  tasks : Table (Task α) := ∅
  /-- A task is given up when so many workers were lost with it. -/
  ceiling : Nat

namespace TaskRegistry

variable {α : Type}

/-- Takes a task in, in place of one of the same id, which is handed back. -/
def add (r : TaskRegistry α) (task : Task α) : Except DispatchError (Option (Task α)) × TaskRegistry α :=
  if isBlank task.id then (.error (.invalidTask .missingId), r)
  else if isBlank task.modelType then (.error (.invalidTask (.missingType task.id)), r)
  else if task.origin.payload.isEmpty then (.error (.invalidTask (.missingPayload task.id)), r)
  else (.ok (r.tasks.get? task.id), { r with tasks := r.tasks.insert task.id task })

/-- Changes a task that is there, and yields it as it is then. -/
def update (r : TaskRegistry α) (id : String) (f : Task α → Task α) :
    Except DispatchError (Task α) × TaskRegistry α :=
  match r.tasks.get? id with
  | none => (.error (.taskNotFound id), r)
  | some task => (.ok (f task), { r with tasks := r.tasks.insert id (f task) })

/-- Sets a task back to wait for another worker, with one failure more. -/
def requeue (r : TaskRegistry α) (id : String) : Except DispatchError (Task α) × TaskRegistry α :=
  r.update id fun task => { task with assignedTo := none, started := false, failures := task.failures + 1 }

def markStarted (r : TaskRegistry α) (id worker : String) : Except DispatchError Unit × TaskRegistry α :=
  let (result, r) := r.update id fun task => { task with assignedTo := some worker, started := true }
  (result.map fun _ => (), r)

/-- Notes that the result of a task could not be forwarded; the first time counts. -/
def markForwardFailed (r : TaskRegistry α) (id : String) (now : Instant) : Except DispatchError Unit × TaskRegistry α :=
  let (result, r) := r.update id fun task => { task with forwardFailedAt := some (task.forwardFailedAt.getD now) }
  (result.map fun _ => (), r)

/-- Whether the result of a task has waited for so many seconds to be delivered again. -/
def isUnredelivered (now : Instant) (threshold : Int) (task : Task α) : Bool :=
  match task.forwardFailedAt with
  | some failedAt => Instant.seconds threshold ≤ now - failedAt
  | none => false

/-- Ids in their order. -/
def sortIds (ids : List String) : List String := ids.mergeSort fun a b => a ≤ b

/-- The ids of the tasks whose results have waited for so many seconds to be delivered again. -/
def unredelivered (r : TaskRegistry α) (now : Instant) (threshold : Int) : List String :=
  sortIds ((r.tasks.values.filter (isUnredelivered now threshold)).map (·.id))

/-- The ids of the tasks to be given up. -/
def exhausted (r : TaskRegistry α) : List String :=
  sortIds ((r.tasks.values.filter fun task => !task.started && task.isExhausted r.ceiling).map (·.id))

def get? (r : TaskRegistry α) (id : String) : Option (Task α) := r.tasks.get? id

def remove (r : TaskRegistry α) (id : String) : Option (Task α) × TaskRegistry α :=
  (r.tasks.get? id, { r with tasks := r.tasks.erase id })

def size (r : TaskRegistry α) : Nat := r.tasks.size

def pendingCount (r : TaskRegistry α) : Nat := (r.tasks.values.filter (·.isPending r.ceiling)).length

/-- Whether a task is assigned to a worker. -/
def isAssigned (r : TaskRegistry α) (id queue : String) : Bool :=
  match r.tasks.get? id with
  | some task => task.assignedTo == some queue
  | none => false

/-! ### The snapshot -/

variable [Quantity α]

/-- Older tasks come first, and of tasks of one age the one with the lesser id. -/
def comesFirst (a b : TaskView α) : Bool := a.arrivedAt < b.arrivedAt || (a.arrivedAt == b.arrivedAt && a.id ≤ b.id)

/-- Adds a task to the group of its type. -/
def addToGroup (groups : TaskGroups α) (task : TaskView α) : TaskGroups α :=
  groups.insert task.modelType ((groups.get? task.modelType).getD [] ++ [task])

/-- Tasks grouped by type, each group in order. -/
def grouped (tasks : List (TaskView α)) : TaskGroups α := (tasks.mergeSort comesFirst).foldl addToGroup ∅

/-- The pending tasks of a list of tasks, in groups. -/
def pendingGroups (ceiling : Nat) (tasks : List (Task α)) : TaskGroups α :=
  grouped ((tasks.filter (·.isPending ceiling)).map (·.view))

/-- The pending tasks in groups. -/
def snapshot (r : TaskRegistry α) : TaskGroups α := pendingGroups r.ceiling r.tasks.values

end TaskRegistry

end SpeechDispatch
