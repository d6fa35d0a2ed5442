import SpeechDispatch.Message.Registration
import SpeechDispatch.Outlet
import SpeechDispatch.TaskRegistry
import SpeechDispatch.WorkerRegistry

/-!
# The state of a dispatch

The two registries together.  Every operation here keeps them in step: a worker that is lost gives its task back, a
task that is replaced, answered or given up leaves its worker, and a task is marked as started only after it was
published to the worker.
-/

namespace SpeechDispatch

structure DispatchState (α : Type) where
  workers : WorkerRegistry
  tasks : TaskRegistry α
  /-- Where workers send their results. -/
  responseQueue : String
  publishTimeoutMillis : Nat

/-- What a sweep did: the workers removed and the tasks set back, in order. -/
structure SweepReport where
  removed : List String := []
  requeued : List String := []
  deriving DecidableEq

def SweepReport.isEmpty (report : SweepReport) : Bool := report.removed.isEmpty && report.requeued.isEmpty

namespace DispatchState

variable {α : Type}

/-- The state before anything has happened. -/
def start (staleAfter : Int) (ceiling : Nat) (responseQueue : String) (publishTimeoutMillis : Nat) :
    DispatchState α :=
  { workers := { staleAfter }, tasks := { ceiling }, responseQueue, publishTimeoutMillis }

/-! ### Workers that leave -/

/-- Sets back the tasks of lost workers, as far as they are still assigned to them. -/
def requeueHeld (tasks : TaskRegistry α) : List Worker → List String × TaskRegistry α
  | [] => ([], tasks)
  | worker :: rest =>
    match worker.currentTask with
    | none => requeueHeld tasks rest
    | some id =>
      if tasks.isAssigned id worker.queue then
        match tasks.requeue id with
        | (.ok _, tasks) =>
          let (requeued, tasks) := requeueHeld tasks rest
          (id :: requeued, tasks)
        | (.error _, tasks) => requeueHeld tasks rest
      else requeueHeld tasks rest

/-- Removes a worker; names the tasks set back, or nothing if there was no such worker. -/
def exitWorker (s : DispatchState α) (queue : String) : Option (List String) × DispatchState α :=
  match s.workers.exit queue with
  | (none, _) => (none, s)
  | (some worker, workers) =>
    let (requeued, tasks) := requeueHeld s.tasks [worker]
    (some requeued, { s with workers, tasks })

/-- Removes the workers that were silent for so many seconds. -/
def sweep (s : DispatchState α) (now : Instant) (threshold : Int) : SweepReport × DispatchState α :=
  let (removed, workers) := s.workers.sweep now threshold
  let (requeued, tasks) := requeueHeld s.tasks removed
  (⟨removed.map (·.queue), requeued⟩, { s with workers, tasks })

/-- Removes the workers whose beats would be stale. -/
def pruneExpired (s : DispatchState α) (now : Instant) : SweepReport × DispatchState α :=
  s.sweep now s.workers.staleAfter

/-- Takes a registration message, and tells whether anything changed. -/
def applyRegistration (s : DispatchState α) (message : Registration) (now : Instant) :
    Except DispatchError Bool × DispatchState α :=
  match message.kind with
  | .register | .beat =>
    match message.sentAt with
    | .error e => (.error e, s)
    | .ok beatAt =>
      let (outcome, workers) := s.workers.registerBeat message.queue beatAt now
      (.ok (outcome != .stale), { s with workers })
  | .exit =>
    let (requeued, s) := s.exitWorker message.queue
    (.ok requeued.isSome, s)

/-! ### Tasks that come and go -/

/-- Takes a task in.  A worker that is busy with one of the same id is released. -/
def addTask (s : DispatchState α) (task : Task α) (now : Instant) : Except DispatchError Unit × DispatchState α :=
  match s.tasks.add task with
  | (.error e, tasks) => (.error e, { s with tasks })
  | (.ok none, tasks) => (.ok (), { s with tasks })
  | (.ok (some old), tasks) =>
    match old.assignedTo with
    | none => (.ok (), { s with tasks })
    | some queue => (.ok (), { s with tasks, workers := (s.workers.releaseIfHolding queue old.id now).2 })

/-- The message by which a task goes to a worker. -/
def dispatchMessage (s : DispatchState α) (task : Task α) : Outbound :=
  ⟨task.origin.payload, some task.id, some s.responseQueue⟩

/-- Why a task cannot be started on a worker, or the task if it can. -/
def startable (s : DispatchState α) (id queue : String) : Except DispatchError (Task α) :=
  match s.tasks.get? id with
  | none => .error (.taskNotFound id)
  | some task =>
    if task.started then .error (.invalidTask (.alreadyStarted id task.assignedTo))
    else
      match s.workers.workers.get? queue with
      | none => .error (.workerNotFound queue)
      | some worker => if worker.busy then .error (.workerBusy queue worker.currentTask) else .ok task

/-- Marks a published task as started on its worker, the worker first. -/
def commitStart [Quantity α] (s : DispatchState α) (task : Task α) (id queue : String) (now : Instant) :
    Except DispatchError Unit × DispatchState α :=
  match s.workers.markBusy queue task now with
  | (.error e, workers) => (.error e, { s with workers })
  | (.ok (), workers) =>
    let (result, tasks) := s.tasks.markStarted id queue
    (result, { s with workers, tasks })

variable {σ : Type} [Outlet σ]

/-- Publishes a task to a worker and, if that succeeds, marks both. -/
def startOn [Quantity α] (s : DispatchState α) (id queue : String) (outlet : σ) (now : Instant) :
    Except DispatchError Unit × DispatchState α × σ :=
  match s.startable id queue with
  | .error e => (.error e, s, outlet)
  | .ok task =>
    match Outlet.publishWithin outlet s.publishTimeoutMillis queue (s.dispatchMessage task) with
    | (.error e, outlet) => (.error e, s, outlet)
    | (.ok (), outlet) =>
      let (result, s) := s.commitStart task id queue now
      (result, s, outlet)

/-- Sends a result on to the caller, if the caller asked for it. -/
def forward (s : DispatchState α) (task : Task α) (body : Bytes) (outlet : σ) : Except DispatchError Unit × σ :=
  match task.origin.replyTo with
  | none => (.ok (), outlet)
  | some replyTo =>
    Outlet.publishWithin outlet s.publishTimeoutMillis replyTo ⟨body, some task.callerCorrelation, none⟩

/-- The state after the worker of a task was released. -/
def releaseWorkerOf (s : DispatchState α) (task : Task α) (id : String) (now : Instant) : DispatchState α :=
  match task.assignedTo with
  | none => s
  | some queue => { s with workers := (s.workers.releaseIfHolding queue id now).2 }

/-- Takes a result.  The worker is free in any case; the task is finished when its result was forwarded, or could not
be forwarded a second time. -/
def processResponse (s : DispatchState α) (id : String) (body : Bytes) (redelivered : Bool) (outlet : σ)
    (now : Instant) : Except DispatchError Settlement × DispatchState α × σ :=
  match s.tasks.get? id with
  | none => (.error (.unknownCorrelation id), s, outlet)
  | some task =>
    let (forwarded, outlet) := s.forward task body outlet
    let s := s.releaseWorkerOf task id now
    match forwarded with
    | .ok () => (.ok .ack, { s with tasks := (s.tasks.remove id).2 }, outlet)
    | .error _ =>
      if redelivered then (.ok (.nack false), { s with tasks := (s.tasks.remove id).2 }, outlet)
      else
        let (result, tasks) := s.tasks.markForwardFailed id now
        (result.map fun () => .nack true, { s with tasks }, outlet)

/-- Removes the tasks to be given up. -/
def evictExhausted (s : DispatchState α) : List (Task α) × DispatchState α :=
  let (evicted, tasks) := s.tasks.tasks.takeAll s.tasks.exhausted
  (evicted, { s with tasks := { s.tasks with tasks } })

/-- Removes the tasks whose results have waited for so many seconds to be delivered again. -/
def evictUnredelivered (s : DispatchState α) (now : Instant) (threshold : Int) : List (Task α) × DispatchState α :=
  let (evicted, tasks) := s.tasks.tasks.takeAll (s.tasks.unredelivered now threshold)
  (evicted, { s with tasks := { s.tasks with tasks } })

end DispatchState

end SpeechDispatch
