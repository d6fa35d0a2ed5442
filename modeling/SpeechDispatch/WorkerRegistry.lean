import SpeechDispatch.Error
import SpeechDispatch.Table
import SpeechDispatch.Task
import SpeechDispatch.Worker

/-!
# The registry of workers

The live workers by the names of their queues.  A worker joins by its first beat, leaves by its exit or by its silence,
and is marked busy and free as it gets tasks and answers them.
-/

namespace SpeechDispatch

/-- What became of a beat. -/
inductive BeatOutcome
  | registered
  | refreshed
  | stale
  deriving DecidableEq

structure WorkerRegistry where
  workers : Table Worker := ∅
  /-- A beat older than so many seconds is not taken. -/
  staleAfter : Int

namespace WorkerRegistry

/-- A worker is never expected to stay busy for more than a week. -/
def busyHorizonMillis : Nat := 7 * 24 * 3600 * 1000

/-- Takes a beat.  A stale one is ignored, one from the future counts as sent now, and an older one than the last
changes nothing. -/
def registerBeat (r : WorkerRegistry) (queue : String) (beatAt now : Instant) : BeatOutcome × WorkerRegistry :=
  if Instant.seconds r.staleAfter < now - beatAt then (.stale, r)
  else
    let beatAt := min beatAt now
    match r.workers.get? queue with
    | some worker =>
      (.refreshed, { r with
        workers := r.workers.insert queue { worker with lastBeatAt := max worker.lastBeatAt beatAt } })
    | none => (.registered, { r with workers := r.workers.insert queue (Worker.join queue beatAt now) })

/-- Removes a worker, and names it if it was there. -/
def exit (r : WorkerRegistry) (queue : String) : Option Worker × WorkerRegistry :=
  (r.workers.get? queue, { r with workers := r.workers.erase queue })

/-- Removes the workers that were silent for so many seconds. -/
def sweep (r : WorkerRegistry) (now : Instant) (threshold : Int) : List Worker × WorkerRegistry :=
  let silent := (r.workers.values.filter (·.isSilentFor now threshold)).map (·.queue)
  let (removed, workers) := r.workers.takeAll silent
  (removed, { r with workers })

/-- An estimate kept between nothing and the horizon; nothing if it is no number. -/
def clampEstimate {α : Type} [Quantity α] (estimate : α) : α :=
  let horizon : α := Quantity.ofMillis busyHorizonMillis
  if !Quantity.same estimate estimate then 0
  else if Quantity.lt estimate 0 then 0
  else if Quantity.lt horizon estimate then horizon
  else estimate

/-- When a worker is expected to be free that starts on so many seconds of work. -/
def expectedFree {α : Type} [Quantity α] (estimate : α) (now : Instant) : Instant :=
  now.plusMillis (Quantity.toMillis (clampEstimate estimate))

/-- The work that a task makes for a worker: processing, and loading the model if the worker has another. -/
def workload {α : Type} [Quantity α] (worker : Worker) (task : Task α) : α :=
  if worker.specialization = task.modelType then task.processing else task.processing + task.loadSeconds

/-- Gives a task to an idle worker, which thereby turns to the model of the task. -/
def markBusy {α : Type} [Quantity α] (r : WorkerRegistry) (queue : String) (task : Task α) (now : Instant) :
    Except DispatchError Unit × WorkerRegistry :=
  match r.workers.get? queue with
  | none => (.error (.workerNotFound queue), r)
  | some worker =>
    if worker.busy then (.error (.workerBusy queue worker.currentTask), r)
    else
      (.ok (), { r with
        workers := r.workers.insert queue { worker with
          busy := true
          currentTask := some task.id
          freeAt := expectedFree (workload worker task) now
          specialization := task.modelType } })

/-- Takes the task from a busy worker. -/
def markFree (r : WorkerRegistry) (queue : String) (now : Instant) : Except DispatchError Unit × WorkerRegistry :=
  match r.workers.get? queue with
  | none => (.error (.workerNotFound queue), r)
  | some worker =>
    if worker.busy then
      (.ok (), { r with
        workers := r.workers.insert queue { worker with busy := false, currentTask := none, freeAt := now } })
    else (.error (.workerNotBusy queue), r)

/-- Whether a worker is busy with a task. -/
def isHolding (r : WorkerRegistry) (queue task : String) : Bool :=
  match r.workers.get? queue with
  | some worker => worker.busy && worker.holds task
  | none => false

/-- Takes a task from a worker if that is the task it is busy with, and tells whether it was. -/
def releaseIfHolding (r : WorkerRegistry) (queue task : String) (now : Instant) : Bool × WorkerRegistry :=
  if r.isHolding queue task then
    let (result, r) := r.markFree queue now
    (result.isOk, r)
  else (false, r)

def size (r : WorkerRegistry) : Nat := r.workers.size

/-- The queues of the idle workers in their order. -/
def idleQueues (r : WorkerRegistry) : List String := (r.workers.values.filter (!·.busy)).map (·.queue)

/-- All workers in the order of their queues. -/
def snapshot {α : Type} [Quantity α] (r : WorkerRegistry) (now : Instant) : List (WorkerView α) :=
  r.workers.values.map (·.view now)

end WorkerRegistry

end SpeechDispatch
