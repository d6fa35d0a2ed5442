import SpeechDispatch.Detection
import SpeechDispatch.Intake
import SpeechDispatch.Pass

/-!
# Operations that a threshold can break off

How long ago something was is compared with a span of so many seconds, and not every number of seconds has one.  Each
operation here is one that makes such a span, and yields nothing if it breaks off there.  One that does not do so is
left as it was; a round of the failure detector may have done the first part of its work by then.
-/

namespace SpeechDispatch

/-- Whether no beat came for so many seconds. -/
def Worker.isSilentFor? (worker : Worker) (now : Instant) (seconds : Int) : Option Bool :=
  (Instant.span? seconds).map fun span => span ≤ now - worker.lastBeatAt

namespace WorkerRegistry

/-- Takes a beat, whose age is compared first. -/
def registerBeat? (r : WorkerRegistry) (queue : String) (beatAt now : Instant) :
    Option (BeatOutcome × WorkerRegistry) :=
  (Instant.span? r.staleAfter).map fun _ => r.registerBeat queue beatAt now

/-- The queues of the workers that were silent for so many seconds; each worker is asked. -/
def silentAmong? (now : Instant) (threshold : Int) : List Worker → Option (List String)
  | [] => some []
  | worker :: rest => do
    let silent ← worker.isSilentFor? now threshold
    let queues ← silentAmong? now threshold rest
    return if silent then worker.queue :: queues else queues

/-- Removes the workers that were silent for so many seconds. -/
def sweep? (r : WorkerRegistry) (now : Instant) (threshold : Int) : Option (List Worker × WorkerRegistry) := do
  let silent ← silentAmong? now threshold r.workers.values
  let (removed, workers) := r.workers.takeAll silent
  return (removed, { r with workers })

end WorkerRegistry

/-- The ids of the tasks whose results have waited for so many seconds; the span is made before any task is asked. -/
def TaskRegistry.unredelivered? {α : Type} (r : TaskRegistry α) (now : Instant) (threshold : Int) :
    Option (List String) :=
  (Instant.span? threshold).map fun _ => r.unredelivered now threshold

namespace DispatchState

variable {α : Type}

/-- Removes the workers that were silent for so many seconds. -/
def sweep? (s : DispatchState α) (now : Instant) (threshold : Int) : Option (SweepReport × DispatchState α) := do
  let (removed, workers) ← s.workers.sweep? now threshold
  let (requeued, tasks) := requeueHeld s.tasks removed
  return (⟨removed.map (·.queue), requeued⟩, { s with workers, tasks })

/-- Removes the workers whose beats would be stale. -/
def pruneExpired? (s : DispatchState α) (now : Instant) : Option (SweepReport × DispatchState α) :=
  s.sweep? now s.workers.staleAfter

/-- Takes a registration message, and tells whether anything changed. -/
def applyRegistration? (s : DispatchState α) (message : Registration) (now : Instant) :
    Option (Except DispatchError Bool × DispatchState α) :=
  match message.kind, message.sentAt with
  | .exit, _ | _, .error _ => some (s.applyRegistration message now)
  | _, .ok beatAt =>
    (s.workers.registerBeat? message.queue beatAt now).map fun _ => s.applyRegistration message now

/-- Removes the tasks whose results have waited for so many seconds to be delivered again. -/
def evictUnredelivered? (s : DispatchState α) (now : Instant) (threshold : Int) :
    Option (List (Task α) × DispatchState α) := do
  let ids ← s.tasks.unredelivered? now threshold
  let (evicted, tasks) := s.tasks.tasks.takeAll ids
  return (evicted, { s with tasks := { s.tasks with tasks } })

/-- The state that a round leaves if it is broken off. -/
def leftByRound? (s : DispatchState α) (now : Instant) (threshold : Int) : Option (DispatchState α) :=
  match s.sweep? now threshold with
  | none => some s
  | some (_, swept) =>
    let rest := swept.evictExhausted.2
    match rest.evictUnredelivered? now threshold with
    | none => some rest
    | some _ => none

end DispatchState

namespace Hub

variable {α σ : Type}

/-- Takes a registration message, and wakes the controller if it changed anything. -/
def processRegistration? (h : Hub α σ) (body : Bytes) (now : Instant) :
    Option (Except DispatchError Unit × Hub α σ) :=
  match Registration.decode body with
  | .error e => some (.error e, h)
  | .ok message => (h.state.applyRegistration? message now).map fun _ => h.processRegistration body now

/-- Takes a delivery of a channel and settles it. -/
def receive? [Carrier σ] (h : Hub α σ) (lookups : Lookups α) (channel : Channel) (delivery : Delivery)
    (now : Instant) : Option (Hub α σ) :=
  match channel with
  | .heartbeat => (h.processRegistration? delivery.body now).map fun _ => h.receive lookups channel delivery now
  | .work | .response => some (h.receive lookups channel delivery now)

/-- One pass, which begins with the removal of workers; yields the number of tasks started. -/
def pass? [Quantity α] [Outlet σ] (h : Hub α σ) (strategy : Strategy α) (now : Instant) : Option (Nat × Hub α σ) :=
  (h.state.pruneExpired? now).map fun _ => h.pass strategy now

/-- One round, or the hub as it is left by a round that is broken off. -/
def detect? [Outlet σ] (h : Hub α σ) (threshold : Int) (now : Instant) :
    Except (Hub α σ) (Option DetectionReport × Hub α σ) :=
  match h.state.leftByRound? now threshold with
  | some state => .error { h with state }
  | none => .ok (h.detect threshold now)

end Hub

end SpeechDispatch
