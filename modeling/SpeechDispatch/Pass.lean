import SpeechDispatch.Hub
import SpeechDispatch.Matching.Strategy

/-!
# Scheduling passes

A pass first removes the workers whose beats are stale.  Then it asks the strategy for every worker that was idle at
that time, one after another and each time on the state as it is by then, and starts what the strategy names.
-/

namespace SpeechDispatch.Hub

variable {α σ : Type} [Quantity α] [Outlet σ]

/-- Starts a task on a worker, and counts it. -/
def dispatch (h : Hub α σ) (id queue : String) (now : Instant) : Bool × Hub α σ :=
  match h.state.startOn id queue h.outlet now with
  | (.ok (), state, outlet) => (true, { h with state, outlet }.countDispatched)
  | (.error _, state, outlet) => (false, { h with state, outlet }.countDispatchFailure)

/-- Asks the strategy for one worker, and starts what it names; tells whether a task was started. -/
def offer (h : Hub α σ) (strategy : Strategy α) (queue : String) (now : Instant) : Bool × Hub α σ :=
  let workers := h.state.workers.snapshot now
  let groups := h.state.tasks.snapshot
  if groups.isEmpty then (false, h)
  else
    match workers.findIdx? (·.queue == queue) with
    | none => (false, h)
    | some index =>
      match strategy workers groups index now with
      | .ok (some id) => h.dispatch id queue now
      | .ok none | .error _ => (false, h)

/-- Asks for the workers in turn, and counts the tasks started. -/
def offerAll (h : Hub α σ) (strategy : Strategy α) (now : Instant) : List String → Nat × Hub α σ
  | [] => (0, h)
  | queue :: rest =>
    let (started, h) := h.offer strategy queue now
    let (n, h) := h.offerAll strategy now rest
    (if started then n + 1 else n, h)

/-- Removes the workers whose beats are stale, and counts the tasks they gave back. -/
def prune (h : Hub α σ) (now : Instant) : Hub α σ :=
  let (report, state) := h.state.pruneExpired now
  { h with state }.countRequeued report.requeued.length

/-- One pass; yields the number of tasks started. -/
def pass (h : Hub α σ) (strategy : Strategy α) (now : Instant) : Nat × Hub α σ :=
  let h := h.prune now
  let (started, h) := h.offerAll strategy now h.state.workers.idleQueues
  (started, h.measure)

end SpeechDispatch.Hub
