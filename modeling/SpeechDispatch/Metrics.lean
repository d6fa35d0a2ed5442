/-!
# Metrics

What the dispatcher counts, and the sizes it last saw.
-/

namespace SpeechDispatch

structure Metrics where
  received : Nat := 0
  dispatched : Nat := 0
  dispatchFailures : Nat := 0
  requeued : Nat := 0
  evicted : Nat := 0
  forwarded : Nat := 0
  forwardFailures : Nat := 0
  unknownCorrelations : Nat := 0
  dropped : Nat := 0
  liveWorkers : Nat := 0
  busyWorkers : Nat := 0
  pendingTasks : Nat := 0
  /-- How many passes were timed. -/
  passes : Nat := 0
  deriving DecidableEq

namespace Metrics

inductive Kind
  | counter
  | gauge
  | histogram
  deriving DecidableEq

structure Description where
  kind : Kind
  name : String
  text : String

/-- All metrics in the order in which they are announced. -/
def descriptions : List Description := [
  ⟨.counter, "dispatcher_tasks_received_total", "Accepted work messages"⟩,
  ⟨.counter, "dispatcher_tasks_dispatched_total", "Tasks sent to a worker queue"⟩,
  ⟨.counter, "dispatcher_dispatch_failures_total", "Dispatch attempts that could not be published"⟩,
  ⟨.counter, "dispatcher_tasks_requeued_total", "Tasks returned to pending after their worker was lost"⟩,
  ⟨.counter, "dispatcher_tasks_evicted_total", "Tasks dropped after reaching the failure ceiling"⟩,
  ⟨.counter, "dispatcher_responses_forwarded_total", "Worker responses relayed to the original caller"⟩,
  ⟨.counter, "dispatcher_response_forward_failures_total", "Worker responses that could not be relayed"⟩,
  ⟨.counter, "dispatcher_unknown_correlations_total", "Responses whose correlation id is not tracked"⟩,
  ⟨.counter, "dispatcher_messages_dropped_total", "Malformed or unresolvable inbound messages"⟩,
  ⟨.gauge, "dispatcher_live_workers", "Workers currently registered"⟩,
  ⟨.gauge, "dispatcher_busy_workers", "Workers holding a task"⟩,
  ⟨.gauge, "dispatcher_pending_tasks", "Tasks eligible for matching"⟩,
  ⟨.histogram, "dispatcher_scheduling_pass_duration_seconds", "Duration of one scheduling pass"⟩]

/-- The values of counters and gauges, in the order of their descriptions. -/
def values (m : Metrics) : List Nat :=
  [m.received, m.dispatched, m.dispatchFailures, m.requeued, m.evicted, m.forwarded, m.forwardFailures,
    m.unknownCorrelations, m.dropped, m.liveWorkers, m.busyWorkers, m.pendingTasks]

/-- Counters and gauges with their values. -/
def readings (m : Metrics) : List (Description × Nat) := descriptions.zip m.values

end Metrics

end SpeechDispatch
