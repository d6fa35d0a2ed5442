import SpeechDispatch.DispatchState
import SpeechDispatch.Metrics

/-!
# What the parts of the dispatcher share

The listener, the controller and the failure detector work on one state, publish on one outlet, count in one place, and
wake the controller by one signal.  The signal stores one permit at most.
-/

namespace SpeechDispatch

structure Hub (α σ : Type) where
  state : DispatchState α
  /-- Whether a permit for a pass is stored. -/
  signal : Bool := false
  metrics : Metrics := {}
  outlet : σ

namespace Hub

variable {α σ : Type}

/-- Stores a permit for a pass. -/
def wake (h : Hub α σ) : Hub α σ := { h with signal := true }

/-- Takes the permit, and tells whether there was one. -/
def takeSignal (h : Hub α σ) : Bool × Hub α σ := (h.signal, { h with signal := false })

def countRequeued (h : Hub α σ) (n : Nat) : Hub α σ :=
  { h with metrics := { h.metrics with requeued := h.metrics.requeued + n } }

def countEvicted (h : Hub α σ) (n : Nat) : Hub α σ :=
  { h with metrics := { h.metrics with evicted := h.metrics.evicted + n } }

def countDispatched (h : Hub α σ) : Hub α σ :=
  { h with metrics := { h.metrics with dispatched := h.metrics.dispatched + 1 } }

def countDispatchFailure (h : Hub α σ) : Hub α σ :=
  { h with metrics := { h.metrics with dispatchFailures := h.metrics.dispatchFailures + 1 } }

def countReceived (h : Hub α σ) : Hub α σ :=
  { h with metrics := { h.metrics with received := h.metrics.received + 1 } }

def countDropped (h : Hub α σ) : Hub α σ :=
  { h with metrics := { h.metrics with dropped := h.metrics.dropped + 1 } }

def countForwarded (h : Hub α σ) : Hub α σ :=
  { h with metrics := { h.metrics with forwarded := h.metrics.forwarded + 1 } }

def countForwardFailure (h : Hub α σ) : Hub α σ :=
  { h with metrics := { h.metrics with forwardFailures := h.metrics.forwardFailures + 1 } }

def countUnknown (h : Hub α σ) : Hub α σ :=
  { h with metrics := { h.metrics with unknownCorrelations := h.metrics.unknownCorrelations + 1 } }

/-- Notes the sizes of the registries and one more pass. -/
def measure (h : Hub α σ) : Hub α σ :=
  let workers := h.state.workers
  { h with
    metrics := { h.metrics with
      liveWorkers := workers.size
      busyWorkers := workers.size - workers.idleQueues.length
      pendingTasks := h.state.tasks.pendingCount
      passes := h.metrics.passes + 1 } }

end Hub

end SpeechDispatch
