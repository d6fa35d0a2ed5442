import SpeechDispatch.Hub
import SpeechDispatch.Message.FailureNotice

/-!
# Failure detection

A round removes the workers that are silent, gives up the tasks that failed too often and those whose results were not
delivered again in time, tells their callers, and wakes the controller if it did anything.
-/

namespace SpeechDispatch

structure DetectorSettings where
  intervalSeconds : Nat := 30
  /-- A worker silent for so many seconds is lost. -/
  thresholdSeconds : Int := 100
  deriving DecidableEq

/-- What a round did. -/
structure DetectionReport where
  sweep : SweepReport
  evicted : List String
  deriving DecidableEq

def DetectionReport.isEmpty (report : DetectionReport) : Bool := report.sweep.isEmpty && report.evicted.isEmpty

/-- The reason given for a task that failed too often. -/
def exhaustedReason (failures : Nat) : String := s!"任务在 {failures} 次Worker失效后被放弃"

/-- The reason given for a task whose result could not be forwarded. -/
def unforwardedReason : String := "任务结果转发失败"

/-- The message that tells the caller of a task that it was given up. -/
def failureMessage {α : Type} (task : Task α) (reason : String) : Outbound :=
  ⟨Bytes.ofText (FailureNotice.encode ⟨task.id, reason, task.failures⟩), some task.callerCorrelation, none⟩

namespace Hub

variable {α σ : Type}

/-- The removals of a round: the workers swept out, then the tasks given up, each with the reason. -/
def roundOf (state : DispatchState α) (now : Instant) (threshold : Int) :
    SweepReport × List (Task α × String) × DispatchState α :=
  let (sweep, state) := state.sweep now threshold
  let (exhausted, state) := state.evictExhausted
  let (unredelivered, state) := state.evictUnredelivered now threshold
  (sweep, exhausted.map (fun task => (task, exhaustedReason task.failures)) ++
    unredelivered.map (fun task => (task, unforwardedReason)), state)

/-- Tells the callers of tasks given up, as far as they left an address.  A refusal is passed over; a publication that
stalls is waited for without end, and `false` says so. -/
def notifyAll [Outlet σ] (outlet : σ) : List (Task α × String) → Bool × σ
  | [] => (true, outlet)
  | (task, reason) :: rest =>
    match task.origin.replyTo with
    | none => notifyAll outlet rest
    | some replyTo =>
      match Outlet.publish outlet replyTo (failureMessage task reason) with
      | (.stalled, outlet) => (false, outlet)
      | (_, outlet) => notifyAll outlet rest

/-- One round; yields its report, or nothing if it waits for a publication without end. -/
def detect [Outlet σ] (h : Hub α σ) (threshold : Int) (now : Instant) : Option DetectionReport × Hub α σ :=
  let (sweep, evicted, state) := roundOf h.state now threshold
  let h := { h with state }.countRequeued sweep.requeued.length
  match notifyAll h.outlet evicted with
  | (false, outlet) => (none, { h with outlet })
  | (true, outlet) =>
    let report : DetectionReport := ⟨sweep, evicted.map (·.1.id)⟩
    let h := { h with outlet }.countEvicted evicted.length
    (some report, if report.isEmpty then h else h.wake)

end Hub

end SpeechDispatch
