import SpeechDispatch.Outlet
import SpeechDispatch.Table

/-!
# A recording carrier

A carrier that keeps what is published and settled, for rehearsals.  Queues can be made to refuse or to stall, and
settling a tag can be made to fail.
-/

namespace SpeechDispatch

structure Recorder where
  published : Table (List Outbound) := ∅
  failing : List String := []
  stalled : List String := []
  acked : List Nat := []
  nacked : List (Nat × Bool) := []
  declared : Table Unit := ∅
  /-- The tags that cannot be acknowledged, and those that cannot be rejected. -/
  refusedAcks : List Nat := []
  refusedNacks : List Nat := []

namespace Recorder

/-- Keeps a message, unless its queue refuses or stalls; of the two, refusing counts. -/
def publish (r : Recorder) (queue : String) (message : Outbound) : Publication × Recorder :=
  if r.failing.contains queue then (.refused (.messageQueue (.publishRefused queue)), r)
  else if r.stalled.contains queue then (.stalled, r)
  else
    (.accepted, { r with
      published := r.published.insert queue ((r.published.get? queue).getD [] ++ [message]) })

/-- What was published to a queue. -/
def messages (r : Recorder) (queue : String) : List Outbound := (r.published.get? queue).getD []

def publishCount (r : Recorder) : Nat := r.published.values.flatten.length

def fail (r : Recorder) (queue : String) : Recorder := { r with failing := queue :: r.failing }

def stall (r : Recorder) (queue : String) : Recorder := { r with stalled := queue :: r.stalled }

/-- Ends both refusing and stalling. -/
def recover (r : Recorder) (queue : String) : Recorder :=
  { r with failing := r.failing.filter (· != queue), stalled := r.stalled.filter (· != queue) }

def declare (r : Recorder) (queue : String) : Recorder := { r with declared := r.declared.insert queue () }

def settle (r : Recorder) (tag : Nat) : Settlement → Recorder
  | .ack => if r.refusedAcks.contains tag then r else { r with acked := r.acked ++ [tag] }
  | .nack requeue => if r.refusedNacks.contains tag then r else { r with nacked := r.nacked ++ [(tag, requeue)] }

/-- Forgets what was published and settled. -/
def clear (r : Recorder) : Recorder := { r with published := ∅, acked := [], nacked := [] }

instance : Carrier Recorder where
  publish := publish
  settle := settle

end Recorder

end SpeechDispatch
