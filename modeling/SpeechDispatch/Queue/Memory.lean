import SpeechDispatch.Outlet
import SpeechDispatch.Table

/-!
# Queues in memory

A set of queues, each first in, first out, and each with one consumer at most.  A message gets a fresh tag whenever it
is put into a queue.  Handed out, it is unacked until it is settled under its tag; rejected for another delivery, it
goes to the end of its queue with a new tag.  Once the consumer of a queue is gone, nothing can be put there any more.
How many messages wait is counted beside the queue, in 32 bits.
-/

namespace SpeechDispatch

/-- What became of the receiving end of a queue. -/
inductive Receiver
  /-- Nobody consumes the queue. -/
  | free
  | taken
  /-- The consumer is gone for good. -/
  | gone
  deriving DecidableEq

structure QueueState where
  durable : Bool
  waiting : List Delivery := []
  /-- The count of the messages that wait. -/
  count : UInt32 := 0
  receiver : Receiver := .free

/-- A delivery that is not settled, and the queue it came from. -/
structure Unacked where
  queue : String
  delivery : Delivery
  deriving DecidableEq

structure MemoryQueue where
  queues : Table QueueState := ∅
  unacked : List Unacked := []
  lastTag : Nat := 0

namespace MemoryQueue

/-- The state of a queue, which is new if there is none of the name. -/
def queueState (q : MemoryQueue) (queue : String) : QueueState := (q.queues.get? queue).getD { durable := false }

/-- Puts a message at the end of a queue. -/
def push (q : MemoryQueue) (queue : String) (delivery : Delivery) : Except DispatchError Unit × MemoryQueue :=
  let state := q.queueState queue
  match state.receiver with
  | .gone => (.error (.messageQueue .receiverGone), { q with queues := q.queues.insert queue state })
  | _ =>
    (.ok (), { q with
      queues := q.queues.insert queue
        { state with waiting := state.waiting ++ [delivery], count := state.count + 1 } })

/-- Publishes a message under the next tag, which is used up even if the queue does not take it. -/
def publish (q : MemoryQueue) (queue : String) (message : Outbound) : Except DispatchError Unit × MemoryQueue :=
  let tag := q.lastTag + 1
  push { q with lastTag := tag } queue
    { tag, body := message.body, replyTo := message.replyTo, correlationId := message.correlationId }

/-- Makes a queue, if there is none of the name. -/
def create (q : MemoryQueue) (queue : String) (durable : Bool) : MemoryQueue :=
  match q.queues.get? queue with
  | some _ => q
  | none => { q with queues := q.queues.insert queue { durable } }

/-- Becomes the consumer of a queue; a queue has one in its life. -/
def consume (q : MemoryQueue) (queue : String) : Except DispatchError Unit × MemoryQueue :=
  let state := q.queueState queue
  match state.receiver with
  | .free => (.ok (), { q with queues := q.queues.insert queue { state with receiver := .taken } })
  | _ => (.error (.messageQueue (.consumerTaken queue)), { q with queues := q.queues.insert queue state })

/-- Hands the first message of a queue to its consumer, if there is one waiting. -/
def next (q : MemoryQueue) (queue : String) : Option Delivery × MemoryQueue :=
  match q.queues.get? queue with
  | none => (none, q)
  | some state =>
    match state.waiting with
    | [] => (none, q)
    | delivery :: rest =>
      (some delivery, { q with
        queues := q.queues.insert queue { state with waiting := rest, count := state.count - 1 }
        unacked := q.unacked ++ [⟨queue, delivery⟩] })

/-- The consumer of a queue goes. -/
def abandon (q : MemoryQueue) (queue : String) : MemoryQueue :=
  { q with queues := q.queues.modify queue fun state => { state with receiver := .gone } }

/-- The delivery that is not settled under a tag. -/
def findUnacked (q : MemoryQueue) (tag : Nat) : Option Unacked := q.unacked.find? (·.delivery.tag == tag)

def forget (q : MemoryQueue) (tag : Nat) : MemoryQueue :=
  { q with unacked := q.unacked.filter (·.delivery.tag != tag) }

def ack (q : MemoryQueue) (tag : Nat) : Except DispatchError Unit × MemoryQueue :=
  match q.findUnacked tag with
  | none => (.error (.messageQueue (.unknownTag tag)), q)
  | some _ => (.ok (), q.forget tag)

/-- Rejects a delivery; with `requeue`, puts it at the end of its queue under the next tag. -/
def nack (q : MemoryQueue) (tag : Nat) (requeue : Bool) : Except DispatchError Unit × MemoryQueue :=
  match q.findUnacked tag with
  | none => (.error (.messageQueue (.unknownTag tag)), q)
  | some entry =>
    let q := q.forget tag
    if requeue then
      let tag := q.lastTag + 1
      push { q with lastTag := tag } entry.queue { entry.delivery with tag, redelivered := true }
    else (.ok (), q)

/-- How many messages wait in a queue, by its count. -/
def size (q : MemoryQueue) (queue : String) : Nat := (q.queueState queue).count.toNat

def unackedCount (q : MemoryQueue) : Nat := q.unacked.length

instance : Carrier MemoryQueue where
  publish q queue message :=
    match q.publish queue message with
    | (.ok (), q) => (.accepted, q)
    | (.error e, q) => (.refused e, q)
  settle q tag settlement :=
    match settlement with
    | .ack => (q.ack tag).2
    | .nack requeue => (q.nack tag requeue).2

end MemoryQueue

end SpeechDispatch
