import SpeechDispatch.Document
import SpeechDispatch.Message.Envelope
import SpeechDispatch.Table

/-!
# Message brokers

What a broker is told on a channel of AMQP 0-9-1, and what it answers.  Whatever can be told so is a `Peer`.

`Broker` is one of them, small enough to run: named queues, each with one consumer at most, tags for deliveries that
count over all queues, and confirmed publications.  Whatever it finds wrong makes it close the channel.  What it is
told stays listed in `Broker.received`.
-/

namespace SpeechDispatch.Amqp

/-- What a broker is told on the channel. -/
inductive Method
  | selectConfirms
  | setPrefetch (count : Nat)
  | declare (queue : String) (passive durable exclusive autoDelete : Bool)
  | publish (queue : String) (mandatory : Bool) (deliveryMode : Nat) (message : Outbound)
  | consume (queue consumer : String) (flags : Nat)
  | ack (tag : Nat) (multiple : Bool)
  | nack (tag : Nat) (multiple requeue : Bool)
  deriving DecidableEq

namespace Method

/-- Asks whether a queue is there, and how much waits in it. -/
def inspect (queue : String) : Method := .declare queue true false false false

/-- The name of a method in the protocol. -/
def name : Method → String
  | selectConfirms => "confirm.select"
  | setPrefetch _ => "basic.qos"
  | declare _ _ _ _ _ => "queue.declare"
  | publish _ _ _ _ => "basic.publish"
  | consume _ _ _ => "basic.consume"
  | ack _ _ => "basic.ack"
  | nack _ _ _ => "basic.nack"

/-- The named arguments of a method, apart from the message. -/
def arguments : Method → List (String × Document)
  | selectConfirms | setPrefetch _ => []
  | declare queue passive durable exclusive autoDelete =>
    [("queue", .text queue), ("passive", .bool passive), ("durable", .bool durable), ("exclusive", .bool exclusive),
      ("auto_delete", .bool autoDelete)]
  | publish queue mandatory deliveryMode _ =>
    [("queue", .text queue), ("mandatory", .bool mandatory), ("delivery_mode", .integer deliveryMode)]
  | consume queue consumer flags => [("queue", .text queue), ("tag", .text consumer), ("flags", .integer flags)]
  | ack tag multiple => [("tag", .integer tag), ("multiple", .bool multiple)]
  | nack tag multiple requeue => [("tag", .integer tag), ("multiple", .bool multiple), ("requeue", .bool requeue)]

end Method

/-- What a broker answers. -/
inductive Reply
  | done
  /-- A queue is there, with so many messages waiting. -/
  | declared (waiting : Nat)
  | rejected
  | returned (code : Nat) (text : String)
  /-- The channel is closed.  The text is all that is said about it on our side of the channel. -/
  | closed (code : Nat) (text : String)
  deriving DecidableEq

/-- A delivery on its way to a consumer. -/
structure Arrival where
  consumer : String
  delivery : Delivery
  deriving DecidableEq

/-- Something that answers on a channel. -/
class Peer (β : Type) where
  /-- Whether a connection is accepted. -/
  connects : β → Bool
  /-- Whether a channel is opened on the connection. -/
  opens : β → Bool
  /-- What is answered, and what goes to consumers, when something is told. -/
  handle : β → Method → Reply × List Arrival × β

/-! ### A broker to run -/

/-- What a broker may refuse; a refusal with a queue concerns this queue only. -/
inductive Refusal
  | connection
  | channel
  | confirms
  | prefetch
  | declaring (queue : Option String)
  | consuming (queue : Option String)
  /-- The publication is rejected. -/
  | publishing (queue : Option String)
  /-- The channel is closed on the publication. -/
  | closing (queue : Option String)
  deriving DecidableEq

/-- A message in the keeping of a broker. -/
structure Held where
  message : Outbound
  redelivered : Bool := false
  deriving DecidableEq

structure BrokerQueue where
  waiting : List Held := []
  consumer : Option String := none
  deriving DecidableEq

structure Broker where
  refusals : List Refusal := []
  queues : Table BrokerQueue := ∅
  /-- The deliveries that are not settled, by tag, with the queue of each. -/
  unacked : List (Nat × String × Held) := []
  lastTag : Nat := 0
  received : List Method := []

/-- The code for something that is not there. -/
def notFound : Nat := 404

/-- The code and the text for a message that goes to no queue. -/
def noRoute : Nat × String := (312, "NO_ROUTE")

namespace Reply

/-- The channel is closed because a queue is not there. -/
def missing (queue : String) : Reply := .closed notFound s!"NOT_FOUND - no queue '{queue}' in vhost '/'"

/-- The channel is closed because something is refused. -/
def refused (subject : String) : Reply := .closed 403 s!"ACCESS_REFUSED - access to {subject} refused"

/-- The channel is closed because a queue may not be used. -/
def refusedQueue (queue : String) : Reply := .refused s!"queue '{queue}' in vhost '/'"

/-- The channel is closed because a tag is not open. -/
def unknownTag (tag : Nat) : Reply := .closed 406 s!"PRECONDITION_FAILED - unknown delivery tag {tag}"

end Reply

namespace Broker

/-- Whether one of the refusals concerns a queue. -/
def refuses (b : Broker) (kind : Option String → Refusal) (queue : String) : Bool :=
  b.refusals.contains (kind none) || b.refusals.contains (kind (some queue))

/-- Hands a message out under the next tag. -/
def handOut (b : Broker) (queue consumer : String) (held : Held) : Arrival × Broker :=
  let tag := b.lastTag + 1
  let message := held.message
  (⟨consumer, ⟨tag, message.body, message.replyTo, message.correlationId, held.redelivered⟩⟩,
    { b with lastTag := tag, unacked := b.unacked ++ [(tag, queue, held)] })

/-- Hands messages out one after another. -/
def handOutAll (b : Broker) (queue consumer : String) : List Held → List Arrival × Broker
  | [] => ([], b)
  | held :: rest =>
    let (arrival, b) := b.handOut queue consumer held
    let (arrivals, b) := handOutAll b queue consumer rest
    (arrival :: arrivals, b)

/-- Gives a message to the consumer of a queue, or keeps it there; `first` puts it before what waits. -/
def offer (b : Broker) (queue : String) (q : BrokerQueue) (held : Held) (first : Bool) : List Arrival × Broker :=
  match q.consumer with
  | some consumer =>
    let (arrival, b) := b.handOut queue consumer held
    ([arrival], b)
  | none =>
    let waiting := if first then held :: q.waiting else q.waiting ++ [held]
    ([], { b with queues := b.queues.insert queue { q with waiting } })

def declare (b : Broker) (queue : String) (passive : Bool) : Reply × Broker :=
  if b.refuses .declaring queue then (.refusedQueue queue, b)
  else
    match b.queues.get? queue with
    | some q => (.declared q.waiting.length, b)
    | none =>
      if passive then (.missing queue, b) else (.declared 0, { b with queues := b.queues.insert queue {} })

def publish (b : Broker) (queue : String) (message : Outbound) : Reply × List Arrival × Broker :=
  if b.refuses .closing queue then (.refusedQueue queue, [], b)
  else if b.refuses .publishing queue then (.rejected, [], b)
  else
    match b.queues.get? queue with
    | none => (.returned noRoute.1 noRoute.2, [], b)
    | some q => (.done, b.offer queue q ⟨message, false⟩ false)

def consume (b : Broker) (queue consumer : String) : Reply × List Arrival × Broker :=
  if b.refuses .consuming queue then (.refusedQueue queue, [], b)
  else
    match b.queues.get? queue with
    | none => (.missing queue, [], b)
    | some q =>
      (.done, { b with queues := b.queues.insert queue { consumer := some consumer } }.handOutAll queue consumer
        q.waiting)

/-- Settles a delivery. -/
def settle (b : Broker) (tag : Nat) (requeue : Bool) : Reply × List Arrival × Broker :=
  match b.unacked.lookup tag with
  | none => (.unknownTag tag, [], b)
  | some (queue, held) =>
    let b := { b with unacked := b.unacked.filter fun entry => entry.1 ≠ tag }
    if requeue then (.done, b.offer queue ((b.queues.get? queue).getD {}) { held with redelivered := true } true)
    else (.done, [], b)

/-- What a broker does when it is told something. -/
def handle (b : Broker) (method : Method) : Reply × List Arrival × Broker :=
  let b := { b with received := b.received ++ [method] }
  match method with
  | .selectConfirms => (if b.refusals.contains .confirms then .refused method.name else .done, [], b)
  | .setPrefetch _ => (if b.refusals.contains .prefetch then .refused method.name else .done, [], b)
  | .declare queue passive _ _ _ =>
    let (reply, b) := b.declare queue passive
    (reply, [], b)
  | .publish queue _ _ message => b.publish queue message
  | .consume queue consumer _ => b.consume queue consumer
  | .ack tag _ => b.settle tag false
  | .nack tag _ requeue => b.settle tag requeue

instance : Peer Broker where
  connects b := !b.refusals.contains .connection
  opens b := !b.refusals.contains .channel
  handle := handle

end Broker

end SpeechDispatch.Amqp
