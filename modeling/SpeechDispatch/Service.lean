import SpeechDispatch.Listening
import SpeechDispatch.Queue.Memory
import SpeechDispatch.Threshold

/-!
# The running dispatcher

The listener, the controller and the failure detector on queues in memory, driven by a clock.  What follows from an
event happens at its time: messages are taken until none waits, then a pass runs if the controller was woken, and so on
until all is quiet (`settle`).  The detector acts whenever its interval has passed.  A part that a threshold breaks off
is gone, and the others go on.
-/

namespace SpeechDispatch

/-- What a running dispatcher is made of, and does not change. -/
structure ServiceSettings (α : Type) where
  queues : ChannelQueues
  strategy : Strategy α
  lookups : Lookups α
  detector : DetectorSettings

structure Service (α : Type) where
  settings : ServiceSettings α
  hub : Hub α MemoryQueue
  listening : Listening
  /-- Whether the controller runs. -/
  controlling : Bool := true
  /-- Whether the failure detector runs. -/
  detecting : Bool := true

namespace Service

variable {α : Type} [Quantity α]

/-- The order in which waiting channels are served. -/
def channels : List Channel := [.heartbeat, .work, .response]

/-- Takes the stream of a channel, if it can be had. -/
def openChannel (queues : ChannelQueues) (start : List Channel × MemoryQueue) (channel : Channel) :
    List Channel × MemoryQueue :=
  match start.2.consume (queues.queue channel) with
  | (.ok (), q) => (channel :: start.1, q)
  | (.error _, q) => (start.1, q)

/-- Makes the queues of the dispatcher and starts to listen on them. -/
def start (settings : ServiceSettings α) (state : DispatchState α) (queue : MemoryQueue) : Service α :=
  let declared := settings.queues.names.foldl (fun q name => q.create name true) queue
  let (opened, queue) := channels.foldl (openChannel settings.queues) ([], declared)
  { settings, hub := { state, outlet := queue }, listening := .start opened.contains }

/-- The first waiting message of a channel that is listened to. -/
def nextDelivery (s : Service α) : Option (Channel × Delivery × MemoryQueue) :=
  channels.findSome? fun channel =>
    if s.listening.on channel then
      match s.hub.outlet.next (s.settings.queues.queue channel) with
      | (some delivery, q) => some (channel, delivery, q)
      | (none, _) => none
    else none

/-- The listener is gone, and the streams of its loops with it. -/
def dropListener (s : Service α) : Service α :=
  let queues := (channels.filter s.listening.on).map s.settings.queues.queue
  { s with
    hub := { s.hub with outlet := queues.foldl MemoryQueue.abandon s.hub.outlet }
    listening := s.listening.stop }

/-- What follows from a delivery.  If the listener is broken off, it is not settled. -/
def takeDelivery (s : Service α) (channel : Channel) (delivery : Delivery) (now : Instant) : Service α :=
  match s.hub.receive? s.settings.lookups channel delivery now with
  | some hub => { s with hub }
  | none => s.dropListener

/-- A pass of the controller. -/
def runPass (s : Service α) (now : Instant) : Service α :=
  match s.hub.pass? s.settings.strategy now with
  | some (_, hub) => { s with hub }
  | none => { s with controlling := false }

/-- One thing that is due: a message, or else a pass. -/
def step? (s : Service α) (now : Instant) : Option (Service α) :=
  match s.nextDelivery with
  | some (channel, delivery, q) => some ({ s with hub := { s.hub with outlet := q } }.takeDelivery channel delivery now)
  | none =>
    if s.controlling then
      match s.hub.takeSignal with
      | (true, hub) => some ({ s with hub }.runPass now)
      | (false, _) => none
    else none

/-- All that is due, up to a number of things. -/
def settle (s : Service α) (now : Instant) : Nat → Service α
  | 0 => s
  | limit + 1 =>
    match s.step? now with
    | some s => s.settle now limit
    | none => s

/-- How many things may follow from one event. -/
def settleLimit : Nat := 1000000

/-- Publishes a message from outside, and lets follow what follows. -/
def publish (s : Service α) (queue : String) (message : Outbound) (now : Instant) :
    Except DispatchError Unit × Service α :=
  let (result, q) := s.hub.outlet.publish queue message
  (result, { s with hub := { s.hub with outlet := q } }.settle now settleLimit)

/-- One round of the failure detector, and what follows from it. -/
def detect (s : Service α) (now : Instant) : Service α :=
  if s.detecting then
    match s.hub.detect? s.settings.detector.thresholdSeconds now with
    | .ok (_, hub) => { s with hub }.settle now settleLimit
    | .error hub => { s with hub, detecting := false }
  else s

/-- The rounds of the failure detector from the one after `done` to the one with number `last`. -/
def rounds (s : Service α) (begin : Instant) (done last : Nat) : Service α :=
  (List.range' (done + 1) (last - done)).foldl
    (fun s n => s.detect (begin + Instant.seconds (n * s.settings.detector.intervalSeconds : Nat))) s

/-- All waiting messages of a queue for a consumer outside, which acknowledges them. -/
def drain (q : MemoryQueue) (queue : String) : List Delivery × MemoryQueue :=
  go q (q.size queue)
where
  go (q : MemoryQueue) : Nat → List Delivery × MemoryQueue
    | 0 => ([], q)
    | n + 1 =>
      match q.next queue with
      | (none, q) => ([], q)
      | (some delivery, q) =>
        let (rest, q) := go (q.ack delivery.tag).2 n
        (delivery :: rest, q)

end Service

end SpeechDispatch
