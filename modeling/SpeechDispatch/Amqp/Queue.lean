import SpeechDispatch.Amqp.Broker
import SpeechDispatch.Queue.Setup

/-!
# Queues at a broker

The dispatcher's queues, kept by a broker.  All operations share one channel: once the broker has closed it, each of
them fails, and the broker hears no more.  Asking for the size of a queue is answered with zero if what closes the
channel speaks of something not found.
-/

namespace SpeechDispatch.Amqp

/-- What is found at the address of a broker. -/
inductive Endpoint (β : Type)
  /-- The connection is refused. -/
  | nothing
  /-- The connection is accepted, and nothing is ever said. -/
  | silent
  | broker (broker : β)

/-- How far a channel is. -/
inductive ChannelState
  | working
  /-- Closed by the broker; the connection stays. -/
  | failed
  /-- Closed with the connection, on our own wish. -/
  | closed
  deriving DecidableEq

/-- What a consumer gets when it looks. -/
inductive Polled
  | delivery (delivery : Delivery)
  | nothing
  | failure (error : DispatchError)
  | ended
  deriving DecidableEq

/-- The receiving end of a consumer. -/
structure Stream where
  arrived : List Delivery := []
  /-- Whether the failure of the channel has been told. -/
  told : Bool := false
  deriving DecidableEq

structure Queue (β : Type) where
  settings : QueueSettings
  broker : β
  channel : ChannelState := .working
  /-- The streams by consumer. -/
  streams : Table Stream := ∅

/-- Whether a word stands somewhere in a text. -/
def mentions (word : List Char) : List Char → Bool
  | [] => word.isEmpty
  | c :: rest => word.isPrefixOf (c :: rest) || mentions word rest

/-- Whether an error speaks of something that is not there. -/
def saysNotFound (text : String) : Bool := mentions "NOT_FOUND".toList text.toList || mentions "404".toList text.toList

namespace Queue

variable {β : Type}

/-- Puts arrivals into the streams of their consumers. -/
def receive (streams : Table Stream) (arrivals : List Arrival) : Table Stream :=
  arrivals.foldl (fun streams arrival => streams.modify arrival.consumer fun stream =>
    { stream with arrived := stream.arrived ++ [arrival.delivery] }) streams

/-- Tells the broker something; `none` if the channel no longer works. -/
def tell [Peer β] (q : Queue β) (method : Method) : Option Reply × Queue β :=
  if q.channel = .working then
    let (reply, arrivals, broker) := Peer.handle q.broker method
    let channel := match reply with
      | .closed _ _ => .failed
      | _ => .working
    (some reply, { q with broker, channel, streams := receive q.streams arrivals })
  else (none, q)

/-- Whether the connection stands. -/
def isConnected (q : Queue β) : Bool := q.channel ≠ .closed

def failure (fault : QueueFault) : DispatchError := .messageQueue fault

/-- Takes what a consumer has next. -/
def next (q : Queue β) (consumer : String) : Polled × Queue β :=
  match q.streams.get? consumer with
  | none => (.ended, q)
  | some stream =>
    match stream.arrived with
    | delivery :: rest =>
      (.delivery delivery, { q with streams := q.streams.insert consumer { stream with arrived := rest } })
    | [] =>
      if q.channel = .working then (.nothing, q)
      else if q.channel = .failed ∧ ¬ stream.told then
        (.failure (failure .receive), { q with streams := q.streams.insert consumer { stream with told := true } })
      else (.ended, q)

/-- Ends the connection. -/
def close (q : Queue β) : Except DispatchError Unit × Queue β :=
  if q.isConnected then (.ok (), { q with channel := .closed }) else (.error (failure .close), q)

/-! ### On the channel -/

variable [Peer β]

/-- Publishes a message that is kept on disk and comes back if there is no queue for it, and waits for the broker's word
on it. -/
def publish (q : Queue β) (queue : String) (message : Outbound) : Except DispatchError Unit × Queue β :=
  let (reply, q) := q.tell (.publish queue true 2 message)
  (match reply with
    | none => .error (failure (.publish queue))
    | some (.closed _ _) => .error (failure .awaitConfirm)
    | some .rejected => .error (failure (.rejected queue))
    | some (.returned code text) => .error (failure (.returned queue code text))
    | some _ => .ok (), q)

/-- Makes a queue, if there is none of the name. -/
def create (q : Queue β) (queue : String) (durable : Bool) : Except DispatchError Unit × Queue β :=
  let (reply, q) := q.tell (.declare queue false durable false false)
  (match reply with
    | some (.declared _) => .ok ()
    | _ => .error (failure (.declare queue)), q)

/-- Starts a consumer on a queue. -/
def consume (q : Queue β) (queue consumer : String) : Except DispatchError Unit × Queue β :=
  let (reply, told) := { q with streams := q.streams.insert consumer {} }.tell (.consume queue consumer 0)
  match reply with
  | some .done => (.ok (), told)
  | _ => (.error (failure .createConsumer), { told with streams := q.streams })

/-- Settles a delivery as done; that its tag is wrong shows later only. -/
def ack (q : Queue β) (tag : Nat) : Except DispatchError Unit × Queue β :=
  let (reply, q) := q.tell (.ack tag false)
  (if reply.isSome then .ok () else .error (failure .ack), q)

/-- Settles a delivery as refused; that its tag is wrong shows later only. -/
def nack (q : Queue β) (tag : Nat) (requeue : Bool) : Except DispatchError Unit × Queue β :=
  let (reply, q) := q.tell (.nack tag false requeue)
  (if reply.isSome then .ok () else .error (failure .nack), q)

/-- How many messages wait in a queue; none if the broker says that something is not there. -/
def size (q : Queue β) (queue : String) : Except DispatchError Nat × Queue β :=
  let (reply, q) := q.tell (.inspect queue)
  (match reply with
    | some (.declared waiting) => .ok waiting
    | some (.closed _ text) => if saysNotFound text then .ok 0 else .error (failure (.inspect queue))
    | _ => .error (failure (.inspect queue)), q)

/-! ### Connecting -/

/-- Asks a broker for confirmations and sets how much it may send ahead; what fails is told first.  Also gives the
broker as it is then. -/
def prepare (settings : QueueSettings) (broker : β) : Except DispatchError (Queue β) × β :=
  let (confirms, q) := ({ settings, broker } : Queue β).tell .selectConfirms
  if confirms ≠ some .done then (.error (failure .enableConfirms), q.broker)
  else
    let (prefetch, q) := q.tell (.setPrefetch settings.prefetchCount)
    if prefetch ≠ some .done then (.error (failure .setPrefetch), q.broker) else (.ok q, q.broker)

/-- Connects to what is found at the address; also gives the broker that was reached. -/
def connect (settings : QueueSettings) : Endpoint β → Except DispatchError (Queue β) × Option β
  | .nothing => (.error (failure .connect), none)
  | .silent => (.error (failure (.connectTimeout settings.connectionTimeoutSeconds)), none)
  | .broker broker =>
    if !Peer.connects broker then (.error (failure .connect), some broker)
    else if !Peer.opens broker then (.error (failure .openChannel), some broker)
    else
      let (result, broker) := prepare settings broker
      (result, some broker)

/-- Connects after the settings were checked. -/
def setUp (settings : QueueSettings) (endpoint : Endpoint β) : Except DispatchError (Queue β) × Option β :=
  match settings.checkSetup with
  | .error error => (.error error, none)
  | .ok () => connect settings endpoint

end Queue

end SpeechDispatch.Amqp
