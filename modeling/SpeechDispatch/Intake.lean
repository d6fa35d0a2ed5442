import SpeechDispatch.Hub
import SpeechDispatch.Message.Registration
import SpeechDispatch.Message.WorkItem

/-!
# Taking messages in

The dispatcher listens on three channels: for beats of workers, for work, and for results.  Every delivery is settled
once.  A delivery that cannot be used is counted and acknowledged; only a result that could not be forwarded is
rejected, and comes again if it was delivered for the first time.
-/

namespace SpeechDispatch

inductive Channel
  | heartbeat
  | work
  | response
  deriving DecidableEq

/-- The names of the queues behind the channels. -/
structure ChannelQueues where
  heartbeat : String
  work : String
  response : String
  deriving DecidableEq

namespace ChannelQueues

def queue (queues : ChannelQueues) : Channel → String
  | .heartbeat => queues.heartbeat
  | .work => queues.work
  | .response => queues.response

def names (queues : ChannelQueues) : List String := [queues.heartbeat, queues.work, queues.response]

end ChannelQueues

/-- Where the dispatcher looks up what a work item does not say. -/
structure Lookups (α : Type) where
  /-- The model of a recognition profile. -/
  profile : String → Except DispatchError (ModelProfile α)
  /-- The length of the recording of an item. -/
  duration : String → Except DispatchError α

namespace Hub

variable {α σ : Type}

/-- Takes a registration message, and wakes the controller if it changed anything. -/
def processRegistration (h : Hub α σ) (body : Bytes) (now : Instant) : Except DispatchError Unit × Hub α σ :=
  match Registration.decode body with
  | .error e => (.error e, h)
  | .ok message =>
    match h.state.applyRegistration message now with
    | (.error e, state) => (.error e, { h with state })
    | (.ok changed, state) =>
      let h := { h with state }
      (.ok (), if changed then h.wake else h)

/-- The task that a delivery asks for. -/
def taskOf (lookups : Lookups α) (delivery : Delivery) (now : Instant) : Except DispatchError (Task α) := do
  let item ← WorkItem.decode delivery.body
  let profile ← lookups.profile item.profile
  let duration ← lookups.duration item.id
  return Task.arrive item.id profile duration now ⟨delivery.body, delivery.replyTo, delivery.correlationId⟩

/-- Takes a work item, and wakes the controller. -/
def processWorkItem (h : Hub α σ) (lookups : Lookups α) (delivery : Delivery) (now : Instant) :
    Except DispatchError Unit × Hub α σ :=
  match taskOf lookups delivery now with
  | .error e => (.error e, h)
  | .ok task =>
    match h.state.addTask task now with
    | (.error e, state) => (.error e, { h with state })
    | (.ok (), state) => (.ok (), { h with state }.wake)

/-- Takes a result, and wakes the controller: the worker is free, whatever became of the result. -/
def processResponse [Outlet σ] (h : Hub α σ) (delivery : Delivery) (now : Instant) :
    Except DispatchError Settlement × Hub α σ :=
  match delivery.correlationId with
  | none => (.error (.protocol .missingCorrelation), h)
  | some id =>
    match h.state.processResponse id delivery.body delivery.redelivered h.outlet now with
    | (.error e, state, outlet) => (.error e, { h with state, outlet })
    | (.ok settlement, state, outlet) => (.ok settlement, { h with state, outlet }.wake)

/-- Settles a delivery; whether that succeeds makes no difference to the dispatcher. -/
def settle [Carrier σ] (h : Hub α σ) (delivery : Delivery) (settlement : Settlement) : Hub α σ :=
  { h with outlet := Carrier.settle h.outlet delivery.tag settlement }

/-- Takes a delivery of a channel, counts it and settles it. -/
def receive [Carrier σ] (h : Hub α σ) (lookups : Lookups α) (channel : Channel) (delivery : Delivery)
    (now : Instant) : Hub α σ :=
  match channel with
  | .heartbeat =>
    match h.processRegistration delivery.body now with
    | (.ok (), h) => h.settle delivery .ack
    | (.error _, h) => h.countDropped.settle delivery .ack
  | .work =>
    match h.processWorkItem lookups delivery now with
    | (.ok (), h) => h.countReceived.settle delivery .ack
    | (.error _, h) => h.countDropped.settle delivery .ack
  | .response =>
    match h.processResponse delivery now with
    | (.ok .ack, h) => h.countForwarded.settle delivery .ack
    | (.ok (.nack requeue), h) => h.countForwardFailure.settle delivery (.nack requeue)
    | (.error (.unknownCorrelation _), h) => h.countUnknown.settle delivery .ack
    | (.error _, h) => h.countDropped.settle delivery .ack

end Hub

end SpeechDispatch
