import SpeechDispatch.Intake

/-!
# Handling and settling

Taking a delivery in ends with its settlement, whatever has come of it (`Hub.receive_eq`).  What is done before, and how
the delivery is settled then, needs an outlet only (`Hub.handle`), and publishes results only (`Hub.outlet_handle`).
-/

namespace SpeechDispatch.Hub

variable {α σ : Type}

/-- Takes a delivery of a channel: what it does, and how it is settled. -/
def handle [Outlet σ] (h : Hub α σ) (lookups : Lookups α) (channel : Channel) (delivery : Delivery)
    (now : Instant) : Settlement × Hub α σ :=
  match channel with
  | .heartbeat =>
    match h.processRegistration delivery.body now with
    | (.ok (), h) => (.ack, h)
    | (.error _, h) => (.ack, h.countDropped)
  | .work =>
    match h.processWorkItem lookups delivery now with
    | (.ok (), h) => (.ack, h.countReceived)
    | (.error _, h) => (.ack, h.countDropped)
  | .response =>
    match h.processResponse delivery now with
    | (.ok .ack, h) => (.ack, h.countForwarded)
    | (.ok (.nack requeue), h) => (.nack requeue, h.countForwardFailure)
    | (.error (.unknownCorrelation _), h) => (.ack, h.countUnknown)
    | (.error _, h) => (.ack, h.countDropped)

/-- Whatever becomes of a delivery, its settlement comes once and comes last. -/
theorem receive_eq [Carrier σ] (h : Hub α σ) (lookups : Lookups α) (channel : Channel) (delivery : Delivery)
    (now : Instant) :
    h.receive lookups channel delivery now =
      (h.handle lookups channel delivery now).2.settle delivery (h.handle lookups channel delivery now).1 := by
  cases channel with
  | heartbeat =>
    unfold receive handle
    dsimp only
    rcases h.processRegistration delivery.body now with ⟨_ | _, h'⟩ <;> rfl
  | work =>
    unfold receive handle
    dsimp only
    rcases h.processWorkItem lookups delivery now with ⟨_ | _, h'⟩ <;> rfl
  | response =>
    unfold receive handle
    dsimp only
    rcases h.processResponse delivery now with ⟨e | _ | _, h'⟩
    · cases e <;> rfl
    · rfl
    · rfl

/-- Only results are published on arrival. -/
theorem outlet_handle [Outlet σ] (h : Hub α σ) (lookups : Lookups α) (channel : Channel) (delivery : Delivery)
    (now : Instant) :
    (h.handle lookups channel delivery now).2.outlet =
      match channel, delivery.correlationId with
      | .response, some id => (h.state.processResponse id delivery.body delivery.redelivered h.outlet now).2.2
      | _, _ => h.outlet := by
  cases channel with
  | heartbeat =>
    simp only [handle, processRegistration]
    cases Registration.decode delivery.body with
    | error e => rfl
    | ok message =>
      dsimp only
      rcases h.state.applyRegistration message now with ⟨_ | _ | _, state⟩ <;> rfl
  | work =>
    simp only [handle, processWorkItem]
    cases taskOf lookups delivery now with
    | error e => rfl
    | ok task =>
      dsimp only
      rcases h.state.addTask task now with ⟨_ | _, state⟩ <;> rfl
  | response =>
    simp only [handle, processResponse]
    cases delivery.correlationId with
    | none => rfl
    | some id =>
      dsimp only
      rcases h.state.processResponse id delivery.body delivery.redelivered h.outlet now with ⟨e | _ | _, state, outlet⟩
      · cases e <;> rfl
      · rfl
      · rfl

end SpeechDispatch.Hub
