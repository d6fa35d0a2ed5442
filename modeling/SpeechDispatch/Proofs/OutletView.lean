import SpeechDispatch.Pass
import SpeechDispatch.Proofs.Handling

/-!
# Outlets behind outlets

An outlet may keep more than the dispatcher learns of it, such as a list of what was published.  A function that
forgets the rest is a view of it (`Outlet.IsView`) if publications end alike on both sides, and then a pass and the
handling of a delivery do on the one what they do on the other (`Hub.pass_through`, `Hub.handle_through`).
-/

namespace SpeechDispatch

variable {α σ τ : Type} [Outlet σ] [Outlet τ]

/-- Publications end in the same way on an outlet and on what is seen of it. -/
def Outlet.IsView (f : τ → σ) : Prop :=
  ∀ (outlet : τ) (queue : String) (message : Outbound),
    Outlet.publish (f outlet) queue message =
      ((Outlet.publish outlet queue message).1, f (Outlet.publish outlet queue message).2)

theorem Outlet.IsView.publishWithin {f : τ → σ} (hf : Outlet.IsView f) (outlet : τ) (timeoutMillis : Nat)
    (queue : String) (message : Outbound) :
    Outlet.publishWithin (f outlet) timeoutMillis queue message =
      ((Outlet.publishWithin outlet timeoutMillis queue message).1,
        f (Outlet.publishWithin outlet timeoutMillis queue message).2) := by
  unfold Outlet.publishWithin
  rw [hf]
  rcases Outlet.publish outlet queue message with ⟨_ | _ | _, outlet'⟩ <;> rfl

/-! ### The operations on the state -/

namespace DispatchState

variable {f : τ → σ} (hf : Outlet.IsView f) (s : DispatchState α)

include hf

theorem startOn_through [Quantity α] (id queue : String) (outlet : τ) (now : Instant) :
    s.startOn id queue (f outlet) now =
      ((s.startOn id queue outlet now).1, (s.startOn id queue outlet now).2.1,
        f (s.startOn id queue outlet now).2.2) := by
  unfold startOn
  cases s.startable id queue with
  | error e => rfl
  | ok task =>
    simp only [hf.publishWithin]
    rcases Outlet.publishWithin outlet s.publishTimeoutMillis queue (s.dispatchMessage task) with ⟨result, outlet'⟩
    cases result with
    | error e => rfl
    | ok _ => rfl

theorem forward_through (task : Task α) (body : Bytes) (outlet : τ) :
    s.forward task body (f outlet) = ((s.forward task body outlet).1, f (s.forward task body outlet).2) := by
  unfold forward
  cases task.origin.replyTo with
  | none => rfl
  | some replyTo => simp only [hf.publishWithin]

theorem processResponse_through (id : String) (body : Bytes) (redelivered : Bool) (outlet : τ) (now : Instant) :
    s.processResponse id body redelivered (f outlet) now =
      ((s.processResponse id body redelivered outlet now).1, (s.processResponse id body redelivered outlet now).2.1,
        f (s.processResponse id body redelivered outlet now).2.2) := by
  unfold processResponse
  cases s.tasks.get? id with
  | none => rfl
  | some task =>
    dsimp only
    rw [forward_through hf]
    rcases s.forward task body outlet with ⟨result, outlet'⟩
    cases result with
    | ok _ => rfl
    | error e =>
      dsimp only
      split <;> rfl

end DispatchState

/-! ### The operations on a hub -/

namespace Hub

/-- A hub with what is seen of its outlet. -/
def through (f : τ → σ) (h : Hub α τ) : Hub α σ :=
  { state := h.state, signal := h.signal, metrics := h.metrics, outlet := f h.outlet }

variable {f : τ → σ} (hf : Outlet.IsView f) (h : Hub α τ)

include hf

section Pass

variable [Quantity α]

theorem offer_through (strategy : Strategy α) (queue : String) (now : Instant) :
    (h.through f).offer strategy queue now =
      ((h.offer strategy queue now).1, (h.offer strategy queue now).2.through f) := by
  unfold offer
  dsimp only [through]
  by_cases hempty : h.state.tasks.snapshot.isEmpty = true
  · simp only [hempty, if_true]
  simp only [hempty]
  cases ((h.state.workers.snapshot now : List (WorkerView α)).findIdx? (·.queue == queue)) with
  | none => rfl
  | some index =>
    dsimp only
    rcases strategy (h.state.workers.snapshot now) h.state.tasks.snapshot index now with e | _ | id
    · rfl
    · rfl
    · simp only [dispatch, DispatchState.startOn_through hf, Bool.false_eq_true, if_false]
      rcases h.state.startOn id queue h.outlet now with ⟨result, state, outlet⟩
      cases result <;> rfl

theorem offerAll_through (strategy : Strategy α) (now : Instant) (queues : List String) :
    (h.through f).offerAll strategy now queues =
      ((h.offerAll strategy now queues).1, (h.offerAll strategy now queues).2.through f) := by
  induction queues generalizing h with
  | nil => rfl
  | cons queue rest ih => simp only [offerAll, offer_through hf, ih]

theorem pass_through (strategy : Strategy α) (now : Instant) :
    (h.through f).pass strategy now = ((h.pass strategy now).1, (h.pass strategy now).2.through f) := by
  have hprune : (h.through f).prune now = (h.prune now).through f := rfl
  have hqueues : ((h.prune now).through f).state.workers.idleQueues = (h.prune now).state.workers.idleQueues := rfl
  simp only [pass, hprune, hqueues, offerAll_through hf]
  generalize (h.prune now).offerAll strategy now (h.prune now).state.workers.idleQueues = offered
  rfl

end Pass

theorem processResponse_through (delivery : Delivery) (now : Instant) :
    (h.through f).processResponse delivery now =
      ((h.processResponse delivery now).1, (h.processResponse delivery now).2.through f) := by
  unfold processResponse
  cases delivery.correlationId with
  | none => rfl
  | some id =>
    dsimp only [through]
    rw [DispatchState.processResponse_through hf]
    rcases h.state.processResponse id delivery.body delivery.redelivered h.outlet now with ⟨_ | _, state, outlet⟩
    all_goals rfl

/-- Registrations and work items do not touch the outlet at all. -/
theorem handle_through (lookups : Lookups α) (channel : Channel) (delivery : Delivery) (now : Instant) :
    (h.through f).handle lookups channel delivery now =
      ((h.handle lookups channel delivery now).1, (h.handle lookups channel delivery now).2.through f) := by
  cases channel with
  | heartbeat =>
    simp only [handle, processRegistration]
    cases Registration.decode delivery.body with
    | error e => rfl
    | ok message =>
      dsimp only [through]
      rcases h.state.applyRegistration message now with ⟨_ | _ | _, state⟩ <;> rfl
  | work =>
    simp only [handle, processWorkItem]
    cases taskOf lookups delivery now with
    | error e => rfl
    | ok task =>
      dsimp only [through]
      rcases h.state.addTask task now with ⟨_ | _, state⟩ <;> rfl
  | response =>
    simp only [handle, processResponse_through hf]
    rcases h.processResponse delivery now with ⟨e | _ | _, h'⟩
    · cases e <;> rfl
    · rfl
    · rfl

end Hub

end SpeechDispatch
