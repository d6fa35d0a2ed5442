import SpeechDispatch.Detection
import SpeechDispatch.Matching.Cost
import SpeechDispatch.Proofs.DispatchState
import SpeechDispatch.Proofs.Fold
import SpeechDispatch.Proofs.OutletView

/-!
# Runs of a dispatcher

A run is a list of events, each with its own clock reading and, where something is published, its own outlet, so that
any outcomes of publications can follow one another.  A journal is an outlet that keeps what was accepted; nothing
else depends on it (`Hub.pass_onOutlet`, `DispatchState.processResponse_onOutlet`), so what a run publishes can be
read off without changing the run.
-/

namespace SpeechDispatch

variable {α σ : Type}

/-! ### Journals -/

/-- An outlet with the list of what it accepted, in order. -/
structure Journal (σ : Type) where
  outlet : σ
  sent : List (String × Outbound) := []

instance [Outlet σ] : Outlet (Journal σ) where
  publish journal queue message :=
    match Outlet.publish journal.outlet queue message with
    | (.accepted, outlet) => (.accepted, ⟨outlet, journal.sent ++ [(queue, message)]⟩)
    | (.refused error, outlet) => (.refused error, ⟨outlet, journal.sent⟩)
    | (.stalled, outlet) => (.stalled, ⟨outlet, journal.sent⟩)

theorem Journal.publish_eq [Outlet σ] (journal : Journal σ) (queue : String) (message : Outbound) :
    Outlet.publish journal queue message =
      match Outlet.publish journal.outlet queue message with
      | (.accepted, outlet) => (.accepted, ⟨outlet, journal.sent ++ [(queue, message)]⟩)
      | (.refused error, outlet) => (.refused error, ⟨outlet, journal.sent⟩)
      | (.stalled, outlet) => (.stalled, ⟨outlet, journal.sent⟩) := rfl

/-- A publication on a journal ends as it does on the outlet behind it, and is noted if it was accepted. -/
theorem Journal.publishWithin_eq [Outlet σ] (journal : Journal σ) (timeoutMillis : Nat) (queue : String)
    (message : Outbound) :
    Outlet.publishWithin journal timeoutMillis queue message =
      ((Outlet.publishWithin journal.outlet timeoutMillis queue message).1,
        ⟨(Outlet.publishWithin journal.outlet timeoutMillis queue message).2,
          match (Outlet.publishWithin journal.outlet timeoutMillis queue message).1 with
          | .ok () => journal.sent ++ [(queue, message)]
          | .error _ => journal.sent⟩) := by
  unfold Outlet.publishWithin
  rw [publish_eq]
  rcases Outlet.publish journal.outlet queue message with ⟨outcome, outlet⟩
  cases outcome <;> rfl

/-- The hub as it is without the journal. -/
def Hub.onOutlet (h : Hub α (Journal σ)) : Hub α σ :=
  { state := h.state, signal := h.signal, metrics := h.metrics, outlet := h.outlet.outlet }

@[simp] theorem Hub.state_onOutlet (h : Hub α (Journal σ)) : h.onOutlet.state = h.state := rfl

/-! ### Events -/

/-- What can happen to a dispatcher: a registration message, a work item, a scheduling pass, a result, or a round of
the failure detector. -/
inductive Event (α σ : Type)
  | registration (message : Registration) (now : Instant)
  | work (id : String) (profile : ModelProfile α) (duration : α) (arrivedAt : Instant) (origin : Origin)
      (now : Instant)
  | pass (strategy : Strategy α) (outlet : σ) (now : Instant)
  | response (id : String) (body : Bytes) (redelivered : Bool) (outlet : σ) (now : Instant)
  | round (threshold : Int) (outlet : σ) (now : Instant)

namespace DispatchState

variable [Quantity α] [Outlet σ]

/-- The state after an event. -/
def after (s : DispatchState α) : Event α σ → DispatchState α
  | .registration message now => (s.applyRegistration message now).2
  | .work id profile duration arrivedAt origin now =>
    (s.addTask (Task.arrive id profile duration arrivedAt origin) now).2
  | .pass strategy outlet now => (Hub.pass { state := s, outlet } strategy now).2.state
  | .response id body redelivered outlet now => (s.processResponse id body redelivered outlet now).2.1
  | .round threshold outlet now => (Hub.detect { state := s, outlet } threshold now).2.state

/-- The state after a list of events. -/
def run (s : DispatchState α) (events : List (Event α σ)) : DispatchState α := events.foldl after s

end DispatchState

/-! ### Runs that can be computed -/

/-- Exact numbers, of which none is infinite; the mark among them is the greatest double. -/
instance : Quantity Rat where
  zero := 0
  lt x y := x < y
  le x y := x ≤ y
  same x y := x == y
  ranks x y := x ≤ y
  ofMillis n := n / 1000
  toMillis x := (x * 1000).num.tdiv (x * 1000).den
  unavailable := ((Nat.pow 2 53 - 1) * Nat.pow 2 971 : Nat)
  isBounded _ := true

/-- An outlet on which every publication ends in the same way. -/
instance : Outlet Publication where
  publish outcome _ _ := (outcome, outcome)

/-- A worker joins, a task comes, and a pass brings them together. -/
def DispatchState.firstDispatch : List (Event Rat Publication) :=
  [.registration ⟨"w", .register, 0⟩ 0,
    .work "t" ⟨"model", 1 / 2, 3⟩ 10 1000000 ⟨Bytes.ofText "{}", some "caller", none⟩ 1000000,
    .pass (CostModel.select ⟨60, 1⟩) .accepted 2000000]

/-! ### Journals change nothing else -/

variable [Outlet σ]

theorem Journal.isView_outlet : Outlet.IsView (Journal.outlet : Journal σ → σ) := by
  intro journal queue message
  rw [publish_eq]
  rcases Outlet.publish journal.outlet queue message with ⟨_ | _ | _, outlet⟩ <;> rfl

theorem DispatchState.processResponse_onOutlet (s : DispatchState α) (id : String) (body : Bytes) (redelivered : Bool)
    (journal : Journal σ) (now : Instant) :
    s.processResponse id body redelivered journal.outlet now =
      ((s.processResponse id body redelivered journal now).1, (s.processResponse id body redelivered journal now).2.1,
        (s.processResponse id body redelivered journal now).2.2.outlet) :=
  s.processResponse_through Journal.isView_outlet id body redelivered journal now

namespace Hub

variable [Quantity α]

/-- A pass does the same on a journal as on the outlet behind it. -/
theorem pass_onOutlet (h : Hub α (Journal σ)) (strategy : Strategy α) (now : Instant) :
    h.onOutlet.pass strategy now = ((h.pass strategy now).1, (h.pass strategy now).2.onOutlet) :=
  h.pass_through Journal.isView_outlet strategy now

theorem state_pass_onOutlet (h : Hub α (Journal σ)) (strategy : Strategy α) (now : Instant) :
    (h.onOutlet.pass strategy now).2.state = (h.pass strategy now).2.state := by
  rw [pass_onOutlet]
  exact state_onOutlet _

/-- A pass counts what its offers started. -/
theorem started_pass (h : Hub α σ) (strategy : Strategy α) (now : Instant) :
    (h.pass strategy now).1 =
      ((h.prune now).offerAll strategy now (h.prune now).state.workers.idleQueues).1 := by
  simp only [pass]

/-- After the removals a pass changes the state by its offers only. -/
theorem state_pass (h : Hub α σ) (strategy : Strategy α) (now : Instant) :
    (h.pass strategy now).2.state =
      ((h.prune now).offerAll strategy now (h.prune now).state.workers.idleQueues).2.state := by
  simp only [pass]
  generalize (h.prune now).offerAll strategy now (h.prune now).state.workers.idleQueues = offered
  rfl

/-- A pass publishes what its offers publish. -/
theorem outlet_pass (h : Hub α σ) (strategy : Strategy α) (now : Instant) :
    (h.pass strategy now).2.outlet =
      ((h.prune now).offerAll strategy now (h.prune now).state.workers.idleQueues).2.outlet := by
  simp only [pass]
  generalize (h.prune now).offerAll strategy now (h.prune now).state.workers.idleQueues = offered
  rfl

omit [Quantity α] in
/-- A round publishes its notices, and nothing else. -/
theorem outlet_detect (h : Hub α σ) (threshold : Int) (now : Instant) :
    (h.detect threshold now).2.outlet = (notifyAll h.outlet (roundOf h.state now threshold).2.1).2 := by
  unfold detect
  dsimp only
  split
  · rename_i hnotify
    exact (congrArg Prod.snd hnotify).symm
  · rename_i hnotify
    split <;> exact (congrArg Prod.snd hnotify).symm

omit [Quantity α] in
/-- The detector leaves the state as the round does, and reports the round unless a notice stalls. -/
theorem detect_eq_roundOf (h : Hub α σ) (threshold : Int) (now : Instant) :
    (h.detect threshold now).2.state = (roundOf h.state now threshold).2.2 ∧
      (h.detect threshold now).1 =
        if (notifyAll h.outlet (roundOf h.state now threshold).2.1).1 = true then
          some ⟨(roundOf h.state now threshold).1, (roundOf h.state now threshold).2.1.map (·.1.id)⟩
        else none := by
  unfold detect
  rcases roundOf h.state now threshold with ⟨sweep, evicted, state⟩
  dsimp only [countRequeued]
  rcases notifyAll h.outlet evicted with ⟨_ | _, outlet⟩
  · exact ⟨rfl, rfl⟩
  · dsimp only
    split <;> exact ⟨rfl, rfl⟩

end Hub

end SpeechDispatch
