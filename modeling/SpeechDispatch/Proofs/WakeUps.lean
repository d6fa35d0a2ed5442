import Mathlib.Logic.Function.Basic
import SpeechDispatch.Proofs.Run

/-!
# No change is overlooked

The listener and the failure detector change the state under its lock and signal afterwards, without the lock; the
controller waits for the signal, then takes the lock and makes a pass.  Signals that come together are stored as one
permit.  In whatever order all this happens, a change that no pass has seen yet is not forgotten: a permit is stored,
or a signal is still owed, or the controller was woken and has not taken the lock (`World.attended_of_changed`).

What is not signalled needs no pass: an errand that owes no signal leaves the state exactly as it was
(`Errand.run_of_futile`), and which errands these are can be told beforehand (`Errand.idle_iff_futile`).
-/

namespace SpeechDispatch

variable {α σ ι : Type}

/-! ### Errands -/

/-- Where the listener or the detector is with what it does. -/
inductive Duty (α : Type)
  | idle
  /-- Between a change and the signal for it, with these notices still to be sent. -/
  | owes (notices : List (Task α × String))
  /-- Waits without end for a notice to be taken; the signal for the change is still owed. -/
  | stuck

/-- What is done under the lock by others than the controller. -/
inductive Errand (α σ : Type)
  | take (lookups : Lookups α) (channel : Channel) (delivery : Delivery) (outlet : σ) (now : Instant)
  | round (threshold : Int) (now : Instant)

namespace Errand

variable [Outlet σ]

/-- The state after an errand, and what is left to do once the lock is released. -/
def run (s : DispatchState α) : Errand α σ → Duty α × DispatchState α
  | .take lookups channel delivery outlet now =>
    let h := (Hub.handle { state := s, outlet } lookups channel delivery now).2
    (if h.signal then .owes [] else .idle, h.state)
  | .round threshold now =>
    let (sweep, evicted, state) := Hub.roundOf s now threshold
    (if (DetectionReport.mk sweep (evicted.map (·.1.id))).isEmpty then .idle else .owes evicted, state)

/-- Errands that come to nothing: stale beats, exits of unknown workers, messages that cannot be used, results of
unknown tasks, and rounds with nothing to remove. -/
inductive Futile (s : DispatchState α) : Errand α σ → Prop
  | unreadable {lookups delivery outlet now e} (h : Registration.decode delivery.body = .error e) :
    Futile s (.take lookups .heartbeat delivery outlet now)
  | undated {lookups delivery outlet now message e} (h : Registration.decode delivery.body = .ok message)
    (hkind : message.kind ≠ .exit) (hsent : message.sentAt = .error e) :
    Futile s (.take lookups .heartbeat delivery outlet now)
  | stale {lookups delivery outlet now message beatAt} (h : Registration.decode delivery.body = .ok message)
    (hkind : message.kind ≠ .exit) (hsent : message.sentAt = .ok beatAt)
    (hstale : Instant.seconds s.workers.staleAfter < now - beatAt) :
    Futile s (.take lookups .heartbeat delivery outlet now)
  | stranger {lookups delivery outlet now message} (h : Registration.decode delivery.body = .ok message)
    (hkind : message.kind = .exit) (hunknown : s.workers.workers.get? message.queue = none) :
    Futile s (.take lookups .heartbeat delivery outlet now)
  | unusable {lookups delivery outlet now e} (h : Hub.taskOf lookups delivery now = .error e) :
    Futile s (.take lookups .work delivery outlet now)
  | refused {lookups delivery outlet now task e} (h : Hub.taskOf lookups delivery now = .ok task)
    (hadd : (s.tasks.add task).1 = .error e) : Futile s (.take lookups .work delivery outlet now)
  | unaddressed {lookups delivery outlet now} (h : delivery.correlationId = none) :
    Futile s (.take lookups .response delivery outlet now)
  | unknown {lookups delivery outlet now id} (h : delivery.correlationId = some id)
    (hunknown : s.tasks.tasks.get? id = none) : Futile s (.take lookups .response delivery outlet now)
  | quiet {threshold now} (hsweep : (s.sweep now threshold).1 = {}) (hexhausted : s.evictExhausted.1 = [])
    (hunredelivered : (s.evictUnredelivered now threshold).1 = []) : Futile s (.round threshold now)

/-! What comes to nothing changes nothing, and no signal is owed for it. -/

theorem run_of_futile {s : DispatchState α} {errand : Errand α σ} (h : errand.Futile s) :
    errand.run s = (.idle, s) := by
  cases h with
  | unreadable h => simp [run, Hub.handle, Hub.processRegistration, h, Hub.countDropped]
  | undated h hkind hsent =>
    simp [run, Hub.handle, Hub.processRegistration, h, DispatchState.applyRegistration_of_ne_exit hkind, hsent,
      Hub.countDropped]
  | @stale _ _ _ now message beatAt h hkind hsent hstale =>
    have hbeat : s.workers.registerBeat message.queue beatAt now = (.stale, s.workers) := if_pos hstale
    simp [run, Hub.handle, Hub.processRegistration, h, DispatchState.applyRegistration_of_ne_exit hkind, hsent, hbeat]
  | stranger h hkind hunknown =>
    simp [run, Hub.handle, Hub.processRegistration, h, DispatchState.applyRegistration, hkind,
      DispatchState.exitWorker_of_get?_eq_none hunknown]
  | unusable h => simp [run, Hub.handle, Hub.processWorkItem, h, Hub.countDropped]
  | @refused _ _ _ now task e h hadd =>
    have haddTask : s.addTask task now = (.error e, s) := DispatchState.addTask_of_error hadd now
    simp [run, Hub.handle, Hub.processWorkItem, h, haddTask, Hub.countDropped]
  | unaddressed h => simp [run, Hub.handle, Hub.processResponse, h, Hub.countDropped]
  | unknown h hunknown =>
    simp [run, Hub.handle, Hub.processResponse, h, DispatchState.processResponse, TaskRegistry.get?, hunknown,
      Hub.countUnknown]
  | @quiet threshold now hsweep hexhausted hunredelivered =>
    have hnone : s.sweep now threshold = ({}, s) :=
      DispatchState.sweep_of_removed_eq_nil (congrArg SweepReport.removed hsweep)
    simp [run, Hub.roundOf, hnone, DispatchState.evictExhausted_of_eq_nil hexhausted,
      DispatchState.evictUnredelivered_of_eq_nil hunredelivered, DetectionReport.isEmpty, SweepReport.isEmpty]

private theorem futile_of_idle_heartbeat {s : DispatchState α} {lookups : Lookups α} {delivery : Delivery} {outlet : σ}
    {now : Instant} (h : ((Errand.take lookups .heartbeat delivery outlet now).run s).1 = .idle) :
    (Errand.take lookups .heartbeat delivery outlet now).Futile s := by
  cases hdecode : Registration.decode delivery.body with
  | error e => exact .unreadable hdecode
  | ok message =>
    by_cases hkind : message.kind = .exit
    · cases hworker : s.workers.workers.get? message.queue with
      | none => exact .stranger hdecode hkind hworker
      | some worker =>
        simp [run, Hub.handle, Hub.processRegistration, hdecode, DispatchState.applyRegistration, hkind,
          DispatchState.exitWorker_of_get? hworker, Hub.wake] at h
    · cases hsent : message.sentAt with
      | error e => exact .undated hdecode hkind hsent
      | ok beatAt =>
        by_cases hstale : Instant.seconds s.workers.staleAfter < now - beatAt
        · exact .stale hdecode hkind hsent hstale
        · have hbeat : (s.workers.registerBeat message.queue beatAt now).1 ≠ .stale :=
            mt WorkerRegistry.fst_registerBeat_eq_stale_iff.1 hstale
          simp [run, Hub.handle, Hub.processRegistration, hdecode, DispatchState.applyRegistration_of_ne_exit hkind,
            hsent, hbeat, Hub.wake] at h

private theorem futile_of_idle_work {s : DispatchState α} {lookups : Lookups α} {delivery : Delivery} {outlet : σ}
    {now : Instant} (h : ((Errand.take lookups .work delivery outlet now).run s).1 = .idle) :
    (Errand.take lookups .work delivery outlet now).Futile s := by
  cases htask : Hub.taskOf lookups delivery now with
  | error e => exact .unusable htask
  | ok task =>
    rcases s.addTask_cases task now with ⟨e, hadd, -⟩ | ⟨-, -, haddTask⟩ | ⟨_, -, -, haddTask⟩
    · exact .refused htask hadd
    all_goals simp [run, Hub.handle, Hub.processWorkItem, htask, haddTask, Hub.wake, Hub.countReceived] at h

private theorem futile_of_idle_response {s : DispatchState α} {lookups : Lookups α} {delivery : Delivery} {outlet : σ}
    {now : Instant} (h : ((Errand.take lookups .response delivery outlet now).run s).1 = .idle) :
    (Errand.take lookups .response delivery outlet now).Futile s := by
  cases hid : delivery.correlationId with
  | none => exact .unaddressed hid
  | some id =>
    rcases s.processResponse_cases id delivery.body delivery.redelivered outlet now with
      ⟨hnone, -⟩ | ⟨_, -, ⟨-, hresponse⟩ | ⟨-, -, hresponse⟩ | ⟨-, -, hresponse⟩⟩
    · exact .unknown hid hnone
    all_goals
      simp [run, Hub.handle, Hub.processResponse, hid, hresponse, Hub.wake, Hub.countForwarded,
        Hub.countForwardFailure] at h

private theorem futile_of_idle_round {s : DispatchState α} {threshold : Int} {now : Instant}
    (h : ((Errand.round threshold now : Errand α σ).run s).1 = .idle) :
    (Errand.round threshold now : Errand α σ).Futile s := by
  simp only [run, Hub.roundOf, DetectionReport.isEmpty, SweepReport.isEmpty, Bool.and_eq_true, List.isEmpty_iff,
    List.map_append, List.append_eq_nil_iff, List.map_eq_nil_iff] at h
  split at h
  · rename_i hempty
    obtain ⟨⟨hremoved, -⟩, hexhausted, hunredelivered⟩ := hempty
    have hsweep := DispatchState.sweep_of_removed_eq_nil hremoved
    rw [hsweep] at hexhausted hunredelivered
    rw [DispatchState.evictExhausted_of_eq_nil hexhausted] at hunredelivered
    exact .quiet (congrArg Prod.fst hsweep) hexhausted hunredelivered
  · cases h

theorem idle_iff_futile {s : DispatchState α} {errand : Errand α σ} : (errand.run s).1 = .idle ↔ errand.Futile s := by
  constructor
  · intro h
    cases errand with
    | take lookups channel delivery outlet now =>
      cases channel with
      | heartbeat => exact futile_of_idle_heartbeat h
      | work => exact futile_of_idle_work h
      | response => exact futile_of_idle_response h
    | round threshold now => exact futile_of_idle_round h
  · intro h
    rw [run_of_futile h]

/-- A delivery that is taken without a signal is an errand that comes to nothing. -/
theorem futile_of_handle {s : DispatchState α} {lookups : Lookups α} {channel : Channel} {delivery : Delivery}
    {outlet : σ} {now : Instant}
    (h : (Hub.handle { state := s, outlet } lookups channel delivery now).2.signal = false) :
    (Errand.take lookups channel delivery outlet now).Futile s := by
  rw [← idle_iff_futile]
  simp only [run, h]
  rfl

/-- A round of the detector makes its removals first.  It signals after its notices, if there was anything to remove and
none of them stalls. -/
theorem detect_eq (s : DispatchState α) (threshold : Int) (outlet : σ) (now : Instant) :
    (Hub.detect { state := s, outlet } threshold now).2.state = ((Errand.round threshold now : Errand α σ).run s).2 ∧
    ((Hub.detect { state := s, outlet } threshold now).1.isSome = true →
      (Hub.detect { state := s, outlet } threshold now).2.signal = false →
        ((Errand.round threshold now : Errand α σ).run s).1 = .idle) := by
  unfold Hub.detect run
  dsimp only
  rcases Hub.roundOf s now threshold with ⟨sweep, evicted, state⟩
  dsimp only [Hub.countRequeued]
  rcases Hub.notifyAll outlet evicted with ⟨_ | _, outlet'⟩
  · exact ⟨rfl, nofun⟩
  · dsimp only
    split
    · exact ⟨rfl, fun _ _ => rfl⟩
    · exact ⟨rfl, fun _ hsignal => absurd hsignal nofun⟩

end Errand

/-! ### Interleavings -/

/-- Where the controller is. -/
inductive Controller
  | ready
  /-- Waits for a signal; none was stored. -/
  | waiting
  /-- Has its signal, and not yet the lock. -/
  | woken
  /-- Has the lock. -/
  | passing
  deriving DecidableEq

/-- The state, the signal, and all who use them. -/
structure World (α ι : Type) where
  state : DispatchState α
  /-- Whether a signal is stored. -/
  permit : Bool := false
  duties : ι → Duty α := fun _ => .idle
  controller : Controller := .ready

namespace World

/-- A signal wakes the controller if it waits, and is stored otherwise. -/
def signal (w : World α ι) : World α ι :=
  if w.controller = .waiting then { w with controller := .woken } else { w with permit := true }

@[simp] theorem state_signal (w : World α ι) : w.signal.state = w.state := by
  unfold signal
  split <;> rfl

@[simp] theorem duties_signal (w : World α ι) : w.signal.duties = w.duties := by
  unfold signal
  split <;> rfl

/-- The world in which an actor has another duty. -/
def setDuty [DecidableEq ι] (w : World α ι) (i : ι) (duty : Duty α) : World α ι :=
  { w with duties := Function.update w.duties i duty }

theorem duties_setDuty [DecidableEq ι] (w : World α ι) (i j : ι) (duty : Duty α) :
    (w.setDuty i duty).duties j = if j = i then duty else w.duties j := Function.update_apply ..

/-- Who is to see to a change: a permit is stored, or someone still owes a signal, or the controller has had one and is
about to take the lock. -/
def Attended (w : World α ι) : Prop :=
  w.permit = true ∨ (∃ i, w.duties i ≠ .idle) ∨ w.controller = .woken

/-- What can happen next, and who does it.  Every action that publishes has its own outlet. -/
inductive Action (α σ ι : Type)
  /-- An actor takes the lock, does an errand, and releases the lock. -/
  | change (i : ι) (errand : Errand α σ)
  /-- An actor sends the first notice that is left. -/
  | tell (i : ι) (outlet : σ)
  | signal (i : ι)
  /-- The controller asks for a signal. -/
  | await
  /-- The controller takes the lock. -/
  | lock
  /-- The controller makes its pass and releases the lock. -/
  | pass (strategy : Strategy α) (outlet : σ) (now : Instant)

variable [Quantity α] [Outlet σ] [DecidableEq ι]

/-- One action of one of them.  While the controller has the lock, nobody else changes the state. -/
inductive Step : World α ι → Action α σ ι → World α ι → Prop
  | change {w i} (errand) (hfree : w.controller ≠ .passing) (hidle : w.duties i = .idle) :
    Step w (.change i errand)
      { w.setDuty i (errand.run w.state).1 with state := (errand.run w.state).2 }
  | tell {w i notice rest} (outlet) (howes : w.duties i = .owes (notice :: rest)) :
    Step w (.tell i outlet) (w.setDuty i (if (Hub.notifyAll outlet [notice]).1 then .owes rest else .stuck))
  | signal {w i} (howes : w.duties i = .owes []) :
    Step w (.signal i) (w.setDuty i .idle).signal
  | take {w} (hready : w.controller = .ready) (hpermit : w.permit = true) :
    Step w .await { w with permit := false, controller := .woken }
  | wait {w} (hready : w.controller = .ready) (hpermit : w.permit = false) :
    Step w .await { w with controller := .waiting }
  | lock {w} (hwoken : w.controller = .woken) : Step w .lock { w with controller := .passing }
  | pass {w} (strategy outlet now) (hpassing : w.controller = .passing) :
    Step w (.pass strategy outlet now)
      { w with
        state := (Hub.pass { state := w.state, outlet } strategy now).2.state
        controller := .ready }

/-- One action after another. -/
inductive Steps : World α ι → List (Action α σ ι) → World α ι → Prop
  | nil (w) : Steps w [] w
  | cons {w w' w'' action actions} : Step w action w' → Steps w' actions w'' → Steps w (action :: actions) w''

variable {w w' : World α ι} {action : Action α σ ι} {actions : List (Action α σ ι)}

/-- Only the lock ends the attention that a change is owed. -/
theorem Step.attended (h : Step w action w') (hlock : action ≠ .lock) (hw : w.Attended) : w'.Attended := by
  cases h with
  | @change i errand hfree hidle =>
    rcases hw with hpermit | ⟨j, hj⟩ | hwoken
    · exact .inl hpermit
    · refine .inr (.inl ⟨j, ?_⟩)
      -- the one who has a duty already is not the one who does the errand
      have hne : j ≠ i := by
        rintro rfl
        exact hj hidle
      change (w.setDuty i _).duties j ≠ .idle
      rwa [duties_setDuty, if_neg hne]
    · exact .inr (.inr hwoken)
  | @tell i notice rest outlet howes =>
    refine .inr (.inl ⟨i, ?_⟩)
    rw [duties_setDuty, if_pos rfl]
    split <;> nofun
  | @signal i howes =>
    by_cases hwaiting : w.controller = .waiting
    · refine .inr (.inr ?_)
      simp only [World.signal, setDuty, hwaiting, if_true]
    · refine .inl ?_
      simp only [World.signal, setDuty, hwaiting, if_false]
  | take => exact .inr (.inr rfl)
  | wait hready hpermit =>
    rcases hw with hstored | howed | hwoken
    · exact absurd (hpermit.symm.trans hstored) nofun
    · exact .inr (.inl howed)
    · exact absurd (hready.symm.trans hwoken) nofun
  | lock => exact absurd rfl hlock
  | pass strategy outlet now hpassing =>
    rcases hw with hpermit | howed | hwoken
    · exact .inl hpermit
    · exact .inr (.inl howed)
    · exact absurd (hpassing.symm.trans hwoken) nofun

theorem Steps.attended (h : Steps w actions w') (hlock : .lock ∉ actions) (hw : w.Attended) : w'.Attended := by
  induction h with
  | nil => exact hw
  | cons hstep _ ih =>
    rw [List.mem_cons, not_or] at hlock
    exact ih hlock.2 (hstep.attended (Ne.symm hlock.1) hw)

/-- Whoever changed the state owes a signal for it. -/
theorem Step.attended_of_ne {i : ι} {errand : Errand α σ} (h : Step w (.change i errand) w')
    (hchanged : w'.state ≠ w.state) : w'.Attended := by
  cases h with
  | change _ hfree hidle =>
    refine .inr (.inl ⟨i, fun howes => hchanged ?_⟩)
    change (w.setDuty i (errand.run w.state).1).duties i = .idle at howes
    rw [duties_setDuty, if_pos rfl, Errand.idle_iff_futile] at howes
    change (errand.run w.state).2 = w.state
    rw [Errand.run_of_futile howes]

/-- In every interleaving, once the listener or the detector has changed the state and until the controller takes the
lock, a permit is stored, or somebody still owes a signal, or the controller was woken.  What is done without a signal
changes nothing: it is a delivery or a round that comes to nothing, for one of a few reasons. -/
theorem attended_of_changed :
    (∀ {w₁ w₂ w : World α ι} {i : ι} {errand : Errand α σ} {later : List (Action α σ ι)},
      Step w₁ (.change i errand) w₂ → w₂.state ≠ w₁.state → Steps w₂ later w → .lock ∉ later → w.Attended) ∧
    (∀ (s : DispatchState α) (lookups : Lookups α) (channel : Channel) (delivery : Delivery) (outlet : σ)
      (now : Instant),
      (Hub.handle { state := s, outlet } lookups channel delivery now).2.signal = false →
        (Hub.handle { state := s, outlet } lookups channel delivery now).2.state = s) ∧
    (∀ (s : DispatchState α) (threshold : Int) (outlet : σ) (now : Instant),
      (Hub.detect { state := s, outlet } threshold now).1.isSome = true →
        (Hub.detect { state := s, outlet } threshold now).2.signal = false →
          (Hub.detect { state := s, outlet } threshold now).2.state = s) ∧
    (∀ (s : DispatchState α) (errand : Errand α σ), (errand.run s).1 = .idle ↔ errand.Futile s) := by
  refine ⟨?_, ?_, ?_, fun s errand => Errand.idle_iff_futile⟩
  · intro w₁ w₂ w i errand later hchange hchanged hlater hlock
    exact hlater.attended hlock (hchange.attended_of_ne hchanged)
  · intro s lookups channel delivery outlet now hsilent
    exact congrArg Prod.snd (Errand.run_of_futile (Errand.futile_of_handle hsilent))
  · intro s threshold outlet now hends hsilent
    obtain ⟨hstate, hidle⟩ := Errand.detect_eq s threshold outlet now
    rw [hstate, Errand.run_of_futile (Errand.idle_iff_futile.1 (hidle hends hsilent))]

/-- A worker announces itself. -/
def announcement : Delivery :=
  { tag := 1, body := Bytes.ofText "\x7b\"queue\":\"w\",\"type\":\"register\",\"timestamp\":0\x7d" }

/-- What follows: the detector has its round before the listener signals. -/
def roundThenSignal : List (Action Rat Publication (Fin 2)) := [.change 1 (.round 100 0), .signal 0]

/-- A worker joins while the controller waits.  The round of the detector has nothing to do, and the signal for the
worker wakes the controller; no permit is stored. -/
theorem attended_of_changed_announcement :
    ∃ (w₁ w₂ w : World Rat (Fin 2)) (errand : Errand Rat Publication),
      Step w₁ (.change 0 errand) w₂ ∧ w₂.state ≠ w₁.state ∧ Steps w₂ roundThenSignal w ∧
        (w.permit = false ∧ w.controller = .woken) ∧ w.Attended := by
  let lookups : Lookups Rat := ⟨fun _ => .ok ⟨"model", 1 / 2, 3⟩, fun _ => .ok 10⟩
  let errand : Errand Rat Publication := .take lookups .heartbeat announcement .accepted 0
  let w₁ : World Rat (Fin 2) := { state := .start 30 3 "results" 10000, controller := .waiting }
  let w₂ : World Rat (Fin 2) := { w₁.setDuty 0 (errand.run w₁.state).1 with state := (errand.run w₁.state).2 }
  have hsignal : (Hub.handle { state := w₁.state, outlet := Publication.accepted } lookups .heartbeat announcement
      0).2.signal = true := by decide +kernel
  have howes : (errand.run w₁.state).1 = .owes [] := if_pos hsignal
  have hchange : Step w₁ (.change 0 errand) w₂ := .change errand nofun rfl
  have hchanged : w₂.state ≠ w₁.state := by
    intro hsame
    have hsize : w₂.state.workers.size = w₁.state.workers.size := by rw [hsame]
    exact absurd hsize (by decide +kernel)
  have hlater : Steps w₂ roundThenSignal _ :=
    .cons (.change (.round 100 0) nofun rfl) (.cons (.signal howes) (.nil _))
  exact ⟨w₁, w₂, _, errand, hchange, hchanged, hlater, ⟨rfl, rfl⟩,
    attended_of_changed.1 hchange hchanged hlater (by simp [roundThenSignal])⟩

end World

end SpeechDispatch
