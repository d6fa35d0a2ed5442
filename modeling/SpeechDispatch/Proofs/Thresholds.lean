import SpeechDispatch.Config.Wiring
import SpeechDispatch.Proofs.EventMoves
import SpeechDispatch.Proofs.Validation
import SpeechDispatch.Threshold

/-!
# Thresholds that break off

An operation that makes the span of a threshold does what it always does if there is one, and breaks off if there is
none, unless it has nothing to compare with it.  Validation asks for positive thresholds only, so a dispatcher with
validated settings never breaks off if and only if 64 bits hold the milliseconds of both its thresholds
(`DispatcherSettings.breaksOff_iff_of_validate`).
-/

namespace SpeechDispatch

namespace Instant

theorem span?_of_isSpan {n : Int} (h : isSpan n = true) : span? n = some (seconds n) := if_pos h

theorem span?_of_not_isSpan {n : Int} (h : isSpan n = false) : span? n = none := by
  rw [span?, h]
  rfl

theorem isSpan_iff_of_pos {n : Int} (h : 0 < n) : isSpan n = true ↔ n ≤ mostSeconds := by
  have hlow : -mostSeconds ≤ n := Int.le_trans (by decide) (Int.le_of_lt h)
  rw [isSpan, Bool.and_eq_true, decide_eq_true_iff, decide_eq_true_iff]
  exact and_iff_right hlow

end Instant

/-! ### Workers -/

namespace WorkerRegistry

theorem registerBeat?_eq (r : WorkerRegistry) (queue : String) (beatAt now : Instant) :
    r.registerBeat? queue beatAt now =
      if Instant.isSpan r.staleAfter then some (r.registerBeat queue beatAt now) else none := by
  rw [registerBeat?, Instant.span?]
  split <;> rfl

/-- Who asks for a span that there is not breaks off at the first worker. -/
theorem silentAmong?_eq (now : Instant) (threshold : Int) (workers : List Worker) :
    silentAmong? now threshold workers =
      if Instant.isSpan threshold ∨ workers = [] then
        some ((workers.filter (·.isSilentFor now threshold)).map (·.queue))
      else none := by
  induction workers with
  | nil => simp [silentAmong?]
  | cons worker rest ih =>
    rw [silentAmong?, Worker.isSilentFor?, ih]
    cases hspan : Instant.isSpan threshold with
    | false =>
      rw [Instant.span?_of_not_isSpan hspan]
      rfl
    | true =>
      have hsilent : decide (Instant.seconds threshold ≤ now - worker.lastBeatAt) = worker.isSilentFor now threshold :=
        rfl
      rw [Instant.span?_of_isSpan hspan, if_pos (.inl rfl), if_pos (.inl rfl), List.filter_cons, Option.map_some,
        hsilent]
      cases worker.isSilentFor now threshold <;> rfl

theorem sweep?_eq (r : WorkerRegistry) (now : Instant) (threshold : Int) :
    r.sweep? now threshold =
      if Instant.isSpan threshold ∨ r.workers.values = [] then some (r.sweep now threshold) else none := by
  rw [sweep?, silentAmong?_eq]
  split <;> rfl

end WorkerRegistry

theorem TaskRegistry.unredelivered?_eq {α : Type} (r : TaskRegistry α) (now : Instant) (threshold : Int) :
    r.unredelivered? now threshold =
      if Instant.isSpan threshold then some (r.unredelivered now threshold) else none := by
  rw [unredelivered?, Instant.span?]
  split <;> rfl

/-! ### The state -/

namespace DispatchState

variable {α : Type}

theorem sweep?_eq (s : DispatchState α) (now : Instant) (threshold : Int) :
    s.sweep? now threshold =
      if Instant.isSpan threshold ∨ s.workers.workers.values = [] then some (s.sweep now threshold) else none := by
  rw [sweep?, WorkerRegistry.sweep?_eq]
  split <;> rfl

theorem evictUnredelivered?_eq (s : DispatchState α) (now : Instant) (threshold : Int) :
    s.evictUnredelivered? now threshold =
      if Instant.isSpan threshold then some (s.evictUnredelivered now threshold) else none := by
  rw [evictUnredelivered?, TaskRegistry.unredelivered?_eq]
  split <;> rfl

/-- A beat is compared with the threshold once its time is read; an exit is not. -/
theorem applyRegistration?_eq (s : DispatchState α) (message : Registration) (now : Instant) :
    s.applyRegistration? message now =
      if Instant.isSpan s.workers.staleAfter ∨ message.kind = .exit ∨ message.sentAt.isOk = false then
        some (s.applyRegistration message now)
      else none := by
  rw [applyRegistration?]
  cases message.kind with
  | exit => simp
  | register | beat =>
    cases message.sentAt with
    | error e => simp [Except.isOk, Except.toBool]
    | ok beatAt =>
      simp only [WorkerRegistry.registerBeat?_eq]
      cases Instant.isSpan s.workers.staleAfter <;> rfl

/-- A round without a span breaks off at its last part, if not at the first. -/
theorem leftByRound?_eq_none_iff (s : DispatchState α) (now : Instant) (threshold : Int) :
    s.leftByRound? now threshold = none ↔ Instant.isSpan threshold = true := by
  unfold leftByRound?
  rw [sweep?_eq]
  cases hspan : Instant.isSpan threshold with
  | true => simp [evictUnredelivered?_eq, hspan]
  | false => by_cases hempty : s.workers.workers.values = [] <;> simp [evictUnredelivered?_eq, hspan, hempty]

end DispatchState

/-! ### The parts of the dispatcher -/

namespace Hub

variable {α σ : Type}

theorem pass?_eq [Quantity α] [Outlet σ] (h : Hub α σ) (strategy : Strategy α) (now : Instant) :
    h.pass? strategy now =
      if Instant.isSpan h.state.workers.staleAfter ∨ h.state.workers.workers.values = [] then
        some (h.pass strategy now)
      else none := by
  rw [pass?, DispatchState.pruneExpired?, DispatchState.sweep?_eq]
  split <;> rfl

theorem detect?_of_isSpan [Outlet σ] {threshold : Int} (hspan : Instant.isSpan threshold = true) (h : Hub α σ)
    (now : Instant) : h.detect? threshold now = .ok (h.detect threshold now) := by
  rw [detect?, (h.state.leftByRound?_eq_none_iff now threshold).2 hspan]

theorem toOption_detect?_of_not_isSpan [Outlet σ] {threshold : Int} (hspan : Instant.isSpan threshold = false)
    (h : Hub α σ) (now : Instant) : (h.detect? threshold now).toOption = none := by
  rw [detect?]
  cases hleft : h.state.leftByRound? now threshold with
  | some state => rfl
  | none =>
    rw [DispatchState.leftByRound?_eq_none_iff, hspan] at hleft
    cases hleft

end Hub

/-! ### Runs -/

/-- Whether a round of the failure detector, if this is one, has this threshold. -/
def Event.UsesThreshold {α σ : Type} (threshold : Int) : Event α σ → Prop
  | .round other _ _ => other = threshold
  | _ => True

namespace DispatchState

variable {α σ : Type} [Quantity α] [Outlet σ]

/-- The state after an event, unless it is broken off. -/
def after? (s : DispatchState α) : Event α σ → Option (DispatchState α)
  | .registration message now => (s.applyRegistration? message now).map (·.2)
  | .pass strategy outlet now => (Hub.pass? { state := s, outlet } strategy now).map (·.2.state)
  | .round threshold outlet now => (Hub.detect? { state := s, outlet } threshold now).toOption.map (·.2.state)
  | e@(.work ..) | e@(.response ..) => some (s.after e)

/-- The state after a list of events, unless one of them is broken off. -/
def run? (s : DispatchState α) (events : List (Event α σ)) : Option (DispatchState α) := events.foldlM after? s

theorem after?_of_isSpan {s : DispatchState α} {threshold : Int}
    (hstale : Instant.isSpan s.workers.staleAfter = true) (hthreshold : Instant.isSpan threshold = true)
    {e : Event α σ} (he : e.UsesThreshold threshold) : s.after? e = some (s.after e) := by
  cases e with
  | registration message now => simp [after?, after, applyRegistration?_eq, hstale]
  | work | response => rfl
  | pass strategy outlet now => simp [after?, after, Hub.pass?_eq, hstale]
  | round other outlet now =>
    obtain rfl : other = threshold := he
    rw [after?, Hub.detect?_of_isSpan hthreshold]
    rfl

theorem after?_registration_of_not_isSpan {s : DispatchState α} (hspan : Instant.isSpan s.workers.staleAfter = false)
    {message : Registration} (hkind : message.kind ≠ .exit) (htime : message.sentAt.isOk = true) (now : Instant) :
    s.after? (.registration message now : Event α σ) = none := by
  rw [after?, applyRegistration?_eq, if_neg (by simp [hspan, hkind, htime])]
  rfl

theorem after?_round_of_not_isSpan {threshold : Int} (hspan : Instant.isSpan threshold = false) (s : DispatchState α)
    (outlet : σ) (now : Instant) : s.after? (.round threshold outlet now) = none := by
  rw [after?, Hub.toOption_detect?_of_not_isSpan hspan]
  rfl

/-- A run goes through if there are spans of both thresholds, since no event changes them. -/
theorem run?_of_isSpan {s : DispatchState α} (hs : s.Named) {threshold : Int}
    (hstale : Instant.isSpan s.workers.staleAfter = true) (hthreshold : Instant.isSpan threshold = true)
    {events : List (Event α σ)} (hevents : ∀ e ∈ events, e.UsesThreshold threshold) :
    s.run? events = some (s.run events) := by
  induction events generalizing s with
  | nil => rfl
  | cons e events ih =>
    obtain ⟨he, hrest⟩ := List.forall_mem_cons.1 hevents
    have hnamed : (s.after e).Named := named_run hs [e]
    have hsettings : (s.after e).workers.staleAfter = s.workers.staleAfter :=
      congrArg DispatchSettings.staleAfter (settings_run hs [e])
    rw [run?, List.foldlM_cons, after?_of_isSpan hstale hthreshold he]
    exact ih hnamed (hsettings ▸ hstale) hrest

end DispatchState

/-- With validated settings a beat, a pass and a round break off if there is no span of their threshold, which is to
say that it is too great.  So all runs go through if and only if both thresholds are small enough. -/
theorem DispatcherSettings.breaksOff_iff_of_validate {s : DispatcherSettings} (h : s.validate = .ok ()) {σ : Type}
    [Outlet σ] (outlet : σ) (responseQueue : String) :
    (∀ d : DispatchState Float, d.workers.staleAfter = s.heartbeatStaleSeconds → ∀ now,
      (∀ queue beatAt, d.workers.registerBeat? queue beatAt now = none ↔
        Instant.mostSeconds < s.heartbeatStaleSeconds) ∧
      (d.pruneExpired? now = none ↔
        Instant.mostSeconds < s.heartbeatStaleSeconds ∧ d.workers.workers.values ≠ []) ∧
      (d.sweep? now s.sweepThresholdSeconds = none ↔
        Instant.mostSeconds < s.sweepThresholdSeconds ∧ d.workers.workers.values ≠ []) ∧
      (d.tasks.unredelivered? now s.sweepThresholdSeconds = none ↔
        Instant.mostSeconds < s.sweepThresholdSeconds)) ∧
    ((∀ events : List (Event Float σ), (∀ e ∈ events, e.UsesThreshold s.sweepThresholdSeconds) →
      (s.startState responseQueue).run? events = some ((s.startState responseQueue).run events)) ↔
        s.heartbeatStaleSeconds ≤ Instant.mostSeconds ∧ s.sweepThresholdSeconds ≤ Instant.mostSeconds) := by
  obtain ⟨hstale, hthreshold, -⟩ := validate_eq_ok_iff.1 h
  have hstaleSpan := Instant.isSpan_iff_of_pos hstale
  have hthresholdSpan := Instant.isSpan_iff_of_pos hthreshold
  refine ⟨fun d hd now => ?_, fun hall => ?_, fun ⟨hlow, hlow'⟩ events hevents => ?_⟩
  · simp [WorkerRegistry.registerBeat?_eq, DispatchState.pruneExpired?, DispatchState.sweep?_eq,
      TaskRegistry.unredelivered?_eq, hd, hstaleSpan, hthresholdSpan]
  · -- one beat and one round are enough
    have hbeat := hall [.registration ⟨"", .beat, 0⟩ 0] (by simp [Event.UsesThreshold])
    have hround := hall [.round s.sweepThresholdSeconds outlet 0] (by simp [Event.UsesThreshold])
    constructor
    · cases hspan : Instant.isSpan s.heartbeatStaleSeconds with
      | true => exact hstaleSpan.1 hspan
      | false =>
        rw [DispatchState.run?, List.foldlM_cons,
          DispatchState.after?_registration_of_not_isSpan hspan (by decide) (by decide)] at hbeat
        cases hbeat
    · cases hspan : Instant.isSpan s.sweepThresholdSeconds with
      | true => exact hthresholdSpan.1 hspan
      | false =>
        rw [DispatchState.run?, List.foldlM_cons, DispatchState.after?_round_of_not_isSpan hspan] at hround
        cases hround
  · exact DispatchState.run?_of_isSpan (DispatchState.named_start ..) (hstaleSpan.2 hlow) (hthresholdSpan.2 hlow')
      hevents

/-- The standard settings are validated, and their thresholds are small enough. -/
theorem DispatcherSettings.breaksOff_iff_of_validate_standard :
    ({} : DispatcherSettings).validate = .ok () ∧
    ∀ events : List (Event Float Publication), (∀ e ∈ events, e.UsesThreshold 100) →
      ((({} : DispatcherSettings).startState "results").run? events).isSome = true := by
  have hvalid : ({} : DispatcherSettings).validate = .ok () := rfl
  obtain ⟨-, hiff⟩ := DispatcherSettings.breaksOff_iff_of_validate hvalid Publication.accepted "results"
  refine ⟨hvalid, fun events hevents => ?_⟩
  rw [hiff.2 (by decide) events hevents]
  rfl

/-- Not all validated settings have thresholds with spans, and a beat is enough to break off. -/
theorem DispatcherSettings.not_forall_isSpan :
    ¬ ∀ s : DispatcherSettings, s.validate = .ok () →
      (Instant.isSpan s.heartbeatStaleSeconds = true ∧ Instant.isSpan s.sweepThresholdSeconds = true) ∧
      ∀ (d : DispatchState Float) (now : Instant), d.workers.staleAfter = s.heartbeatStaleSeconds →
        (∀ queue beatAt, d.workers.registerBeat? queue beatAt now ≠ none) ∧ d.pruneExpired? now ≠ none ∧
          d.sweep? now s.sweepThresholdSeconds ≠ none ∧
          d.tasks.unredelivered? now s.sweepThresholdSeconds ≠ none := by
  intro hall
  obtain ⟨-, hnever⟩ := hall { heartbeatStaleSeconds := 9223372036854775807 } rfl
  obtain ⟨hbeat, -⟩ := hnever (.start 9223372036854775807 3 "results" 10000) 0 rfl
  exact hbeat "worker" 0 (by decide)

end SpeechDispatch
