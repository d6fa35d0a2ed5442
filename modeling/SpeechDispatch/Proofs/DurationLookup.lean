import SpeechDispatch.Intake
import SpeechDispatch.Lookup.Duration
import SpeechDispatch.Proofs.DispatchState
import SpeechDispatch.Proofs.Doubles
import SpeechDispatch.Proofs.Validation

/-!
# Durations that are always there

Whatever becomes of a request to the service, the look-up of a duration succeeds.  `DurationLookup.Gives` says which
answers give a duration; every other outcome ends in the default (`DurationLookup.lookUp_cases`).  So with settings that
were validated the duration is a finite number that is not negative, and whether a work item is taken does not depend on
the service (`DurationLookup.exists_lookUp`).
-/

namespace SpeechDispatch

namespace DurationLookup

/-- The service answers the request for an item without an error, with a body that says a duration of a week at most. -/
def Gives (l : DurationLookup) (service : Url → ServiceAnswer) (id : String) (duration : Float) : Prop :=
  ∃ base ∈ l.base, ∃ url ∈ request? base id, ∃ status body, service url = .answer status body ∧
    isErrorStatus status = false ∧ hasBody status = true ∧ numberIn? body = some duration ∧
    0 ≤ duration ∧ duration ≤ maxDuration

theorem maxDuration_eq : maxDuration = 604800 := by decide +kernel

theorem isFinite_maxDuration : maxDuration.isFinite = true := by decide

theorem Gives.isFinite {l : DurationLookup} {service : Url → ServiceAnswer} {id : String} {duration : Float}
    (h : l.Gives service id duration) : duration.isFinite = true := by
  obtain ⟨base, -, url, -, status, body, -, -, -, -, hzero, hle⟩ := h
  exact Doubles.isFinite_of_le_of_le hzero hle isFinite_maxDuration

/-- An answer is taken if and only if it is no error and its body says a duration in range. -/
theorem readAnswer_eq_ok_iff {address : String} {answer : ServiceAnswer} {duration : Float} :
    readAnswer address answer = .ok duration ↔
      ∃ status body, answer = .answer status body ∧ isErrorStatus status = false ∧ hasBody status = true ∧
        numberIn? body = some duration ∧ 0 ≤ duration ∧ duration ≤ maxDuration := by
  cases answer with
  | none => exact ⟨nofun, fun ⟨_, _, h, _⟩ => nomatch h⟩
  | answer status body =>
    have hsame : ∀ {p : Nat → Bytes → Prop},
        (∃ status' body', ServiceAnswer.answer status body = .answer status' body' ∧ p status' body') ↔
          p status body := by
      intro p
      constructor
      · rintro ⟨_, _, h, hp⟩
        cases h
        exact hp
      · exact fun hp => ⟨status, body, rfl, hp⟩
    rw [hsame, readAnswer]
    cases isErrorStatus status with
    | true => simp
    | false =>
      cases hasBody status with
      | false => simp
      | true =>
        cases numberIn? body with
        | none => simp
        | some x =>
          by_cases hrange : 0 ≤ x ∧ x ≤ maxDuration
          · have hcheck : (decide (0 ≤ x) && decide (x ≤ maxDuration)) = true := by simp [hrange]
            simp only [hcheck, if_true, Bool.false_eq_true, if_false, Except.ok.injEq, Option.some.injEq, true_and]
            refine ⟨fun h => ⟨h, ?_⟩, fun h => h.1⟩
            rwa [← h]
          · have hcheck : ¬ (decide (0 ≤ x) && decide (x ≤ maxDuration)) = true := by simpa using hrange
            simp only [hcheck, if_true, Bool.false_eq_true, if_false, Option.some.injEq, true_and, reduceCtorEq,
              false_iff, not_and]
            rintro rfl hzero hle
            exact hrange ⟨hzero, hle⟩

theorem fetch_eq_ok_iff {l : DurationLookup} {base : String} (hbase : l.base = some base)
    {service : Url → ServiceAnswer} {id : String} {duration : Float} :
    fetch base service id = .ok duration ↔ l.Gives service id duration := by
  simp only [Gives, hbase, Option.mem_def, Option.some.injEq, exists_eq_left', fetch]
  cases request? base id with
  | none => simp
  | some url => simp only [Option.some.injEq, exists_eq_left', readAnswer_eq_ok_iff]

/-- The look-up yields what the service gives, and the default if it gives nothing. -/
theorem lookUp_cases (l : DurationLookup) (service : Url → ServiceAnswer) (id : String) :
    (∃ duration, l.Gives service id duration ∧ l.lookUp service id = .ok duration) ∨
    ((∀ duration, ¬ l.Gives service id duration) ∧ l.lookUp service id = .ok l.defaultDuration) := by
  cases hbase : l.base with
  | none =>
    refine .inr ⟨fun duration hgives => ?_, by simp only [lookUp, hbase]⟩
    obtain ⟨base, hbase', -⟩ := hgives
    rw [hbase] at hbase'
    cases hbase'
  | some base =>
    cases hfetch : fetch base service id with
    | ok duration =>
      exact .inl ⟨duration, (fetch_eq_ok_iff hbase).1 hfetch, by simp only [lookUp, hbase, hfetch]⟩
    | error fault =>
      refine .inr ⟨fun duration hgives => ?_, by simp only [lookUp, hbase, hfetch]⟩
      rw [(fetch_eq_ok_iff hbase).2 hgives] at hfetch
      cases hfetch

theorem Gives.unique {l : DurationLookup} {service : Url → ServiceAnswer} {id : String} {x y : Float}
    (hx : l.Gives service id x) (hy : l.Gives service id y) : x = y := by
  have hx' := hx
  obtain ⟨base, hbase, -⟩ := hx'
  have hfetch := (fetch_eq_ok_iff hbase).2 hx
  rw [(fetch_eq_ok_iff hbase).2 hy] at hfetch
  exact (Except.ok.inj hfetch).symm

/-- What the answer of the service is worth, without the reasons. -/
theorem readAnswer_toOption (address : String) (answer : ServiceAnswer) :
    (readAnswer address answer).toOption = ofAnswer? answer := by
  cases answer with
  | none => rfl
  | answer status body =>
    have hbody : ofBody? body = (numberIn? body).filter fun x => 0 ≤ x && x ≤ maxDuration := by
      unfold ofBody? numberIn?
      split <;> rfl
    rw [readAnswer, ofAnswer?, hbody]
    cases isErrorStatus status with
    | true => rfl
    | false =>
      cases hasBody status with
      | false => rfl
      | true =>
        cases numberIn? body with
        | none => rfl
        | some x =>
          simp only [Bool.not_true, Bool.or_self, Bool.false_eq_true, if_false, if_true, Option.filter_some]
          split <;> rfl

/-- The look-up and the duration that is expected are the same. -/
theorem lookUp_eq_expected (l : DurationLookup) (service : Url → ServiceAnswer) (id : String) :
    l.lookUp service id = .ok (l.expected service id) := by
  unfold lookUp expected
  cases l.base with
  | none => rfl
  | some base =>
    simp only [fetch]
    cases request? base id with
    | none => rfl
    | some url =>
      simp only [Option.map_some, Option.bind_some, ← readAnswer_toOption (itemAddress base id)]
      cases readAnswer (itemAddress base id) (service url) <;> rfl

/-- A default that was validated is a number that can be a duration. -/
theorem usable_of_validate {s : LookupSettings} (hvalid : s.validate = .ok ()) :
    s.defaultDurationSeconds.isFinite = true ∧ 0 ≤ s.defaultDurationSeconds := by
  obtain ⟨-, -, ⟨hfinite, hpos⟩, -⟩ := LookupSettings.validate_eq_ok_iff.1 hvalid
  exact ⟨hfinite, Doubles.zero_le_of_not_le hfinite hpos⟩

end DurationLookup

namespace Hub

variable {α σ : Type}

/-- A task is added if its registry takes it, whatever becomes of a worker. -/
theorem addTask_result (s : DispatchState α) (task : Task α) (now : Instant) :
    (s.addTask task now).1 = (s.tasks.add task).1.map fun _ => () := by
  obtain ⟨e, hadd, heq⟩ | ⟨hadd, -, heq⟩ | ⟨old, hadd, -, heq⟩ := s.addTask_cases task now <;> rw [hadd, heq] <;> rfl

/-- The checks of a task that arrives do not look at its duration. -/
theorem addTask_arrive_result_eq (s : DispatchState α) (id : String) (model : ModelProfile α) (duration usual : α)
    (origin : Origin) (now : Instant) :
    (s.addTask (Task.arrive id model duration now origin) now).1 =
      (s.addTask (Task.arrive id model usual now origin) now).1 := by
  rw [addTask_result, addTask_result]
  unfold TaskRegistry.add Task.arrive
  dsimp only
  cases isBlank id with
  | true => rfl
  | false =>
    cases isBlank model.modelType with
    | true => rfl
    | false => cases origin.payload.isEmpty <;> rfl

/-- A work item is taken if it can be read and looked up, and its task can be added. -/
theorem processWorkItem_result (h : Hub α σ) (lookups : Lookups α) (delivery : Delivery) (now : Instant) :
    (h.processWorkItem lookups delivery now).1 =
      (taskOf lookups delivery now).bind fun task => (h.state.addTask task now).1 := by
  rw [processWorkItem]
  cases taskOf lookups delivery now with
  | error e => rfl
  | ok task =>
    dsimp only [Except.bind]
    obtain ⟨result, state⟩ := h.state.addTask task now
    cases result <;> rfl

/-- Whether a work item is taken depends on a look-up of durations only if the look-up fails. -/
theorem processWorkItem_result_eq (h : Hub α σ) (profile : String → Except DispatchError (ModelProfile α))
    {duration : String → Except DispatchError α} (hok : ∀ id, ∃ d, duration id = .ok d) (usual : α)
    (delivery : Delivery) (now : Instant) :
    (h.processWorkItem ⟨profile, duration⟩ delivery now).1 =
      (h.processWorkItem ⟨profile, fun _ => .ok usual⟩ delivery now).1 := by
  rw [processWorkItem_result, processWorkItem_result]
  unfold taskOf
  cases WorkItem.decode delivery.body with
  | error e => rfl
  | ok item =>
    dsimp only [bind, Except.bind]
    cases profile item.profile with
    | error e => rfl
    | ok model =>
      obtain ⟨d, hd⟩ := hok item.id
      simp only [hd]
      exact addTask_arrive_result_eq h.state item.id model d usual _ now

end Hub

/-- The look-up of a duration always succeeds.  It yields what the service gives, and the default if that gives none;
with validated settings that is a finite number that is not negative.  So a work item is taken, or dropped for a
reason of its own, just as if the default were always looked up. -/
theorem DurationLookup.exists_lookUp (l : DurationLookup) (service : Url → ServiceAnswer) (id : String) :
    ∃ duration, l.lookUp service id = .ok duration ∧
      (∀ given, l.Gives service id given → duration = given) ∧
      ((∀ given, ¬ l.Gives service id given) → duration = l.defaultDuration) ∧
      (∀ s : LookupSettings, s.validate = .ok () → l = ofSettings s → duration.isFinite = true ∧ 0 ≤ duration) ∧
      ∀ {σ : Type} (h : Hub Float σ) (profile : String → Except DispatchError (ModelProfile Float))
        (delivery : Delivery) (now : Instant),
        (h.processWorkItem ⟨profile, l.lookUp service⟩ delivery now).1 =
          (h.processWorkItem ⟨profile, fun _ => .ok l.defaultDuration⟩ delivery now).1 := by
  have htaken : ∀ {σ : Type} (h : Hub Float σ) (profile : String → Except DispatchError (ModelProfile Float))
      (delivery : Delivery) (now : Instant),
      (h.processWorkItem ⟨profile, l.lookUp service⟩ delivery now).1 =
        (h.processWorkItem ⟨profile, fun _ => .ok l.defaultDuration⟩ delivery now).1 := by
    intro σ h profile delivery now
    have hok : ∀ id, ∃ duration, l.lookUp service id = .ok duration := fun id => ⟨_, lookUp_eq_expected l service id⟩
    exact h.processWorkItem_result_eq profile hok l.defaultDuration delivery now
  obtain ⟨duration, hgives, hlook⟩ | ⟨hnone, hlook⟩ := lookUp_cases l service id
  · refine ⟨duration, hlook, fun given hgiven => hgives.unique hgiven, fun hnone => ?_, fun s _ _ => ?_, htaken⟩
    · exact absurd hgives (hnone duration)
    · have hfinite := hgives.isFinite
      obtain ⟨-, -, -, -, -, -, -, -, -, -, hzero, -⟩ := hgives
      exact ⟨hfinite, hzero⟩
  · refine ⟨l.defaultDuration, hlook, fun given hgiven => ?_, fun _ => rfl, ?_, htaken⟩
    · exact absurd hgiven (hnone given)
    · rintro s hvalid rfl
      exact usable_of_validate hvalid

/-- A duration of exactly a week is taken from the service; if that cannot be reached the default counts. -/
theorem DurationLookup.exists_lookUp_week :
    (∃ duration, lookUp ⟨some "http://host/", 30⟩ (fun _ => .answer 200 (Bytes.ofText "\x7b\"duration\":604800\x7d"))
      "item" = .ok duration ∧ duration = 604800) ∧
    ∃ duration, lookUp ⟨some "http://host/", 30⟩ (fun _ => .none) "item" = .ok duration ∧ duration = 30 := by
  constructor
  · obtain ⟨duration, hlook, hgives, -⟩ := exists_lookUp ⟨some "http://host/", 30⟩
      (fun _ => .answer 200 (Bytes.ofText "\x7b\"duration\":604800\x7d")) "item"
    rw [← maxDuration_eq]
    refine ⟨duration, hlook, hgives _ ⟨_, rfl, _, rfl, _, _, rfl, rfl, rfl, ?_, ?_, ?_⟩⟩ <;> decide +kernel
  · obtain ⟨duration, hlook, -, hdefault, -⟩ := exists_lookUp ⟨some "http://host/", 30⟩ (fun _ => .none) "item"
    refine ⟨duration, hlook, hdefault fun given hgives => ?_⟩
    obtain ⟨base, -, url, -, status, body, hanswer, -⟩ := hgives
    cases hanswer

end SpeechDispatch
