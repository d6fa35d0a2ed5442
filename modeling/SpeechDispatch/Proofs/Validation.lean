import SpeechDispatch.Config.Validation

/-!
# What validation accepts

A section of the settings is accepted if and only if each of its checks passes.
-/

namespace SpeechDispatch

namespace Validation

theorem bind_eq_ok_iff {check : Check} {rest : Unit → Check} :
    (check >>= rest) = .ok () ↔ check = .ok () ∧ rest () = .ok () := by
  cases check with
  | error e => exact ⟨nofun, nofun⟩
  | ok _ => exact ⟨fun h => ⟨rfl, h⟩, fun h => h.2⟩

theorem pure_eq_ok : (pure () : Check) = .ok () := rfl

theorem fault_ne_ok (f : SettingFault) : fault f ≠ .ok () := nofun

/-- A check that is made in some cases only. -/
theorem ite_bind_eq_ok_iff {p : Prop} [Decidable p] {check : Check} {rest : Unit → Check} :
    (if p then check >>= rest else rest ()) = .ok () ↔ (p → check = .ok ()) ∧ rest () = .ok () := by
  by_cases hp : p <;> simp [hp, bind_eq_ok_iff]

theorem ite_fault_bind_eq_ok_iff {p : Prop} [Decidable p] {f : SettingFault} {rest : Unit → Check} :
    (if p then fault f >>= rest else rest ()) = .ok () ↔ ¬ p ∧ rest () = .ok () := by
  rw [ite_bind_eq_ok_iff]
  simp [fault_ne_ok]

/-- A check that is made in some cases only, and the last one. -/
theorem ite_pure_eq_ok_iff {p : Prop} [Decidable p] {check : Check} :
    (if p then check else pure ()) = .ok () ↔ (p → check = .ok ()) := by
  by_cases hp : p <;> simp [hp, pure_eq_ok]

/-- A check that only complains. -/
theorem ite_fault_eq_ok_iff {p : Prop} [Decidable p] {f : SettingFault} :
    (if p then fault f else .ok ()) = .ok () ↔ ¬ p := by
  by_cases hp : p <;> simp [hp, fault_ne_ok]

theorem notEmpty_eq_ok_iff {value field : String} : notEmpty value field = .ok () ↔ isBlank value = false := by
  rw [notEmpty, ite_fault_eq_ok_iff, Bool.not_eq_true]

theorem seconds_eq_ok_iff {n : Nat} {field : String} : seconds n field = .ok () ↔ 0 < n ∧ n ≤ 3600 := by
  unfold seconds
  by_cases hzero : n = 0
  · simp [hzero, fault_ne_ok]
  · rw [if_neg hzero, ite_fault_eq_ok_iff]
    omega

theorem nonNegative_eq_ok_iff {x : Float} {field : String} :
    nonNegative x field = .ok () ↔ x.isFinite = true ∧ ¬ x < 0 := by
  rw [nonNegative, ite_fault_eq_ok_iff]
  simp

theorem positive_eq_ok_iff {x : Float} {field : String} :
    positive x field = .ok () ↔ x.isFinite = true ∧ ¬ x ≤ 0 := by
  rw [positive, ite_fault_eq_ok_iff]
  simp

theorem url_eq_ok_iff {value field : String} {schemes : List String} :
    url value field schemes = .ok () ↔
      isBlank value = false ∧ ∃ u, Url.parse? value = some u ∧ u.scheme ∈ schemes := by
  rw [url, bind_eq_ok_iff, notEmpty_eq_ok_iff]
  refine and_congr_right fun _ => ?_
  cases Url.parse? value with
  | none => simp
  | some u => by_cases hmem : u.scheme ∈ schemes <;> simp [hmem, fault_ne_ok]

end Validation

open Validation

theorem QueueSettings.validate_eq_ok_iff {s : QueueSettings} :
    s.validate = .ok () ↔
      (s.kind = .rabbitmq → Validation.url s.url "message_queue.url" ["amqp", "amqps"] = .ok ()) ∧
      isBlank s.heartbeatQueue = false ∧ isBlank s.workQueue = false ∧ isBlank s.responseQueue = false ∧
      (0 < s.connectionTimeoutSeconds ∧ s.connectionTimeoutSeconds ≤ 3600) ∧
      ¬ (s.heartbeatQueue = s.workQueue ∨ s.heartbeatQueue = s.responseQueue ∨ s.workQueue = s.responseQueue) ∧
      s.prefetchCount ≠ 0 := by
  unfold QueueSettings.validate
  simp only [ite_bind_eq_ok_iff, bind_eq_ok_iff, notEmpty_eq_ok_iff, seconds_eq_ok_iff, fault_ne_ok, imp_false,
    pure_eq_ok, ite_fault_eq_ok_iff, ne_eq]

theorem DispatcherSettings.validate_eq_ok_iff {s : DispatcherSettings} :
    s.validate = .ok () ↔
      0 < s.heartbeatStaleSeconds ∧ 0 < s.sweepThresholdSeconds ∧
      (0 < s.sweepIntervalSeconds ∧ s.sweepIntervalSeconds ≤ 3600) ∧ 0 < s.maxTaskFailures ∧
      (s.reloadPenaltySeconds.isFinite = true ∧ ¬ s.reloadPenaltySeconds < 0) ∧
      (s.delayCostPerSecond.isFinite = true ∧ ¬ s.delayCostPerSecond < 0) ∧
      (0 < s.publishTimeoutSeconds ∧ s.publishTimeoutSeconds ≤ 3600) := by
  unfold DispatcherSettings.validate
  simp only [ite_fault_bind_eq_ok_iff, bind_eq_ok_iff, seconds_eq_ok_iff, nonNegative_eq_ok_iff, Int.not_le,
    ← Nat.pos_iff_ne_zero]

theorem ProfileSettings.validate_eq_ok_iff {s : ProfileSettings} :
    s.validate = .ok () ↔
      isBlank s.key = false ∧ isBlank s.modelType = false ∧
      (s.realTimeFactor.isFinite = true ∧ ¬ s.realTimeFactor ≤ 0) ∧
      (s.loadSeconds.isFinite = true ∧ ¬ s.loadSeconds < 0) := by
  unfold ProfileSettings.validate
  simp only [bind_eq_ok_iff, notEmpty_eq_ok_iff, positive_eq_ok_iff, nonNegative_eq_ok_iff]

theorem validateProfiles_eq_ok_iff {seen : List String} {profiles : List ProfileSettings} :
    validateProfiles seen profiles = .ok () ↔
      (∀ p ∈ profiles, p.validate = .ok () ∧ p.key ∉ seen) ∧ (profiles.map (·.key)).Nodup := by
  induction profiles generalizing seen with
  | nil => simp [validateProfiles]
  | cons profile rest ih =>
    simp only [validateProfiles, bind_eq_ok_iff, ite_fault_bind_eq_ok_iff, ih, List.contains_iff_mem, List.mem_cons,
      forall_eq_or_imp, List.map_cons, List.nodup_cons, List.mem_map, not_exists, not_and, not_or]
    constructor
    · rintro ⟨hvalid, hnew, hrest, hnodup⟩
      exact ⟨⟨⟨hvalid, hnew⟩, fun p hp => ⟨(hrest p hp).1, (hrest p hp).2.2⟩⟩, fun p hp => (hrest p hp).2.1, hnodup⟩
    · rintro ⟨⟨⟨hvalid, hnew⟩, hrest⟩, hother, hnodup⟩
      exact ⟨hvalid, hnew, fun p hp => ⟨(hrest p hp).1, hother p hp, (hrest p hp).2⟩, hnodup⟩

theorem LookupSettings.validate_eq_ok_iff {s : LookupSettings} :
    s.validate = .ok () ↔
      (∀ address, s.durationServiceUrl = some address →
        Validation.url address "lookup.duration_service_url" ["http", "https"] = .ok ()) ∧
      (0 < s.requestTimeoutSeconds ∧ s.requestTimeoutSeconds ≤ 3600) ∧
      (s.defaultDurationSeconds.isFinite = true ∧ ¬ s.defaultDurationSeconds ≤ 0) ∧ s.profiles ≠ [] ∧
      (∀ p ∈ s.profiles, p.validate = .ok ()) ∧ (s.profiles.map (·.key)).Nodup := by
  unfold LookupSettings.validate
  cases s.durationServiceUrl <;>
    simp only [ite_fault_bind_eq_ok_iff, bind_eq_ok_iff, seconds_eq_ok_iff, positive_eq_ok_iff,
      validateProfiles_eq_ok_iff, List.isEmpty_iff, List.not_mem_nil, not_false_eq_true, and_true, reduceCtorEq,
      false_implies, implies_true, true_and, Option.some.injEq, forall_eq', ne_eq]

theorem ObservabilitySettings.validate_eq_ok_iff {s : ObservabilitySettings} :
    s.validate = .ok () ↔
      s.logLevel.toLower ∈ logLevels ∧
      (s.metricsEnabled = true →
        isBlank s.metricsBindAddress = false ∧ Net.isSocketAddress s.metricsBindAddress = true) := by
  unfold ObservabilitySettings.validate
  simp only [ite_fault_bind_eq_ok_iff, ite_pure_eq_ok_iff, bind_eq_ok_iff, notEmpty_eq_ok_iff, fault_ne_ok,
    Bool.not_eq_true', Bool.not_eq_false, List.contains_iff_mem, imp_false]

theorem Settings.validate_eq_ok_iff {s : Settings} :
    s.validate = .ok () ↔
      s.messageQueue.validate = .ok () ∧ s.dispatcher.validate = .ok () ∧ s.lookup.validate = .ok () ∧
      s.observability.validate = .ok () := by
  unfold Settings.validate
  simp only [bind_eq_ok_iff]

end SpeechDispatch
