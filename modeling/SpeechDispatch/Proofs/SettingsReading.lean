import SpeechDispatch.Config.Reading
import SpeechDispatch.Proofs.Layers

/-!
# Settings one by one

`Setting` names the settings by the types of their values: the section and the key that each stands under, how its value
is read, and where it is in the settings that are read.  Whatever the rules, a setting is read from the value under its
own key and from nothing else (`Setting.read_of_settings?`).
-/

namespace SpeechDispatch

/-- The types of settings. -/
inductive SettingType
  | text
  | optionalText
  | natural
  | integer
  | float
  | bool
  | queueKind
  | logFormat
  | profiles

/-- The values of settings of a type. -/
abbrev SettingType.Value : SettingType → Type
  | text => String
  | optionalText => Option String
  | natural => Nat
  | integer => Int
  | float => Float
  | bool => Bool
  | queueKind => QueueKind
  | logFormat => LogFormat
  | profiles => List ProfileSettings

/-- The settings, by the types of their values. -/
inductive Setting : SettingType → Type
  | queueKind : Setting .queueKind
  | queueUrl : Setting .text
  | heartbeatQueue : Setting .text
  | workQueue : Setting .text
  | responseQueue : Setting .text
  | prefetchCount : Setting .natural
  | connectionTimeoutSeconds : Setting .natural
  | heartbeatStaleSeconds : Setting .integer
  | sweepIntervalSeconds : Setting .natural
  | sweepThresholdSeconds : Setting .integer
  | maxTaskFailures : Setting .natural
  | reloadPenaltySeconds : Setting .float
  | delayCostPerSecond : Setting .float
  | publishTimeoutSeconds : Setting .natural
  | durationServiceUrl : Setting .optionalText
  | requestTimeoutSeconds : Setting .natural
  | defaultDurationSeconds : Setting .float
  | profiles : Setting .profiles
  | logLevel : Setting .text
  | logFormat : Setting .logFormat
  | metricsEnabled : Setting .bool
  | metricsBindAddress : Setting .text

namespace Setting

variable {type : SettingType}

/-- The name of the section that holds a setting. -/
def sectionName : Setting type → String
  | queueKind | queueUrl | heartbeatQueue | workQueue | responseQueue | prefetchCount | connectionTimeoutSeconds =>
    "message_queue"
  | heartbeatStaleSeconds | sweepIntervalSeconds | sweepThresholdSeconds | maxTaskFailures | reloadPenaltySeconds
  | delayCostPerSecond | publishTimeoutSeconds => "dispatcher"
  | durationServiceUrl | requestTimeoutSeconds | defaultDurationSeconds | profiles => "lookup"
  | logLevel | logFormat | metricsEnabled | metricsBindAddress => "observability"

/-- The key of a setting in its section. -/
def key : Setting type → String
  | queueKind => "type"
  | queueUrl => "url"
  | heartbeatQueue => "heartbeat_queue"
  | workQueue => "work_queue"
  | responseQueue => "response_queue"
  | prefetchCount => "prefetch_count"
  | connectionTimeoutSeconds => "connection_timeout_seconds"
  | heartbeatStaleSeconds => "heartbeat_stale_seconds"
  | sweepIntervalSeconds => "sweep_interval_seconds"
  | sweepThresholdSeconds => "sweep_threshold_seconds"
  | maxTaskFailures => "max_task_failures"
  | reloadPenaltySeconds => "reload_penalty_seconds"
  | delayCostPerSecond => "delay_cost_per_second"
  | publishTimeoutSeconds => "publish_timeout_seconds"
  | durationServiceUrl => "duration_service_url"
  | requestTimeoutSeconds => "request_timeout_seconds"
  | defaultDurationSeconds => "default_duration_seconds"
  | profiles => "profiles"
  | logLevel => "log_level"
  | logFormat => "log_format"
  | metricsEnabled => "metrics_enabled"
  | metricsBindAddress => "metrics_bind_address"

def get : Setting type → Settings → type.Value
  | queueKind, s => s.messageQueue.kind
  | queueUrl, s => s.messageQueue.url
  | heartbeatQueue, s => s.messageQueue.heartbeatQueue
  | workQueue, s => s.messageQueue.workQueue
  | responseQueue, s => s.messageQueue.responseQueue
  | prefetchCount, s => s.messageQueue.prefetchCount
  | connectionTimeoutSeconds, s => s.messageQueue.connectionTimeoutSeconds
  | heartbeatStaleSeconds, s => s.dispatcher.heartbeatStaleSeconds
  | sweepIntervalSeconds, s => s.dispatcher.sweepIntervalSeconds
  | sweepThresholdSeconds, s => s.dispatcher.sweepThresholdSeconds
  | maxTaskFailures, s => s.dispatcher.maxTaskFailures
  | reloadPenaltySeconds, s => s.dispatcher.reloadPenaltySeconds
  | delayCostPerSecond, s => s.dispatcher.delayCostPerSecond
  | publishTimeoutSeconds, s => s.dispatcher.publishTimeoutSeconds
  | durationServiceUrl, s => s.lookup.durationServiceUrl
  | requestTimeoutSeconds, s => s.lookup.requestTimeoutSeconds
  | defaultDurationSeconds, s => s.lookup.defaultDurationSeconds
  | profiles, s => s.lookup.profiles
  | logLevel, s => s.observability.logLevel
  | logFormat, s => s.observability.logFormat
  | metricsEnabled, s => s.observability.metricsEnabled
  | metricsBindAddress, s => s.observability.metricsBindAddress

/-- How the value of a setting is read. -/
def read (rules : ReadingRules) : Setting type → Document → Option type.Value
  | queueKind, value => (rules.choice value).bind QueueKind.ofWord?
  | logFormat, value => (rules.choice value).bind LogFormat.ofWord?
  | queueUrl, value | heartbeatQueue, value | workQueue, value | responseQueue, value | logLevel, value
  | metricsBindAddress, value => rules.text value
  | prefetchCount, value => rules.natural (size16 - 1) value
  | maxTaskFailures, value => rules.natural (size32 - 1) value
  | connectionTimeoutSeconds, value | sweepIntervalSeconds, value | publishTimeoutSeconds, value
  | requestTimeoutSeconds, value => rules.natural64 value
  | heartbeatStaleSeconds, value | sweepThresholdSeconds, value => rules.integer value
  | reloadPenaltySeconds, value | delayCostPerSecond, value | defaultDurationSeconds, value => rules.float value
  | metricsEnabled, value => rules.bool value
  | durationServiceUrl, .null => some none
  | durationServiceUrl, value => (rules.text value).map some
  | profiles, .list items => items.mapM rules.profileSettings?
  | profiles, _ => none

end Setting

namespace ReadingRules

variable {rules : ReadingRules} {members : List (String × Document)}

/-- A value is looked up and read before what comes next. -/
private theorem read_of_bind_eq_some {α β : Type} {found : Option Document} {read : Document → Option α}
    {rest : α → Option β} {b : β} (h : (found >>= fun value => read value >>= rest) = some b) :
    ∃ a, found.bind read = some a ∧ rest a = some b := by
  obtain ⟨value, hvalue, h⟩ := Option.bind_eq_some_iff.1 h
  obtain ⟨a, ha, h⟩ := Option.bind_eq_some_iff.1 h
  rw [hvalue]
  exact ⟨a, ha, h⟩

theorem of_queueSettings? {s : QueueSettings} (h : rules.queueSettings? (.table members) = some s) :
    ((members.lookup "type").bind fun value => (rules.choice value).bind QueueKind.ofWord?) = some s.kind ∧
    (members.lookup "url").bind rules.text = some s.url ∧
    (members.lookup "heartbeat_queue").bind rules.text = some s.heartbeatQueue ∧
    (members.lookup "work_queue").bind rules.text = some s.workQueue ∧
    (members.lookup "response_queue").bind rules.text = some s.responseQueue ∧
    (members.lookup "prefetch_count").bind (rules.natural (size16 - 1)) = some s.prefetchCount ∧
    (members.lookup "connection_timeout_seconds").bind rules.natural64 = some s.connectionTimeoutSeconds := by
  obtain ⟨kind, hkind, h⟩ := read_of_bind_eq_some h
  obtain ⟨url, hurl, h⟩ := read_of_bind_eq_some h
  obtain ⟨heartbeat, hheartbeat, h⟩ := read_of_bind_eq_some h
  obtain ⟨work, hwork, h⟩ := read_of_bind_eq_some h
  obtain ⟨response, hresponse, h⟩ := read_of_bind_eq_some h
  obtain ⟨prefetch, hprefetch, h⟩ := read_of_bind_eq_some h
  obtain ⟨timeout, htimeout, h⟩ := read_of_bind_eq_some h
  cases h
  exact ⟨hkind, hurl, hheartbeat, hwork, hresponse, hprefetch, htimeout⟩

theorem of_dispatcherSettings? {s : DispatcherSettings} (h : rules.dispatcherSettings? (.table members) = some s) :
    (members.lookup "heartbeat_stale_seconds").bind rules.integer = some s.heartbeatStaleSeconds ∧
    (members.lookup "sweep_interval_seconds").bind rules.natural64 = some s.sweepIntervalSeconds ∧
    (members.lookup "sweep_threshold_seconds").bind rules.integer = some s.sweepThresholdSeconds ∧
    (members.lookup "max_task_failures").bind (rules.natural (size32 - 1)) = some s.maxTaskFailures ∧
    (members.lookup "reload_penalty_seconds").bind rules.float = some s.reloadPenaltySeconds ∧
    (members.lookup "delay_cost_per_second").bind rules.float = some s.delayCostPerSecond ∧
    ∀ value, members.lookup "publish_timeout_seconds" = some value →
      rules.natural64 value = some s.publishTimeoutSeconds := by
  obtain ⟨stale, hstale, h⟩ := read_of_bind_eq_some h
  obtain ⟨interval, hinterval, h⟩ := read_of_bind_eq_some h
  obtain ⟨threshold, hthreshold, h⟩ := read_of_bind_eq_some h
  obtain ⟨failures, hfailures, h⟩ := read_of_bind_eq_some h
  obtain ⟨penalty, hpenalty, h⟩ := read_of_bind_eq_some h
  obtain ⟨cost, hcost, h⟩ := read_of_bind_eq_some h
  cases hpublish : members.lookup "publish_timeout_seconds" with
  | none =>
    simp only [hpublish] at h
    cases h
    exact ⟨hstale, hinterval, hthreshold, hfailures, hpenalty, hcost, nofun⟩
  | some value =>
    simp only [hpublish] at h
    obtain ⟨publish, hread, h⟩ := Option.bind_eq_some_iff.1 h
    cases h
    refine ⟨hstale, hinterval, hthreshold, hfailures, hpenalty, hcost, fun value' hvalue => ?_⟩
    cases hvalue
    exact hread

theorem of_lookupSettings? {s : LookupSettings} (h : rules.lookupSettings? (.table members) = some s) :
    (∀ value, members.lookup "duration_service_url" = some value →
      Setting.durationServiceUrl.read rules value = some s.durationServiceUrl) ∧
    (members.lookup "request_timeout_seconds").bind rules.natural64 = some s.requestTimeoutSeconds ∧
    (members.lookup "default_duration_seconds").bind rules.float = some s.defaultDurationSeconds ∧
    (members.lookup "profiles").bind (Setting.profiles.read rules) = some s.profiles := by
  obtain ⟨url, hurl, h⟩ := Option.bind_eq_some_iff.1 h
  obtain ⟨timeout, htimeout, h⟩ := read_of_bind_eq_some h
  obtain ⟨duration, hduration, h⟩ := read_of_bind_eq_some h
  have hread : ∀ value, members.lookup "duration_service_url" = some value →
      Setting.durationServiceUrl.read rules value = some url := by
    intro value hvalue
    rw [optionalText] at hurl
    dsimp only at hurl
    rw [hvalue] at hurl
    cases value <;> exact hurl
  cases hprofiles : members.lookup "profiles" with
  | none =>
    simp only [hprofiles] at h
    cases h
  | some value =>
    simp only [hprofiles] at h
    cases value with
    | list items =>
      obtain ⟨profiles, hitems, h⟩ := Option.bind_eq_some_iff.1 h
      cases h
      exact ⟨hread, htimeout, hduration, hitems⟩
    | _ => cases h

theorem of_observabilitySettings? {s : ObservabilitySettings}
    (h : rules.observabilitySettings? (.table members) = some s) :
    (members.lookup "log_level").bind rules.text = some s.logLevel ∧
    ((members.lookup "log_format").bind fun value => (rules.choice value).bind LogFormat.ofWord?) = some s.logFormat ∧
    (members.lookup "metrics_enabled").bind rules.bool = some s.metricsEnabled ∧
    (members.lookup "metrics_bind_address").bind rules.text = some s.metricsBindAddress := by
  obtain ⟨level, hlevel, h⟩ := read_of_bind_eq_some h
  obtain ⟨format, hformat, h⟩ := read_of_bind_eq_some h
  obtain ⟨enabled, henabled, h⟩ := read_of_bind_eq_some h
  obtain ⟨address, haddress, h⟩ := read_of_bind_eq_some h
  cases h
  exact ⟨hlevel, hformat, henabled, haddress⟩

theorem of_settings? {document : Document} {s : Settings} (h : rules.settings? document = some s)
    {sections : List (String × Document)} (htable : document = .table sections) :
    (sections.lookup "message_queue").bind rules.queueSettings? = some s.messageQueue ∧
    (sections.lookup "dispatcher").bind rules.dispatcherSettings? = some s.dispatcher ∧
    (sections.lookup "lookup").bind rules.lookupSettings? = some s.lookup ∧
    (sections.lookup "observability").bind rules.observabilitySettings? = some s.observability := by
  subst htable
  obtain ⟨queue, hqueue, h⟩ := read_of_bind_eq_some h
  obtain ⟨dispatcher, hdispatcher, h⟩ := read_of_bind_eq_some h
  obtain ⟨lookups, hlookups, h⟩ := read_of_bind_eq_some h
  obtain ⟨observability, hobservability, h⟩ := read_of_bind_eq_some h
  cases h
  exact ⟨hqueue, hdispatcher, hlookups, hobservability⟩

end ReadingRules

open ReadingRules

/-- A setting is read from the value under its own key. -/
theorem Setting.read_of_settings? {rules : ReadingRules} {document : Document} {s : Settings}
    (h : rules.settings? document = some s) {type : SettingType} (x : Setting type) {value : Document}
    (hvalue : document.value? x.sectionName x.key = some value) : x.read rules value = some (x.get s) := by
  obtain ⟨section_, hsection, hkey⟩ := Option.bind_eq_some_iff.1 hvalue
  obtain ⟨sections, rfl⟩ : ∃ sections, document = .table sections := by
    cases document with
    | table sections => exact ⟨sections, rfl⟩
    | _ => cases hsection
  obtain ⟨members, rfl⟩ : ∃ members, section_ = .table members := by
    cases section_ with
    | table members => exact ⟨members, rfl⟩
    | _ => cases hkey
  obtain ⟨hqueue, hdispatcher, hlookup, hobservability⟩ := of_settings? h rfl
  replace hsection : sections.lookup x.sectionName = some (.table members) := hsection
  replace hkey : members.lookup x.key = some value := hkey
  cases x with
  | queueKind | queueUrl | heartbeatQueue | workQueue | responseQueue | prefetchCount | connectionTimeoutSeconds =>
    rw [sectionName] at hsection
    rw [hsection] at hqueue
    have hread := of_queueSettings? hqueue
    simp only [key] at hkey
    simp only [hkey, Option.bind_some] at hread
    simp only [Setting.read, get, hread]
  | heartbeatStaleSeconds | sweepIntervalSeconds | sweepThresholdSeconds | maxTaskFailures | reloadPenaltySeconds
  | delayCostPerSecond | publishTimeoutSeconds =>
    rw [sectionName] at hsection
    rw [hsection] at hdispatcher
    have hread := of_dispatcherSettings? hdispatcher
    simp only [key] at hkey
    simp only [hkey, Option.bind_some, Option.some.injEq, forall_eq'] at hread
    simp only [Setting.read, get, hread]
  | durationServiceUrl | requestTimeoutSeconds | defaultDurationSeconds | profiles =>
    rw [sectionName] at hsection
    rw [hsection] at hlookup
    have hread := of_lookupSettings? hlookup
    simp only [key] at hkey
    simp only [hkey, Option.bind_some, Option.some.injEq, forall_eq'] at hread
    first
    | exact hread.1
    | exact hread.2.1
    | exact hread.2.2.1
    | exact hread.2.2.2
  | logLevel | logFormat | metricsEnabled | metricsBindAddress =>
    rw [sectionName] at hsection
    rw [hsection] at hobservability
    have hread := of_observabilitySettings? hobservability
    simp only [key] at hkey
    simp only [hkey, Option.bind_some] at hread
    simp only [Setting.read, get, hread]

end SpeechDispatch
