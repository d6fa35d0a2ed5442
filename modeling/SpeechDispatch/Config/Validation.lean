import SpeechDispatch.Config.Error
import SpeechDispatch.Config.Settings
import SpeechDispatch.Text.Blank
import SpeechDispatch.Url.Basic

/-!
# Validating settings

Each section is checked in the order of its settings; the first fault counts.
-/

namespace SpeechDispatch

namespace Validation

/-- What a check yields: nothing, or the fault it found. -/
abbrev Check := Except ConfigError Unit

def fault (f : SettingFault) : Check := .error (.validation f)

def notEmpty (value field : String) : Check := if isBlank value then fault (.empty field) else .ok ()

/-- An interval or a timeout: at least a second and at most an hour. -/
def seconds (n : Nat) (field : String) : Check :=
  if n = 0 then fault (.notPositive field) else if 3600 < n then fault (.aboveHour field) else .ok ()

def nonNegative (x : Float) (field : String) : Check :=
  if !x.isFinite || x < 0 then fault (.notFiniteNonNegative field) else .ok ()

def positive (x : Float) (field : String) : Check :=
  if !x.isFinite || x ≤ 0 then fault (.notPositive field) else .ok ()

/-- An absolute URL of one of the schemes. -/
def url (value field : String) (schemes : List String) : Check := do
  notEmpty value field
  match Url.parse? value with
  | none => .error (.parse "not a URL")
  | some parsed => if schemes.contains parsed.scheme then .ok () else fault (.foreignScheme field schemes)

end Validation

open Validation

/-- The format that a word names, in capitals or not; beyond ASCII no letter has a small form among these words. -/
def LogFormat.parse? (text : String) : Option LogFormat := LogFormat.ofWord? text.toLower

def QueueSettings.validate (s : QueueSettings) : Check := do
  if s.kind = .rabbitmq then Validation.url s.url "message_queue.url" ["amqp", "amqps"]
  notEmpty s.heartbeatQueue "message_queue.heartbeat_queue"
  notEmpty s.workQueue "message_queue.work_queue"
  notEmpty s.responseQueue "message_queue.response_queue"
  seconds s.connectionTimeoutSeconds "message_queue.connection_timeout_seconds"
  if s.heartbeatQueue = s.workQueue ∨ s.heartbeatQueue = s.responseQueue ∨ s.workQueue = s.responseQueue then
    fault .queuesNotDistinct
  if s.prefetchCount = 0 then fault (.notPositive "message_queue.prefetch_count")

def DispatcherSettings.validate (s : DispatcherSettings) : Check := do
  if s.heartbeatStaleSeconds ≤ 0 then fault (.notPositive "dispatcher.heartbeat_stale_seconds")
  if s.sweepThresholdSeconds ≤ 0 then fault (.notPositive "dispatcher.sweep_threshold_seconds")
  seconds s.sweepIntervalSeconds "dispatcher.sweep_interval_seconds"
  if s.maxTaskFailures = 0 then fault (.notPositive "dispatcher.max_task_failures")
  nonNegative s.reloadPenaltySeconds "dispatcher.reload_penalty_seconds"
  nonNegative s.delayCostPerSecond "dispatcher.delay_cost_per_second"
  seconds s.publishTimeoutSeconds "dispatcher.publish_timeout_seconds"

def ProfileSettings.validate (s : ProfileSettings) : Check := do
  notEmpty s.key "lookup.profiles.key"
  notEmpty s.modelType "lookup.profiles.model_type"
  positive s.realTimeFactor "lookup.profiles.real_time_factor"
  nonNegative s.loadSeconds "lookup.profiles.load_seconds"

/-- Checks profiles one after another, and that no key comes again. -/
def validateProfiles (seen : List String) : List ProfileSettings → Check
  | [] => .ok ()
  | profile :: rest => do
    profile.validate
    if seen.contains profile.key then fault (.duplicateProfile profile.key)
    validateProfiles (profile.key :: seen) rest

def LookupSettings.validate (s : LookupSettings) : Check := do
  if let some address := s.durationServiceUrl then Validation.url address "lookup.duration_service_url" ["http", "https"]
  seconds s.requestTimeoutSeconds "lookup.request_timeout_seconds"
  positive s.defaultDurationSeconds "lookup.default_duration_seconds"
  if s.profiles.isEmpty then fault .noProfiles
  validateProfiles [] s.profiles

def ObservabilitySettings.validate (s : ObservabilitySettings) : Check := do
  if !logLevels.contains s.logLevel.toLower then fault (.unknownLogLevel s.logLevel)
  if s.metricsEnabled then
    notEmpty s.metricsBindAddress "observability.metrics_bind_address"
    if !Net.isSocketAddress s.metricsBindAddress then
      fault (.notSocketAddress "observability.metrics_bind_address")

def Settings.validate (s : Settings) : Check := do
  s.messageQueue.validate
  s.dispatcher.validate
  s.lookup.validate
  s.observability.validate

end SpeechDispatch
