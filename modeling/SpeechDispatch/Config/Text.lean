import SpeechDispatch.Config.Reading
import SpeechDispatch.Config.Validation
import SpeechDispatch.Toml.Tree
import SpeechDispatch.Toml.Writer

/-!
# Settings as text

All settings as a TOML text, and back.  What is read has to be complete, and is validated.
-/

namespace SpeechDispatch

namespace ReadingRules

/-- The rules for TOML: as strict as those for JSON, but for lists with items to spare, and choices as the only name
in a table with nothing in it. -/
def toml : ReadingRules :=
  { strict with
    choice := fun
      | .text s => some s
      | .table [(name, .table [])] => some name
      | .table [(name, .list [])] => some name
      | _ => none
    spareItems := true }

end ReadingRules

/-- Why a text does not give settings. -/
inductive SettingsFault
  /-- The text is not TOML or has not the right values. -/
  | unreadable
  | invalid (error : ConfigError)
  deriving DecidableEq

namespace Toml

def ofText (text : String) : Value := .scalar (.text text)

def ofNat (n : Nat) : Value := .scalar (.integer n)

def ofFloat (x : Float) : Value := .scalar (.float x)

end Toml

open Toml

namespace QueueSettings

def statements (s : QueueSettings) : List Statement := [
  .assign ["type"] (ofText s.kind.word), .assign ["url"] (ofText s.url),
  .assign ["heartbeat_queue"] (ofText s.heartbeatQueue), .assign ["work_queue"] (ofText s.workQueue),
  .assign ["response_queue"] (ofText s.responseQueue), .assign ["prefetch_count"] (ofNat s.prefetchCount),
  .assign ["connection_timeout_seconds"] (ofNat s.connectionTimeoutSeconds)]

end QueueSettings

def DispatcherSettings.statements (s : DispatcherSettings) : List Statement := [
  .assign ["heartbeat_stale_seconds"] (.scalar (.integer s.heartbeatStaleSeconds)),
  .assign ["sweep_interval_seconds"] (ofNat s.sweepIntervalSeconds),
  .assign ["sweep_threshold_seconds"] (.scalar (.integer s.sweepThresholdSeconds)),
  .assign ["max_task_failures"] (ofNat s.maxTaskFailures),
  .assign ["reload_penalty_seconds"] (ofFloat s.reloadPenaltySeconds),
  .assign ["delay_cost_per_second"] (ofFloat s.delayCostPerSecond),
  .assign ["publish_timeout_seconds"] (ofNat s.publishTimeoutSeconds)]

def ProfileSettings.statements (s : ProfileSettings) : List Statement := [
  .openItem ["lookup", "profiles"], .assign ["key"] (ofText s.key), .assign ["model_type"] (ofText s.modelType),
  .assign ["real_time_factor"] (ofFloat s.realTimeFactor), .assign ["load_seconds"] (ofFloat s.loadSeconds)]

/-- A missing address is left out, and missing profiles are an empty list. -/
def LookupSettings.statements (s : LookupSettings) : List Statement :=
  (match s.durationServiceUrl with
    | some url => [.assign ["duration_service_url"] (ofText url)]
    | none => []) ++
  [.assign ["request_timeout_seconds"] (ofNat s.requestTimeoutSeconds),
    .assign ["default_duration_seconds"] (ofFloat s.defaultDurationSeconds)] ++
  (if s.profiles.isEmpty then [.assign ["profiles"] (.array [])] else s.profiles.flatMap (·.statements))

def ObservabilitySettings.statements (s : ObservabilitySettings) : List Statement := [
  .assign ["log_level"] (ofText s.logLevel), .assign ["log_format"] (ofText s.logFormat.word),
  .assign ["metrics_enabled"] (.scalar (.bool s.metricsEnabled)),
  .assign ["metrics_bind_address"] (ofText s.metricsBindAddress)]

namespace Settings

def statements (s : Settings) : List Statement :=
  .openTable ["message_queue"] :: s.messageQueue.statements ++ .openTable ["dispatcher"] :: s.dispatcher.statements ++
    .openTable ["lookup"] :: s.lookup.statements ++ .openTable ["observability"] :: s.observability.statements

/-- The text of all settings. -/
def toText (s : Settings) : String := Toml.write s.statements

/-- The settings that a text gives. -/
def ofText (text : String) : Except SettingsFault Settings :=
  match (Toml.document? text).bind ReadingRules.toml.settings? with
  | none => .error .unreadable
  | some settings =>
    match settings.validate with
    | .error error => .error (.invalid error)
    | .ok () => .ok settings

end Settings

end SpeechDispatch
