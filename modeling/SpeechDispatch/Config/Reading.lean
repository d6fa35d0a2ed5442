import SpeechDispatch.Config.Settings
import SpeechDispatch.WordSize

/-!
# Reading settings from documents

Settings come from documents of several kinds, which differ in what counts as a number or a text.  `ReadingRules` holds
these differences; the sections are read alike from all.  A section is a table, of which unknown names are ignored, or
a list of the values in their order.
-/

namespace SpeechDispatch

/-- What counts as a value of each type. -/
structure ReadingRules where
  integer : Document → Option Int
  /-- A whole number for a setting that is not negative and at most so large. -/
  natural : Nat → Document → Option Nat
  float : Document → Option Float
  bool : Document → Option Bool
  text : Document → Option String
  /-- The name of one of several choices. -/
  choice : Document → Option String
  /-- Whether a section written as a list may have more items than it has settings. -/
  spareItems : Bool

namespace ReadingRules

def strictInteger : Document → Option Int
  | .integer n => if isInt64 n then some n else none
  | _ => none

def strictNatural (limit : Nat) : Document → Option Nat
  | .integer n => if 0 ≤ n ∧ n ≤ limit then some n.toNat else none
  | _ => none

/-- A number; a whole number of 64 bits, with or without sign, stands for itself. -/
def strictFloat : Document → Option Float
  | .float x => some x
  | .integer n => if -(size63 : Int) ≤ n ∧ n < size64 then some (Float.ofInt n) else none
  | _ => none

def strictBool : Document → Option Bool
  | .bool b => some b
  | _ => none

def strictText : Document → Option String
  | .text s => some s
  | _ => none

/-- Every value must have been written as one of its type. -/
def strict : ReadingRules :=
  { integer := strictInteger, natural := strictNatural, float := strictFloat, bool := strictBool, text := strictText,
    choice := strictText, spareItems := false }

/-- The rules for JSON, where a choice may also be the only name in a table, with no value. -/
def json : ReadingRules :=
  { strict with
    choice := fun
      | .text s => some s
      | .table [(name, .null)] => some name
      | _ => none }

end ReadingRules

/-- The values of a section by name; `none` for a name that is missing. -/
structure SectionValues where
  get : String → Option Document
  /-- Whether a value that may be missing is missing rightly. -/
  named : Bool

namespace ReadingRules

variable (rules : ReadingRules)

/-- The values of a section with these settings. -/
def values? (names : List String) : Document → Option SectionValues
  | .table members => some ⟨fun name => members.lookup name, true⟩
  | .list items =>
    if items.length ≤ names.length || rules.spareItems then some ⟨fun name => (names.zip items).lookup name, false⟩
    else none
  | _ => none

/-- A whole number of 64 bits without sign. -/
def natural64 : Document → Option Nat := rules.natural (size64 - 1)

def queueSettings? (document : Document) : Option QueueSettings := do
  let names := ["type", "url", "heartbeat_queue", "work_queue", "response_queue", "prefetch_count",
    "connection_timeout_seconds"]
  let values ← rules.values? names document
  return {
    kind := ← ((← values.get "type") |> rules.choice) >>= QueueKind.ofWord?
    url := ← (← values.get "url") |> rules.text
    heartbeatQueue := ← (← values.get "heartbeat_queue") |> rules.text
    workQueue := ← (← values.get "work_queue") |> rules.text
    responseQueue := ← (← values.get "response_queue") |> rules.text
    prefetchCount := ← (← values.get "prefetch_count") |> rules.natural (size16 - 1)
    connectionTimeoutSeconds := ← (← values.get "connection_timeout_seconds") |> rules.natural64 }

/-- The time to wait for a publication may be left out. -/
def dispatcherSettings? (document : Document) : Option DispatcherSettings := do
  let names := ["heartbeat_stale_seconds", "sweep_interval_seconds", "sweep_threshold_seconds", "max_task_failures",
    "reload_penalty_seconds", "delay_cost_per_second", "publish_timeout_seconds"]
  let values ← rules.values? names document
  return {
    heartbeatStaleSeconds := ← (← values.get "heartbeat_stale_seconds") |> rules.integer
    sweepIntervalSeconds := ← (← values.get "sweep_interval_seconds") |> rules.natural64
    sweepThresholdSeconds := ← (← values.get "sweep_threshold_seconds") |> rules.integer
    maxTaskFailures := ← (← values.get "max_task_failures") |> rules.natural (size32 - 1)
    reloadPenaltySeconds := ← (← values.get "reload_penalty_seconds") |> rules.float
    delayCostPerSecond := ← (← values.get "delay_cost_per_second") |> rules.float
    publishTimeoutSeconds := ← match values.get "publish_timeout_seconds" with
      | none => some ({} : DispatcherSettings).publishTimeoutSeconds
      | some value => rules.natural64 value }

def profileSettings? (document : Document) : Option ProfileSettings := do
  let values ← rules.values? ["key", "model_type", "real_time_factor", "load_seconds"] document
  return {
    key := ← (← values.get "key") |> rules.text
    modelType := ← (← values.get "model_type") |> rules.text
    realTimeFactor := ← (← values.get "real_time_factor") |> rules.float
    loadSeconds := ← (← values.get "load_seconds") |> rules.float }

/-- A text that may be missing; from a list of values it may only be empty. -/
def optionalText (values : SectionValues) (name : String) : Option (Option String) :=
  match values.get name with
  | none => if values.named then some none else none
  | some .null => some none
  | some value => (rules.text value).map some

def lookupSettings? (document : Document) : Option LookupSettings := do
  let names := ["duration_service_url", "request_timeout_seconds", "default_duration_seconds", "profiles"]
  let values ← rules.values? names document
  return {
    durationServiceUrl := ← rules.optionalText values "duration_service_url"
    requestTimeoutSeconds := ← (← values.get "request_timeout_seconds") |> rules.natural64
    defaultDurationSeconds := ← (← values.get "default_duration_seconds") |> rules.float
    profiles := ← match values.get "profiles" with
      | some (.list items) => items.mapM rules.profileSettings?
      | _ => none }

def observabilitySettings? (document : Document) : Option ObservabilitySettings := do
  let names := ["log_level", "log_format", "metrics_enabled", "metrics_bind_address"]
  let values ← rules.values? names document
  return {
    logLevel := ← (← values.get "log_level") |> rules.text
    logFormat := ← ((← values.get "log_format") |> rules.choice) >>= LogFormat.ofWord?
    metricsEnabled := ← (← values.get "metrics_enabled") |> rules.bool
    metricsBindAddress := ← (← values.get "metrics_bind_address") |> rules.text }

def settings? (document : Document) : Option Settings := do
  let values ← rules.values? ["message_queue", "dispatcher", "lookup", "observability"] document
  return {
    messageQueue := ← (← values.get "message_queue") |> rules.queueSettings?
    dispatcher := ← (← values.get "dispatcher") |> rules.dispatcherSettings?
    lookup := ← (← values.get "lookup") |> rules.lookupSettings?
    observability := ← (← values.get "observability") |> rules.observabilitySettings? }

end ReadingRules

end SpeechDispatch
