import SpeechDispatch.Config.Settings
import SpeechDispatch.Error
import SpeechDispatch.Json.Number
import SpeechDispatch.Url.Basic

/-!
# Looking durations up

The length of a recording is asked for at a service, one address for each item.  Whatever goes wrong, the default
counts: the look-up always yields a duration.
-/

namespace SpeechDispatch

/-- What became of a request. -/
inductive ServiceAnswer
  /-- No answer came. -/
  | none
  | answer (status : Nat) (body : Bytes)

structure DurationLookup where
  /-- The address of the service, if there is one. -/
  base : Option String
  defaultDuration : Float

namespace DurationLookup

/-- The longest duration taken, a week. -/
def maxDuration : Float := 7 * 24 * 3600

/-- The address of the service, without slashes at its end. -/
def plainBase (base : String) : String := String.ofList ((base.toList.reverse.dropWhile (· == '/')).reverse)

/-- The address to ask for an item. -/
def itemAddress (base id : String) : String := plainBase base ++ "/" ++ id

/-- The request for an item, if its address is one of the web. -/
def request? (base id : String) : Option Url :=
  (Url.parse? (itemAddress base id)).filter fun url => url.scheme == "http" || url.scheme == "https"

/-- Whether a status stands for an error of one side or the other. -/
def isErrorStatus (status : Nat) : Bool := 400 ≤ status && status < 600

/-- Whether an answer of a status has a body at all. -/
def hasBody (status : Nat) : Bool := 200 ≤ status && status ≠ 204 && status ≠ 304

/-- The duration that a body gives, if it can be one. -/
def ofBody? (body : Bytes) : Option Float :=
  match Json.record? [["duration"]] body with
  | some [value] => value.float?.filter fun x => 0 ≤ x && x ≤ maxDuration
  | _ => none

/-- The duration that an answer gives. -/
def ofAnswer? : ServiceAnswer → Option Float
  | .none => none
  | .answer status body => if isErrorStatus status || !hasBody status then none else ofBody? body

/-- The duration of an item, given what the service answers. -/
def expected (l : DurationLookup) (service : Url → ServiceAnswer) (id : String) : Float :=
  match l.base with
  | none => l.defaultDuration
  | some base => (((request? base id).map service).bind ofAnswer?).getD l.defaultDuration

/-! ### Asking the service -/

/-- Why a service gives no duration. -/
inductive FetchFault
  /-- There is no address of the web to ask, no answer came, or the answer is an error. -/
  | request (address : String)
  /-- The answer does not say a duration. -/
  | unreadable (address : String)
  | outOfRange (address : String) (duration : Float)

/-- The number that a body gives as a duration. -/
def numberIn? (body : Bytes) : Option Float :=
  match Json.record? [["duration"]] body with
  | some [value] => value.float?
  | _ => none

/-- The duration in the answer that comes from an address. -/
def readAnswer (address : String) : ServiceAnswer → Except FetchFault Float
  | .none => .error (.request address)
  | .answer status body =>
    if isErrorStatus status then .error (.request address)
    else
      match if hasBody status then numberIn? body else none with
      | none => .error (.unreadable address)
      | some x => if 0 ≤ x && x ≤ maxDuration then .ok x else .error (.outOfRange address x)

/-- Asks the service for the duration of an item. -/
def fetch (base : String) (service : Url → ServiceAnswer) (id : String) : Except FetchFault Float :=
  match request? base id with
  | none => .error (.request (itemAddress base id))
  | some url => readAnswer (itemAddress base id) (service url)

/-- Looks the duration of an item up; if the service gives none, the default counts. -/
def lookUp (l : DurationLookup) (service : Url → ServiceAnswer) (id : String) : Except DispatchError Float :=
  match l.base with
  | none => .ok l.defaultDuration
  | some base =>
    match fetch base service id with
    | .ok duration => .ok duration
    | .error _ => .ok l.defaultDuration

/-- The look-up that settings ask for. -/
def ofSettings (s : LookupSettings) : DurationLookup := ⟨s.durationServiceUrl, s.defaultDurationSeconds⟩

end DurationLookup

end SpeechDispatch
