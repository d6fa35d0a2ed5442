import SpeechDispatch.Text.Quoted

/-!
# What can be wrong with settings
-/

namespace SpeechDispatch

/-- Why settings are not accepted. -/
inductive SettingFault
  | empty (field : String)
  | notPositive (field : String)
  | aboveHour (field : String)
  | notFiniteNonNegative (field : String)
  | foreignScheme (field : String) (schemes : List String)
  | queuesNotDistinct
  | noProfiles
  | duplicateProfile (key : String)
  | unknownLogLevel (level : String)
  | notSocketAddress (field : String)
  | other (text : String)
  deriving DecidableEq

/-- The levels of log messages, from the finest on. -/
def logLevels : List String := ["trace", "debug", "info", "warn", "error"]

def SettingFault.message : SettingFault → String
  | empty field => s!"{field} cannot be empty"
  | notPositive field => s!"{field} must be greater than 0"
  | aboveHour field => s!"{field} must be less than or equal to 3600"
  | notFiniteNonNegative field => s!"{field} must be a finite non-negative number"
  | foreignScheme field schemes => s!"{field} must use one of the schemes " ++ Quoted.list schemes
  | queuesNotDistinct => "message_queue heartbeat/work/response queues must be distinct"
  | noProfiles => "lookup.profiles cannot be empty"
  | duplicateProfile key => s!"lookup.profiles contains duplicate key: {key}"
  | unknownLogLevel level => s!"Invalid log level: {level}. Valid options: " ++ Quoted.list logLevels
  | notSocketAddress field => s!"{field} is not a socket address: invalid socket address syntax"
  | other text => text

/-- The errors of settings. -/
inductive ConfigError
  | configuration (text : String)
  | validation (fault : SettingFault)
  | file (text : String)
  /-- Something that is written in a form that cannot be read. -/
  | parse (text : String)
  deriving DecidableEq

/-- The name of the kind of an error. -/
def ConfigError.kindName : ConfigError → String
  | configuration _ => "Configuration"
  | validation _ => "Validation"
  | file _ => "File"
  | parse _ => "Parse"

def ConfigError.message : ConfigError → String
  | configuration text => s!"Configuration error: {text}"
  | validation fault => "Validation error: " ++ fault.message
  | file text => s!"File error: {text}"
  | parse text => s!"Parse error: {text}"

/-- The complaint about a word that names no log format. -/
def unknownLogFormat (text : String) : String := s!"Invalid log format: {text}. Valid formats: json, pretty"

end SpeechDispatch
