import SpeechDispatch.Config.Environment
import SpeechDispatch.Config.Source
import SpeechDispatch.Config.Text

/-!
# Loading settings

Settings come from the defaults, a file laid over them, and the environment laid over both.  A file that is named has
to exist; otherwise the first file found at one of the usual places counts, if there is any.
-/

namespace SpeechDispatch

/-- Why settings could not be loaded. -/
inductive LoadFault
  | missingFile (path : String)
  /-- The file cannot be read, or is not TOML. -/
  | malformed
  /-- A value cannot be taken for its setting. -/
  | mistyped
  | invalid (error : ConfigError)
  deriving DecidableEq

def LoadFault.message : LoadFault → String
  | missingFile path => s!"配置文件不存在: {path}"
  | malformed => "构建配置失败"
  | mistyped => "反序列化配置失败"
  | invalid error => error.message

/-- What the loading was about, for the message above a fault. -/
def loadContext (path : Option String) : String := s!"加载配置文件失败: " ++ path.getD "<默认路径>"

/-- The places where a file is looked for, the first one first. -/
def usualFiles : List String := ["config/dispatcher.toml", "dispatcher.toml", "/etc/transcription/dispatcher.toml"]

/-- What there is at a path. -/
inductive FileEntry
  | text (content : String)
  /-- Something that has no text, such as a folder. -/
  | unreadable
  deriving DecidableEq

/-- What there is at the place that counts, if there is one. -/
def chosenFile (files : String → Option FileEntry) : Option String → Except LoadFault (Option FileEntry)
  | some path =>
    match files path with
    | some entry => .ok (some entry)
    | none => .error (.missingFile path)
  | none => .ok (usualFiles.findSome? files)

mutual

/-- Whether all whole numbers of a document have 64 bits at most, as those of a file must. -/
def Document.isNarrow : Document → Bool
  | .integer n => isInt64 n
  | .list items => areNarrow items
  | .table members => areNarrowMembers members
  | _ => true

def Document.areNarrow : List Document → Bool
  | [] => true
  | item :: rest => item.isNarrow && areNarrow rest

def Document.areNarrowMembers : List (String × Document) → Bool
  | [] => true
  | (_, value) :: rest => value.isNarrow && areNarrowMembers rest

end

/-- The values that a file gives. -/
def fileSource : Option FileEntry → Except LoadFault (List (String × Document))
  | none => .ok []
  | some .unreadable => .error .malformed
  | some (.text text) =>
    match (Toml.document? text).filter (·.isNarrow) with
    | some document => .ok document.members
    | none => .error .malformed

/-- Loads the settings. -/
def Settings.load (files : String → Option FileEntry) (environment : List (String × String))
    (path : Option String) : Except LoadFault Settings := do
  let source ← fileSource (← chosenFile files path)
  let document := (({} : Settings).toDocument.layOver source).layOver (Environment.source environment)
  match ReadingRules.lenient.settings? document with
  | none => .error .mistyped
  | some settings =>
    match settings.validate with
    | .error error => .error (.invalid error)
    | .ok () => .ok settings

end SpeechDispatch
