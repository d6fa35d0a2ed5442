import SpeechDispatch.Config.Settings
import SpeechDispatch.Config.Error

/-!
# The command line

The arguments of the dispatcher, read from the first to the last: the first mistake counts, and whatever asks for help
or the version ends the reading.
-/

namespace SpeechDispatch

/-- What is given on the command line in place of settings. -/
structure StartOptions where
  configPath : Option String := none
  logLevel : Option String := none
  logFormat : Option String := none
  deriving DecidableEq

/-- What the command line asks for. -/
inductive Invocation
  | start (options : StartOptions)
  /-- A text is to be shown. -/
  | display (text : String)
  | misuse
  deriving DecidableEq

namespace CommandLine

def programName : String := "transcription-dispatcher"

def versionText : String := programName ++ " 1.0.0\n"

/-- An option that takes a value. -/
structure ValueOption where
  short : Option Char
  long : String
  placeholder : String
  help : String
  /-- The values it may have; none stands for any. -/
  choices : List String
  get : StartOptions → Option String
  set : StartOptions → String → StartOptions

def options : List ValueOption := [
  ⟨some 'c', "config", "FILE", "配置文件路径，未指定时依次查找 config/dispatcher.toml、dispatcher.toml", [],
    (·.configPath), fun o value => { o with configPath := some value }⟩,
  ⟨some 'l', "log-level", "LEVEL", "日志级别，覆盖配置文件", logLevels,
    (·.logLevel), fun o value => { o with logLevel := some value }⟩,
  ⟨none, "log-format", "FORMAT", "日志格式，覆盖配置文件", ["json", "pretty"],
    (·.logFormat), fun o value => { o with logFormat := some value }⟩]

/-! ### Help -/

/-- An entry of the help: how an option is written, and what it is for. -/
structure HelpEntry where
  short : Option Char
  long : String
  placeholder : Option String
  help : String
  choices : List String

def HelpEntry.ofOption (o : ValueOption) : HelpEntry := ⟨o.short, o.long, some o.placeholder, o.help, o.choices⟩

/-- How an option is written. -/
def HelpEntry.usage (e : HelpEntry) : String :=
  (match e.short with
    | some c => s!"-{c}, "
    | none => "    ") ++ s!"--{e.long}" ++
  (match e.placeholder with
    | some name => s!" <{name}>"
    | none => "")

/-- The values that may be given, if they are limited. -/
def HelpEntry.choiceNote (e : HelpEntry) : Option String :=
  if e.choices.isEmpty then none else some ("[possible values: " ++ ", ".intercalate e.choices ++ "]")

def spaces (n : Nat) : String := String.ofList (List.replicate n ' ')

/-- The help with one line for each option. -/
def shortHelp : String :=
  let entries := options.map HelpEntry.ofOption ++
    [⟨some 'h', "help", none, "Print help (see more with '--help')", []⟩, ⟨some 'V', "version", none, "Print version", []⟩]
  let width := (entries.map (·.usage.length)).foldl max 0
  "语音转写任务调度服务\n\nUsage: " ++ programName ++ " [OPTIONS]\n\nOptions:\n" ++
    String.join (entries.map fun e =>
      spaces 2 ++ e.usage ++ spaces (width - e.usage.length + 2) ++ e.help ++
        (match e.choiceNote with
          | some note => " " ++ note
          | none => "") ++ "\n")

/-- The help with a paragraph for each option. -/
def longHelp : String :=
  let entries := options.map HelpEntry.ofOption ++
    [⟨some 'h', "help", none, "Print help (see a summary with '-h')", []⟩, ⟨some 'V', "version", none, "Print version", []⟩]
  "接收转写任务与Worker心跳，按模型亲和与等待时长把任务分发给Worker，并将结果转发回调用方\n\nUsage: " ++ programName ++
    " [OPTIONS]\n\nOptions:\n" ++
    "\n".intercalate (entries.map fun e =>
      spaces 2 ++ e.usage ++ "\n" ++ spaces 10 ++ e.help ++
        (match e.choiceNote with
          | some note => "\n" ++ spaces 10 ++ "\n" ++ spaces 10 ++ note
          | none => "") ++ "\n")

/-! ### Reading -/

/-- Gives an option its value, which must be one of its choices, and given once only. -/
def give (o : StartOptions) (option : ValueOption) (value : String) : Option StartOptions :=
  if (option.get o).isSome || !(option.choices.isEmpty || option.choices.contains value) then none
  else some (option.set o value)

/-- Whether an argument can be the value of the option before it. -/
def isValue (argument : String) : Bool := argument = "-" || !argument.startsWith "-"

/-- What an argument that starts with a hyphen says. -/
inductive Said
  /-- An option, and its value if the argument has it too. -/
  | option (option : ValueOption) (value : Option String)
  | shown (text : String)
  | mistake

/-- Reads an argument after its two hyphens. -/
def readLong (argument : List Char) : Said :=
  let name := String.ofList (argument.takeWhile (· ≠ '='))
  let value := match argument.dropWhile (· ≠ '=') with
    | [] => none
    | _ :: value => some (String.ofList value)
  match options.find? (·.long == name) with
  | some option => .option option value
  | none =>
    if value.isSome then .mistake
    else if name = "help" then .shown longHelp
    else if name = "version" then .shown versionText
    else .mistake

/-- Reads an argument after its single hyphen. -/
def readShort : List Char → Said
  | [] => .mistake
  | c :: rest =>
    match options.find? (·.short == some c) with
    | some option =>
      .option option (match rest with
        | [] => none
        | '=' :: value => some (String.ofList value)
        | value => some (String.ofList value))
    | none => if c = 'h' then .shown shortHelp else if c = 'V' then .shown versionText else .mistake

/-- Reads an argument; one without a hyphen is a mistake, for nothing is taken by its place. -/
def read (argument : String) : Said :=
  match argument.toList with
  | '-' :: '-' :: rest => readLong rest
  | '-' :: rest => readShort rest
  | _ => .mistake

/-- Reads the arguments after those that gave the options. -/
def parseFrom (o : StartOptions) : List String → Invocation
  | [] => .start o
  | ["--"] => .start o
  | argument :: rest =>
    match read argument, rest with
    | .shown text, _ => .display text
    | .mistake, _ => .misuse
    | .option option (some value), rest =>
      match give o option value with
      | some o => parseFrom o rest
      | none => .misuse
    | .option _ none, [] => .misuse
    | .option option none, value :: rest =>
      match if isValue value then give o option value else none with
      | some o => parseFrom o rest
      | none => .misuse

/-- What the arguments ask for. -/
def parse (arguments : List String) : Invocation := parseFrom {} arguments

end CommandLine

end SpeechDispatch
