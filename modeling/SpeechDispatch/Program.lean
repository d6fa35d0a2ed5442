import SpeechDispatch.CommandLine
import SpeechDispatch.Config.Loading
import SpeechDispatch.LogFilter
import SpeechDispatch.Startup

/-!
# A run of the program

From the command line to the end: settings are loaded, the log is set up, the dispatcher is started, and runs until it
is told to stop.  A run yields what it logged about itself, and the messages of the failure it ended with, if any.
-/

namespace SpeechDispatch

/-- What tells a run to stop. -/
inductive StopSignal
  | interrupt
  | terminate
  deriving DecidableEq

/-- What a run logs about itself. -/
inductive RunEvent
  | starting
  | configFile (path : String)
  | stopSignal (signal : StopSignal)
  | closing
  | closed
  | ended
  deriving DecidableEq

/-- The name under which the dispatcher appears in the log. -/
def serviceName : String := "Dispatcher"

def RunEvent.message : RunEvent → String
  | starting => s!"启动 {serviceName} 服务"
  | configFile path => s!"配置文件: {path}"
  | stopSignal .interrupt => "收到Ctrl+C信号"
  | stopSignal .terminate => "收到SIGTERM信号"
  | closing => "收到关闭信号，开始优雅关闭..."
  | closed => s!"{serviceName} 服务已优雅关闭"
  | ended => s!"{serviceName} 服务已退出"

/-- The level of all these events. -/
def RunEvent.level : String := "INFO"

def RunEvent.rank : LogRank := 3

/-- The part of the program that logs them, as filters name it. -/
def RunEvent.target : String := "transcription_dispatcher::common"

/-- What a run comes to. -/
structure RunOutcome where
  /-- What was logged, in order. -/
  events : List RunEvent := []
  /-- The messages of the failure that ended the run, the outermost first. -/
  failure : List String := []
  deriving DecidableEq

/-- What a run finds where it is started. -/
structure Launch where
  files : String → Option FileEntry
  environment : List (String × String)
  surroundings : Surroundings := .isolated
  signal : StopSignal := .terminate

/-- The variable that can hold a log filter. -/
def filterVariable : String := "RUST_LOG"

/-- The filter of the log: the one in the environment if it can be read, and else the level. -/
def chooseFilter (environment : List (String × String)) (level : String) : LogFilter :=
  ((environment.lookup filterVariable).bind LogFilter.ofText?).getD ((LogFilter.ofText? level).getD [])

/-- Runs the program. -/
def run (launch : Launch) (options : StartOptions) : RunOutcome :=
  match Settings.load launch.files launch.environment options.configPath with
  | .error fault => { failure := [loadContext options.configPath, fault.message] }
  | .ok settings =>
    let level := options.logLevel.getD settings.observability.logLevel
    match checkLogFormat (options.logFormat.getD settings.observability.logFormat.word) with
    | .error fault => { failure := fault.messages }
    | .ok () =>
      let filter := chooseFilter launch.environment level
      let logged (events : List RunEvent) : List RunEvent :=
        if filter.allows RunEvent.target RunEvent.rank then events else []
      let first := .starting :: (options.configPath.map RunEvent.configFile).toList
      match (launch.surroundings.start settings).2 with
      | .error fault => { events := logged first, failure := fault.messages }
      | .ok () => { events := logged (first ++ [.stopSignal launch.signal, .closing, .closed, .ended]) }

/-- The code that a run ends with. -/
def RunOutcome.code (outcome : RunOutcome) : Nat := if outcome.failure.isEmpty then 0 else 1

/-- The code for a command line that cannot be read. -/
def misuseCode : Nat := 2

end SpeechDispatch
