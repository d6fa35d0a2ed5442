import SpeechDispatch.Program

/-!
# The program

The outer layer of a run: arguments, files and variables come from the system, and what the run yields goes to it.
Without a broker to talk to, the run goes on until its standard input ends.
-/

namespace SpeechDispatch.Main

/-- What there is at a path. -/
def readEntry? (path : String) : IO (Option FileEntry) := do
  try
    return some (.text (← IO.FS.readFile path))
  catch
    | .noFileOrDirectory .. => return none
    | _ => return some .unreadable

/-- What there is at those paths where there is anything. -/
def readEntries (paths : List String) : IO (List (String × FileEntry)) := do
  let entries ← paths.mapM fun path => return (← readEntry? path).map fun entry => (path, entry)
  return entries.filterMap id

/-- The variables of the environment. -/
def readVariables : IO (List (String × String)) := do
  let listed := match ← readEntry? "/proc/self/environ" with
    | some (.text listed) => listed
    | _ => ""
  return (listed.splitOn "\x00").filterMap fun line =>
    match line.splitOn "=" with
    | name :: value :: more => some (name, "=".intercalate (value :: more))
    | _ => none

/-- Waits until the standard input ends. -/
partial def awaitEnd (input : IO.FS.Stream) : IO Unit := do
  if (← input.getLine).isEmpty then return
  awaitEnd input

def log (event : RunEvent) : IO Unit := IO.println (RunEvent.level ++ " " ++ event.message)

/-- Starts the dispatcher and runs it to its end. -/
def runProgram (options : StartOptions) : IO UInt32 := do
  let paths := match options.configPath with
    | some path => [path]
    | none => usualFiles
  let entries ← readEntries paths
  let launch : Launch := { files := fun path => entries.lookup path, environment := ← readVariables }
  let outcome := run launch options
  let isStop : RunEvent → Bool := fun
    | .stopSignal _ => true
    | _ => false
  (outcome.events.takeWhile fun event => !isStop event).forM log
  match outcome.failure with
  | [] => awaitEnd (← IO.getStdin)
  | message :: causes =>
    IO.eprintln ("Error: " ++ message)
    unless causes.isEmpty do
      IO.eprintln "\nCaused by:"
      causes.forM fun cause => IO.eprintln ("    " ++ cause)
  (outcome.events.dropWhile fun event => !isStop event).forM log
  return outcome.code.toUInt32

end SpeechDispatch.Main

open SpeechDispatch in
/-- Runs the program with the arguments of its command line. -/
def main (arguments : List String) : IO UInt32 := do
  match CommandLine.parse arguments with
  | .start options => Main.runProgram options
  | .display text =>
    IO.print text
    return 0
  | .misuse =>
    IO.eprint CommandLine.shortHelp
    return misuseCode.toUInt32
