import SpeechDispatch.Config.Lenient

/-!
# Settings in the environment

A variable `SCHEDULER_<SECTION>__<SETTING>`, in capitals or not, gives a setting.  Its text is taken as a truth value, a
whole number or a double where it is written as one.
-/

namespace SpeechDispatch.Environment

/-- What the names of all variables for settings start with. -/
def namePrefix : List Char := "scheduler_".toList

/-- Pairs of underscores as dots. -/
def dotted : List Char → List Char
  | '_' :: '_' :: rest => '.' :: dotted rest
  | c :: rest => c :: dotted rest
  | [] => []

/-- The name of the setting that a variable gives. -/
def settingName? (name : String) : Option String :=
  let small := name.toLower.toList
  if namePrefix.isPrefixOf small then some (String.ofList (dotted (small.drop namePrefix.length))) else none

/-- The value that the text of a variable stands for. -/
def value (text : String) : Document :=
  let word := text.toLower
  if word = "true" then .bool true
  else if word = "false" then .bool false
  else
    match integerOfText? text with
    | some n => .integer n
    | none =>
      match floatOfText? text with
      | some x => .float x
      | none => .text text

/-- The settings that variables give. -/
def source (environment : List (String × String)) : List (String × Document) :=
  environment.filterMap fun (name, text) => (settingName? name).map (·, value text)

end SpeechDispatch.Environment
