import SpeechDispatch.Decimal.Shortest
import SpeechDispatch.Toml.Statement

/-!
# Writing TOML

A text is written in the plainest quotes that need no escapes; a text that cannot do without them is written with
them.  Tables are set off by an empty line.
-/

namespace SpeechDispatch.Toml

/-! ### Texts -/

/-- The longest run of a character. -/
def longestRun (mark : Char) (current longest : Nat) : List Char → Nat
  | [] => longest
  | c :: rest =>
    let current := if c = mark then current + 1 else 0
    longestRun mark current (max longest current) rest

/-- The quotes of a text. -/
inductive Quotes
  | basic
  | literal
  | basicLines
  | literalLines
  deriving DecidableEq

def Quotes.mark : Quotes → List Char
  | basic => ['"']
  | literal => ['\'']
  | basicLines => ['"', '"', '"']
  | literalLines => ['\'', '\'', '\'']

def Quotes.overLines : Quotes → Bool
  | basic | literal => false
  | basicLines | literalLines => true

/-- Whether a character can only be written with an escape. -/
def needsEscape (c : Char) : Bool := (c.toNat < 0x20 && c != '\n' && c != '\t') || c.toNat == 0x7f

/-- The quotes for a text: the first that do without escapes, of those for one line first, and with escapes before
without; and if there are none, quotes with escapes. -/
def quotesFor (text : List Char) : Quotes :=
  let controls := text.any needsEscape
  let backslash := text.contains '\\'
  let newline := text.contains '\n'
  let double := longestRun '"' 0 0 text
  let single := longestRun '\'' 0 0 text
  if !controls && !backslash && double = 0 && !newline then .basic
  else if !controls && single = 0 && !newline then .literal
  else if !controls && !backslash && double ≤ 2 then .basicLines
  else if !controls && single ≤ 2 then .literalLines
  else if newline then .basicLines
  else .basic

/-- A number as so many hexadecimal digits. -/
def hexDigits : Nat → Nat → List Char
  | 0, _ => []
  | places + 1, n => hexDigits places (n / 16) ++ [(Nat.digitChar (n % 16)).toUpper]

/-- A text as it stands between quotes with escapes.  `quotes` quotes in a row may stand as they are, and of these
`run` were just passed. -/
def escapedChars (overLines : Bool) (run : Nat) : List Char → List Char
  | [] => []
  | c :: rest =>
    let spared := if overLines then 2 else 0
    if c = '"' then
      if run < spared then '"' :: escapedChars overLines (run + 1) rest
      else '\\' :: '"' :: escapedChars overLines 0 rest
    else
      let written := match c with
        | '\x08' => ['\\', 'b']
        | '\t' => ['\\', 't']
        | '\x0c' => ['\\', 'f']
        | '\r' => ['\\', 'r']
        | '\\' => ['\\', '\\']
        | '\n' => if overLines then ['\n'] else ['\\', 'n']
        | c => if needsEscape c then '\\' :: 'u' :: hexDigits 4 c.toNat else [c]
      written ++ escapedChars overLines 0 rest

/-- A text with its quotes.  One over several lines starts on a new line. -/
def quotedChars (text : List Char) : List Char :=
  let quotes := quotesFor text
  let start := if quotes.overLines && text.contains '\n' then ['\n'] else []
  let inside := match quotes with
    | .basic | .basicLines => escapedChars quotes.overLines 0 text
    | .literal | .literalLines => text
  quotes.mark ++ start ++ inside ++ quotes.mark

def quoted (text : String) : String := String.ofList (quotedChars text.toList)

/-! ### Values and statements -/

/-- A double always has a point. -/
def floatForm : Decimal.FloatForm := ⟨".0", "nan"⟩

def writeScalar : Document → String
  | .bool b => toString b
  | .integer n => toString n
  | .float x => floatForm.write x
  | .text text => quoted text
  | .date text => text
  | _ => ""

mutual

/-- A value on one line. -/
def Value.write : Value → String
  | .scalar document => writeScalar document
  | .array items => "[" ++ ", ".intercalate (writeItems items) ++ "]"
  | .inlineTable members => "\x7b " ++ ", ".intercalate (writeMembers members) ++ " \x7d"

def writeItems : List Value → List String
  | [] => []
  | item :: rest => item.write :: writeItems rest

def writeMembers : List (List String × Value) → List String
  | [] => []
  | (path, value) :: rest => (".".intercalate path ++ " = " ++ value.write) :: writeMembers rest

end

/-- A statement as a line; the keys are bare. -/
def Statement.write : Statement → String
  | .assign path value => ".".intercalate path ++ " = " ++ value.write ++ "\n"
  | .openTable path => "[" ++ ".".intercalate path ++ "]\n"
  | .openItem path => "[[" ++ ".".intercalate path ++ "]]\n"

/-- Whether an empty line stands before a statement. -/
def Statement.isSetOff : Statement → Bool
  | .assign _ _ => false
  | .openTable _ | .openItem _ => true

/-- The text of statements. -/
def write : List Statement → String
  | [] => ""
  | statement :: rest =>
    statement.write ++ String.join (rest.map fun s => (if s.isSetOff then "\n" else "") ++ s.write)

end SpeechDispatch.Toml
