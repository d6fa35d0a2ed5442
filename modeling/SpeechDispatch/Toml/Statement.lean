import SpeechDispatch.Toml.Scalar
import SpeechDispatch.Toml.Token

/-!
# The statements of TOML

A text is a list of statements, one a line: a table is opened, an item of a list of tables is opened, or a value is
assigned to a key in the table that is open.
-/

namespace SpeechDispatch.Toml

inductive Value
  | scalar (value : Document)
  | array (items : List Value)
  /-- A table in braces, with a path of keys for each value. -/
  | inlineTable (members : List (List String × Value))
  deriving Inhabited

inductive Statement
  | assign (path : List String) (value : Value)
  | openTable (path : List String)
  | openItem (path : List String)
  deriving Inhabited

/-! ### Keys -/

def isBareKeyChar (c : Char) : Bool := c.isAlphanum || c == '_' || c == '-'

/-- The key that a token is. -/
def keyOf? : Token → Option String
  | .word chars => if chars.all isBareKeyChar then some (String.ofList chars) else none
  | .text chars false => some (String.ofList chars)
  | _ => none

/-- The keys of a path, which dots separate. -/
def keysOf? : List Token → Option (List String)
  | [key] => (keyOf? key).map ([·])
  | key :: .dot :: rest => (keyOf? key).bind fun key => (keysOf? rest).map (key :: ·)
  | _ => none

/-- Whether a token may be part of a path. -/
def isPathToken : Token → Bool
  | .word _ | .text _ _ | .dot | .blank => true
  | _ => false

/-- Cuts a path off. -/
def splitPath (input : List Token) : Option (List String × List Token) :=
  (keysOf? ((input.takeWhile isPathToken).filter (· ≠ .blank))).map (·, input.dropWhile isPathToken)

/-! ### Values -/

def skipBlanks (input : List Token) : List Token := input.dropWhile (· = .blank)

def skipLines (input : List Token) : List Token := input.dropWhile fun token => token = .blank || token = .lineEnd

/-- Whether a token may be part of a value without quotes. -/
def isRunToken : Token → Bool
  | .word _ | .dot => true
  | _ => false

/-- The characters of a run of words and dots. -/
def runChars (run : List Token) : List Char :=
  run.flatMap fun
    | .word chars => chars
    | .dot => ['.']
    | _ => []

/-- Cuts a value without quotes off.  A blank may stand between a date and a time. -/
def splitRun (input : List Token) : Option (Value × List Token) :=
  let run := runChars (input.takeWhile isRunToken)
  let rest := input.dropWhile isRunToken
  match rest with
  | .blank :: .word (c :: time) :: rest' =>
    if (afterDate? run) = some [] ∧ c.isDigit then
      let time := c :: time ++ runChars (rest'.takeWhile isRunToken)
      (scalarValue? (run ++ ' ' :: time)).map fun value => (.scalar value, rest'.dropWhile isRunToken)
    else (scalarValue? run).map fun value => (.scalar value, rest)
  | _ => (scalarValue? run).map fun value => (.scalar value, rest)

mutual

/-- Cuts a value off.  `depth` is at least the number of tokens. -/
def splitValue (depth : Nat) (input : List Token) : Option (Value × List Token) :=
  match depth, input with
  | 0, _ => none
  | _, .text chars _ :: rest => some (.scalar (.text (String.ofList chars)), rest)
  | depth + 1, .opening .square :: rest => (splitItems depth [] (skipLines rest)).map fun (l, rest) => (.array l, rest)
  | depth + 1, .opening .curly :: rest =>
    (splitMembers depth [] (skipLines rest)).map fun (l, rest) => (.inlineTable l, rest)
  | _, input => splitRun input

/-- Cuts the rest of an array off. -/
def splitItems (depth : Nat) (seen : List Value) (input : List Token) : Option (List Value × List Token) :=
  match depth, input with
  | 0, _ => none
  | _, .closing .square :: rest => some (seen.reverse, rest)
  | depth + 1, input =>
    match splitValue depth input with
    | none => none
    | some (value, rest) =>
      match skipLines rest with
      | .comma :: rest => splitItems depth (value :: seen) (skipLines rest)
      | .closing .square :: rest => some ((value :: seen).reverse, rest)
      | _ => none

/-- Cuts the rest of a table in braces off. -/
def splitMembers (depth : Nat) (seen : List (List String × Value)) (input : List Token) :
    Option (List (List String × Value) × List Token) :=
  match depth, input with
  | 0, _ => none
  | _, .closing .curly :: rest => some (seen.reverse, rest)
  | depth + 1, input =>
    match splitPath input with
    | some (path, .equals :: rest) =>
      match splitValue depth (skipBlanks rest) with
      | none => none
      | some (value, rest) =>
        match skipLines rest with
        | .comma :: rest => splitMembers depth ((path, value) :: seen) (skipLines rest)
        | .closing .curly :: rest => some (((path, value) :: seen).reverse, rest)
        | _ => none
    | _ => none

end

/-! ### Lines -/

/-- Cuts a statement off, which starts with no blank. -/
def splitStatement (input : List Token) : Option (Statement × List Token) :=
  match input with
  | .opening .square :: .opening .square :: rest =>
    match splitPath rest with
    | some (path, .closing .square :: .closing .square :: rest) => some (.openItem path, rest)
    | _ => none
  | .opening .square :: rest =>
    match splitPath rest with
    | some (path, .closing .square :: rest) => some (.openTable path, rest)
    | _ => none
  | input =>
    match splitPath input with
    | some (path, .equals :: rest) =>
      (splitValue (rest.length + 1) (skipBlanks rest)).map fun (value, rest) => (.assign path value, rest)
    | _ => none

/-- The statements of a run of tokens, after those seen, which are listed last first.  `depth` is at least the number
of tokens. -/
def statementsAfter (seen : List Statement) (depth : Nat) (input : List Token) : Option (List Statement) :=
  match depth, skipLines input with
  | _, [] => some seen.reverse
  | 0, _ => none
  | depth + 1, input =>
    match splitStatement input with
    | none => none
    | some (statement, rest) =>
      match skipBlanks rest with
      | [] => some (statement :: seen).reverse
      | .lineEnd :: rest => statementsAfter (statement :: seen) depth rest
      | _ => none

/-- The statements of a text. -/
def statements? (text : String) : Option (List Statement) :=
  (tokens? text).bind fun tokens => statementsAfter [] tokens.length tokens

end SpeechDispatch.Toml
