import SpeechDispatch.Json.Text
import SpeechDispatch.WordSize

/-!
# Records in JSON

A record is an object whose members are known by name, or an array of the same values in a fixed order.  Members of
other names are skipped: only their form counts, and they may be nested to any depth, for the brackets that are open
are kept in a list (`advance`).  Every field stands exactly once (`record?`), under one of its names.
-/

namespace SpeechDispatch.Json

/-- What may come next within a value. -/
inductive Phase
  | value
  | elementOrEnd
  | key
  | keyOrEnd
  | colon
  | commaOrEnd
  deriving DecidableEq

/-- What is open and may come after one more lexeme; a whole value ends with nothing open and `commaOrEnd`. -/
def advance (stack : List Bracket) (phase : Phase) (lexeme : Lexeme) : Option (List Bracket × Phase) :=
  match phase, lexeme, stack with
  | .elementOrEnd, .closing .array, _ :: stack => some (stack, .commaOrEnd)
  | .value, .opening .array, stack | .elementOrEnd, .opening .array, stack => some (.array :: stack, .elementOrEnd)
  | .value, .opening .object, stack | .elementOrEnd, .opening .object, stack => some (.object :: stack, .keyOrEnd)
  | .value, .text _, stack | .elementOrEnd, .text _, stack => some (stack, .commaOrEnd)
  | .value, .number _, stack | .elementOrEnd, .number _, stack => some (stack, .commaOrEnd)
  | .value, .word _, stack | .elementOrEnd, .word _, stack => some (stack, .commaOrEnd)
  | .keyOrEnd, .closing .object, _ :: stack => some (stack, .commaOrEnd)
  | .key, .text _, stack | .keyOrEnd, .text _, stack => some (stack, .colon)
  | .colon, .colon, stack => some (stack, .value)
  | .commaOrEnd, .comma, .array :: stack => some (.array :: stack, .value)
  | .commaOrEnd, .comma, .object :: stack => some (.object :: stack, .key)
  | .commaOrEnd, .closing .array, .array :: stack => some (stack, .commaOrEnd)
  | .commaOrEnd, .closing .object, .object :: stack => some (stack, .commaOrEnd)
  | _, _, _ => none

/-- What follows the value that the lexemes go on with. -/
def skipFrom (stack : List Bracket) (phase : Phase) : List Lexeme → Option (List Lexeme)
  | [] => none
  | lexeme :: rest =>
    match advance stack phase lexeme with
    | none => none
    | some ([], .commaOrEnd) => some rest
    | some (stack, phase) => skipFrom stack phase rest

/-- What follows the value at the front. -/
def skip (lexemes : List Lexeme) : Option (List Lexeme) := skipFrom [] .value lexemes

theorem skipFrom_length {stack : List Bracket} {phase : Phase} {input rest : List Lexeme}
    (h : skipFrom stack phase input = some rest) : rest.length < input.length := by
  induction input generalizing stack phase with
  | nil => simp [skipFrom] at h
  | cons a l ih =>
    unfold skipFrom at h
    split at h
    · simp at h
    · simp_all
    · have := ih h
      simp only [List.length_cons]
      omega

/-- An object or an array at its top level: the keys as written, and of each value the first lexeme. -/
inductive Composite
  | object (members : List (Bytes × Lexeme))
  | array (elements : List Lexeme)

/-- The members of an object from a key on, to its closing bracket; `seen` holds those passed, last first. -/
def membersAfter (seen : List (Bytes × Lexeme)) (input : List Lexeme) :
    Option (List (Bytes × Lexeme) × List Lexeme) :=
  match input with
  | .text key :: .colon :: value :: rest =>
    match h : skip (value :: rest) with
    | some (.comma :: rest) =>
      have := skipFrom_length h
      membersAfter ((key, value) :: seen) rest
    | some (.closing .object :: rest) => some (((key, value) :: seen).reverse, rest)
    | _ => none
  | _ => none
termination_by input.length
decreasing_by simp_all only [List.length_cons]; omega

/-- The elements of an array from a value on, to its closing bracket; `seen` holds those passed, last first. -/
def elementsAfter (seen : List Lexeme) (input : List Lexeme) : Option (List Lexeme × List Lexeme) :=
  match input with
  | [] => none
  | value :: rest =>
    match h : skip (value :: rest) with
    | some (.comma :: rest) =>
      have := skipFrom_length h
      elementsAfter (value :: seen) rest
    | some (.closing .array :: rest) => some ((value :: seen).reverse, rest)
    | _ => none
termination_by input.length
decreasing_by simp_all only [List.length_cons]; omega

/-- The object or array that a body consists of. -/
def composite? (body : Bytes) : Option Composite :=
  match lexemes body with
  | some [.opening .object, .closing .object] => some (.object [])
  | some [.opening .array, .closing .array] => some (.array [])
  | some (.opening .object :: rest) =>
    match membersAfter [] rest with
    | some (members, []) => some (.object members)
    | _ => none
  | some (.opening .array :: rest) =>
    match elementsAfter [] rest with
    | some (elements, []) => some (.array elements)
    | _ => none
  | _ => none

/-- The members of an object with their keys read. -/
def readKeys : List (Bytes × Lexeme) → Option (List (String × Lexeme))
  | [] => some []
  | (raw, value) :: rest =>
    match Text.resolve? raw, readKeys rest with
    | some key, some rest => some ((key, value) :: rest)
    | _, _ => none

/-- The value of the only member with one of these keys. -/
def single? (names : List String) (members : List (String × Lexeme)) : Option Lexeme :=
  match members.filter (fun entry => names.contains entry.1) with
  | [entry] => some entry.2
  | _ => none

/-- The first lexemes of the fields of a record, for each field in the order given; a field is given by its names. -/
def record? (fields : List (List String)) (body : Bytes) : Option (List Lexeme) :=
  match composite? body with
  | some (.array elements) => if elements.length = fields.length then some elements else none
  | some (.object members) => (readKeys members).bind fun members => fields.mapM (single? · members)
  | none => none

/-! ### The values of fields -/

/-- The value of a field that is a text. -/
def Lexeme.text? : Lexeme → Option String
  | .text raw => Text.resolve? raw
  | _ => none

/-- The number that digits write. -/
def natOfDigits (digits : Bytes) : Nat := digits.foldl (fun n b => n * 10 + (b.toNat - 0x30)) 0

/-- The value of a field that is a whole number of 64 bits.  It has neither fraction nor exponent, and `-0` is none. -/
def Lexeme.int64? : Lexeme → Option Int
  | .number (0x2d :: digits) =>
    let n := natOfDigits digits
    if digits.all isDigit && 0 < n && n ≤ size63 then some (-(n : Int)) else none
  | .number digits =>
    let n := natOfDigits digits
    if digits.all isDigit && n < size63 then some n else none
  | _ => none

/-- The value of a field that is a whole number of 32 bits without sign. -/
def Lexeme.uint32? : Lexeme → Option Nat
  | .number digits =>
    let n := natOfDigits digits
    if digits.all isDigit && n < size32 then some n else none
  | _ => none

end SpeechDispatch.Json
