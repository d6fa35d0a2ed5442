import SpeechDispatch.Decimal.Read
import SpeechDispatch.Document
import SpeechDispatch.Json.Record

/-!
# Documents in JSON

A whole JSON text as a document.  Whole numbers of 64 bits are integers, with or without sign; every other number is
the nearest double.  Of members of one name the last counts.
-/

namespace SpeechDispatch.Json

/-- The characters of an ASCII text. -/
def asciiChars (raw : Bytes) : List Char := raw.map fun b => Char.ofNat b.toNat

/-- The value of a number. -/
def numberValue (raw : Bytes) : Option Document :=
  let (negative, digits) := match raw with
    | 0x2d :: digits => (true, digits)
    | digits => (false, digits)
  let n := natOfDigits digits
  if digits.all isDigit && !negative && n < size64 then some (.integer n)
  else if digits.all isDigit && negative && 0 < n && n ≤ size63 then some (.integer (-(n : Int)))
  else (Decimal.float? (asciiChars raw)).map .float

mutual

/-- The value at the front, and what follows it. -/
def treeFrom (depth : Nat) : List Lexeme → Option (Document × List Lexeme)
  | [] => none
  | lexeme :: rest =>
    match depth, lexeme with
    | 0, _ => none
    | _, .text raw => (Text.resolve? raw).map fun text => (.text text, rest)
    | _, .number raw => (numberValue raw).map fun value => (value, rest)
    | _, .word (0x74 :: _) => some (.bool true, rest)
    | _, .word (0x66 :: _) => some (.bool false, rest)
    | _, .word _ => some (.null, rest)
    | depth + 1, .opening .array =>
      match rest with
      | .closing .array :: rest => some (.list [], rest)
      | rest => (itemsFrom depth [] rest).map fun (items, rest) => (.list items, rest)
    | depth + 1, .opening .object =>
      match rest with
      | .closing .object :: rest => some (.table [], rest)
      | rest => (namedFrom depth [] rest).map fun (members, rest) => (.table members, rest)
    | _, _ => none

/-- The items of an array from a value on. -/
def itemsFrom (depth : Nat) (seen : List Document) (input : List Lexeme) : Option (List Document × List Lexeme) :=
  match depth with
  | 0 => none
  | depth + 1 =>
    match treeFrom depth input with
    | some (value, .comma :: rest) => itemsFrom depth (value :: seen) rest
    | some (value, .closing .array :: rest) => some ((value :: seen).reverse, rest)
    | _ => none

/-- The members of an object from a name on. -/
def namedFrom (depth : Nat) (seen : List (String × Document)) (input : List Lexeme) :
    Option (List (String × Document) × List Lexeme) :=
  match depth, input with
  | depth + 1, .text raw :: .colon :: rest =>
    match Text.resolve? raw, treeFrom depth rest with
    | some name, some (value, .comma :: rest) => namedFrom depth (Document.setMember name value seen) rest
    | some name, some (value, .closing .object :: rest) => some (Document.setMember name value seen, rest)
    | _, _ => none
  | _, _ => none

end

/-- The document that a JSON text writes. -/
def tree? (body : Bytes) : Option Document :=
  match lexemes body with
  | none => none
  | some all =>
    match treeFrom (2 * all.length + 1) all with
    | some (value, []) => some value
    | _ => none

end SpeechDispatch.Json
