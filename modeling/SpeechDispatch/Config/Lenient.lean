import SpeechDispatch.Config.Reading
import SpeechDispatch.Decimal.Read
import SpeechDispatch.Decimal.Shortest
import SpeechDispatch.Net.Address

/-!
# Lenient reading

The rules for documents that are laid together from several sources: a value of one type counts as one of another
where it can be taken so.  Words such as `on` and `no` are truth values and numbers, numbers and truth values are
texts, and a number too large for its setting loses its upper digits.
-/

namespace SpeechDispatch

/-- A whole number with an optional sign. -/
def wholeNumber? (text : String) : Option Int :=
  let digits? (rest : List Char) : Option Nat := Net.digits? Net.decimalValue? 10 rest
  match text.toList with
  | '-' :: rest => (digits? rest).map fun n => -(n : Int)
  | '+' :: rest => (digits? rest).map Int.ofNat
  | rest => (digits? rest).map Int.ofNat

/-- A whole number of 64 bits. -/
def integerOfText? (text : String) : Option Int := (wholeNumber? text).filter isInt64

/-- A whole number of 64 bits without sign, before which no minus stands. -/
def naturalOfText? (text : String) : Option Nat :=
  if text.startsWith "-" then none else ((wholeNumber? text).filter fun n : Int => n < (size64 : Int)).map Int.toNat

/-- A double; infinite ones and those that are no numbers have names. -/
def floatOfText? (text : String) : Option Float :=
  let (negative, rest) := match text.toList with
    | '-' :: rest => (true, rest)
    | '+' :: rest => (false, rest)
    | rest => (false, rest)
  let name := (String.ofList rest).toLower
  let size :=
    if name = "inf" ∨ name = "infinity" then some (Float.ofBits 0x7ff0000000000000)
    else if name = "nan" then some (Float.ofBits 0x7ff8000000000000)
    else Decimal.unsigned? rest
  size.map fun x => if negative then -x else x

/-- The truth value that a word stands for. -/
def truthOfWord? (text : String) : Option Bool :=
  let word := text.toLower
  if word = "true" ∨ word = "on" ∨ word = "yes" then some true
  else if word = "false" ∨ word = "off" ∨ word = "no" then some false
  else none

namespace ReadingRules

def lenientInteger : Document → Option Int
  | .integer n => some n
  | .text s => ((truthOfWord? s).map fun b => if b then 1 else 0).or (integerOfText? s)
  | .bool b => some (if b then 1 else 0)
  | .float x => some x.round.toInt64.toInt
  | _ => none

/-- A number that is not negative; only its rest at the size of the setting is kept. -/
def lenientNatural (limit : Nat) (document : Document) : Option Nat :=
  let value : Option Nat := match document with
    | .integer n => if 0 ≤ n then some n.toNat else none
    | .text s => ((truthOfWord? s).map fun b => if b then 1 else 0).or (naturalOfText? s)
    | .bool b => some (if b then 1 else 0)
    | .float x => some x.round.toUInt64.toNat
    | _ => none
  value.map (· % (limit + 1))

def lenientFloat : Document → Option Float
  | .float x => some x
  | .integer n => some (Float.ofInt n)
  | .text s => ((truthOfWord? s).map fun b => if b then 1 else 0).or (floatOfText? s)
  | .bool b => some (if b then 1 else 0)
  | _ => none

def lenientBool : Document → Option Bool
  | .bool b => some b
  | .integer n => some (n ≠ 0)
  | .float x => some (x != 0)
  | .text s => if s = "1" then some true else if s = "0" then some false else truthOfWord? s
  | _ => none

def lenientText : Document → Option String
  | .text s => some s
  | .date s => some s
  | .bool b => some (toString b)
  | .integer n => some (toString n)
  | .float x => some (Decimal.plain.write x)
  | _ => none

def lenient : ReadingRules :=
  { integer := lenientInteger, natural := lenientNatural, float := lenientFloat, bool := lenientBool, text := lenientText
    choice := fun
      | .text s => some s
      | .table [(name, _)] => some name
      | _ => none
    spareItems := true }

end ReadingRules

end SpeechDispatch
