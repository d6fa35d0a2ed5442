import SpeechDispatch.Decimal.Read
import SpeechDispatch.Document
import SpeechDispatch.Net.Address

/-!
# Values without quotes in TOML

Truth values, whole numbers, doubles and dates.  A whole number may have any size here that fits in 128 bits; a double
must not be too large, unless it is written as infinite.
-/

namespace SpeechDispatch.Toml

/-- Digits, with single underscores between them, without these. -/
def digitRun? (isDigit : Char → Bool) : List Char → Option (List Char)
  | [] => none
  | [c] => if isDigit c then some [c] else none
  | c :: '_' :: rest => if isDigit c then (digitRun? isDigit rest).map (c :: ·) else none
  | c :: rest => if isDigit c then (digitRun? isDigit rest).map (c :: ·) else none

/-- Decimal digits of a whole number, which has no zero before other digits. -/
def wholeDigits? (input : List Char) : Option (List Char) :=
  match digitRun? Char.isDigit input with
  | some ('0' :: _ :: _) => none
  | digits => digits

/-- Cuts a sign off. -/
def splitSign : List Char → Bool × List Char
  | '-' :: rest => (true, rest)
  | '+' :: rest => (false, rest)
  | rest => (false, rest)

/-- The whole number that a text writes, in base ten or with a mark of another base. -/
def integer? (input : List Char) : Option Int :=
  let based (base : Nat) (isDigit : Char → Bool) (rest : List Char) : Option Int :=
    (digitRun? isDigit rest).bind fun digits => (Net.digits? Net.hexValue? base digits).map Int.ofNat
  match input with
  | '0' :: 'x' :: rest => based 16 (fun c => (Net.hexValue? c).isSome) rest
  | '0' :: 'o' :: rest => based 8 (fun c => '0' ≤ c && c ≤ '7') rest
  | '0' :: 'b' :: rest => based 2 (fun c => c == '0' || c == '1') rest
  | _ =>
    let (negative, rest) := splitSign input
    (wholeDigits? rest).map fun digits =>
      if negative then -(Decimal.natOfDigits digits : Int) else Decimal.natOfDigits digits

/-- The double that a text writes, with a fraction or an exponent or both. -/
def float? (input : List Char) : Option Float :=
  let (negative, rest) := splitSign input
  let size : Option Float :=
    if rest = "inf".toList then some (Float.ofBits 0x7ff0000000000000)
    else if rest = "nan".toList then some (Float.ofBits 0x7ff8000000000000)
    else do
      let isMark (c : Char) : Bool := c == 'e' || c == 'E'
      let mantissa := rest.takeWhile (!isMark ·)
      let whole ← wholeDigits? (mantissa.takeWhile (· ≠ '.'))
      let fraction ← match mantissa.dropWhile (· ≠ '.') with
        | [] => some []
        | _ :: fraction => digitRun? Char.isDigit fraction
      let exponent ← match rest.dropWhile (!isMark ·) with
        | [] => some 0
        | _ :: exponent =>
          let (below, digits) := splitSign exponent
          (digitRun? Char.isDigit digits).map fun digits =>
            if below then -(Decimal.natOfDigits digits : Int) else Decimal.natOfDigits digits
      let value := Decimal.nearest (Decimal.natOfDigits (whole ++ fraction)) (exponent - fraction.length)
      if value.isInf then none else some value
  size.map fun x => if negative then -x else x

/-! ### Dates -/

/-- The number of so many digits at the front, and what follows. -/
def splitNumber (places : Nat) (input : List Char) : Option (Nat × List Char) :=
  let digits := input.take places
  if digits.length = places ∧ digits.all Char.isDigit then some (Decimal.natOfDigits digits, input.drop places) else none

def isLeapYear (year : Nat) : Bool := year % 4 = 0 && (year % 100 ≠ 0 || year % 400 = 0)

def daysInMonth (year month : Nat) : Nat :=
  if month = 2 then (if isLeapYear year then 29 else 28)
  else if month = 4 ∨ month = 6 ∨ month = 9 ∨ month = 11 then 30 else 31

/-- Checks a date at the front, and gives what follows it. -/
def afterDate? (input : List Char) : Option (List Char) :=
  match splitNumber 4 input with
  | some (year, '-' :: rest) =>
    match splitNumber 2 rest with
    | some (month, '-' :: rest) =>
      match splitNumber 2 rest with
      | some (day, rest) =>
        if 1 ≤ month ∧ month ≤ 12 ∧ 1 ≤ day ∧ day ≤ daysInMonth year month then some rest else none
      | none => none
    | _ => none
  | _ => none

/-- The digits of a fraction of a second as they are kept: nine at most, and no zero at the end. -/
def keptFraction (digits : List Char) : List Char := ((digits.take 9).reverse.dropWhile (· == '0')).reverse

/-- Checks a time of the day at the front, and gives it as it is kept, and what follows it. -/
def splitTime? (input : List Char) : Option (List Char × List Char) := do
  let (hour, rest) ← splitNumber 2 input
  let rest ← match rest with
    | ':' :: rest => some rest
    | _ => none
  let (minute, afterMinute) ← splitNumber 2 rest
  if 23 < hour ∨ 59 < minute then none
  match afterMinute with
  | ':' :: rest =>
    let (second, rest) ← splitNumber 2 rest
    if 60 < second then none
    match rest with
    | '.' :: rest =>
      let digits := rest.takeWhile Char.isDigit
      if digits.isEmpty then none
      let kept := keptFraction digits
      return (input.take 8 ++ (if kept.isEmpty then [] else '.' :: kept), rest.dropWhile Char.isDigit)
    | rest => return (input.take 8, rest)
  | rest => return (input.take 5, rest)

/-- The distance to the common time of the world, as it is kept; nothing is none. -/
def offset? : List Char → Option (List Char)
  | [] => some []
  | ['Z'] => some ['Z']
  | ['z'] => some ['Z']
  | sign :: rest =>
    if sign = '+' ∨ sign = '-' then
      match splitNumber 2 rest with
      | some (hour, ':' :: rest') =>
        match splitNumber 2 rest' with
        | some (minute, []) => if hour ≤ 23 ∧ minute ≤ 59 then some (sign :: rest) else none
        | _ => none
      | _ => none
    else none

/-- A date, a time, or both with or without an offset, as they are kept. -/
def date? (input : List Char) : Option String :=
  match afterDate? input with
  | some [] => some (String.ofList input)
  | some (mark :: rest) =>
    if mark = 'T' ∨ mark = 't' ∨ mark = ' ' then do
      let (time, rest) ← splitTime? rest
      let offset ← offset? rest
      return String.ofList (input.take 10 ++ 'T' :: time ++ offset)
    else none
  | none =>
    match splitTime? input with
    | some (time, []) => some (String.ofList time)
    | _ => none

/-- Whether whole numbers of so many are known at all. -/
def isWide (n : Int) : Bool := -0x80000000000000000000000000000000 ≤ n && n < 0x100000000000000000000000000000000

/-- The value that a run of characters writes. -/
def scalarValue? (input : List Char) : Option Document :=
  if input = "true".toList then some (.bool true)
  else if input = "false".toList then some (.bool false)
  else
    match integer? input with
    | some n => if isWide n then some (.integer n) else none
    | none => ((float? input).map Document.float).or ((date? input).map Document.date)

end SpeechDispatch.Toml
