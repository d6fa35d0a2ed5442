import SpeechDispatch.Json.Record

/-!
# Doubles in JSON

A number is taken as a double in two roundings: its digits as a whole number, as far as they fit in 64 bits, are
rounded to a double, and that is multiplied or divided by the power of ten.  So the last bit may differ from the
nearest double.  A number above the doubles is refused.
-/

namespace SpeechDispatch.Json

/-- The digits read so far as a whole number, and the power of ten it has to be multiplied with. -/
structure Decimal where
  significand : Nat
  exponent : Int

/-- Reads digits into a whole number of 64 bits.  What no longer fits is left. -/
def takeDigits (significand : Nat) : Bytes → Nat × Bytes
  | [] => (significand, [])
  | b :: rest =>
    let next := significand * 10 + (b.toNat - 0x30)
    if next < size64 then takeDigits next rest else (significand, b :: rest)

/-- The digits of a number without sign and exponent; digits that do not fit count for the power of ten only. -/
def decimalOf (whole fraction : Bytes) : Decimal :=
  let (significand, left) := takeDigits 0 whole
  let (significand', left') := takeDigits significand fraction
  ⟨significand', (left.length : Int) - ((fraction.length : Int) - (left'.length : Int))⟩

/-- Ten to a power, as a double. -/
def powerOfTen (n : Nat) : Float := Float.ofScientific (Nat.pow 10 n) false 0

/-- A double divided by powers of ten, none above the 308th at a time. -/
def dividedByTens (x : Float) (n : Nat) : Float :=
  if n ≤ 308 then x / powerOfTen n
  else if x == 0 then x
  else dividedByTens (x / powerOfTen 308) (n - 308)
termination_by n

/-- The double of a decimal number, if it is not above the doubles. -/
def Decimal.toFloat? (d : Decimal) : Option Float :=
  let x := Float.ofNat d.significand
  if d.exponent < 0 then some (dividedByTens x d.exponent.natAbs)
  else if d.exponent ≤ 308 then
    let y := x * powerOfTen d.exponent.toNat
    if y.isInf then none else some y
  else if x == 0 then some x
  else none

/-- The largest exponent that is read as written. -/
def maxExponent : Nat := 0x7fffffff

/-- The double that an unsigned number writes, given its whole part, its fraction and its exponent. -/
def floatOf? (whole fraction exponent : Bytes) : Option Float :=
  let d := decimalOf whole fraction
  match exponent with
  | [] => d.toFloat?
  | _ :: sign :: digits =>
    let negative := sign == 0x2d
    let n := natOfDigits (if isDigit sign then sign :: digits else digits)
    if maxExponent < n then (if d.significand == 0 || negative then some 0 else none)
    else Decimal.toFloat? ⟨d.significand, if negative then d.exponent - n else d.exponent + n⟩
  | _ => none

/-- The value of a field that is a number. -/
def Lexeme.float? : Lexeme → Option Float
  | .number raw =>
    let (negative, raw) := match raw with
      | 0x2d :: raw => (true, raw)
      | raw => (false, raw)
    let whole := raw.takeWhile isDigit
    let rest := raw.dropWhile isDigit
    let (fraction, rest) := match rest with
      | 0x2e :: rest => (rest.takeWhile isDigit, rest.dropWhile isDigit)
      | rest => ([], rest)
    (floatOf? whole fraction rest).map fun x => if negative then -x else x
  | _ => none

end SpeechDispatch.Json
