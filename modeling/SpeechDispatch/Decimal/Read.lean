/-!
# Decimal numerals

The double nearest to a decimal numeral.
-/

namespace SpeechDispatch.Decimal

/-- The number that digits write. -/
def natOfDigits (digits : List Char) : Nat := digits.foldl (fun n c => n * 10 + (c.toNat - 0x30)) 0

/-- The double nearest to `significand * 10 ^ exponent`; the largest of a tie is the even one. -/
def nearest (significand : Nat) (exponent : Int) : Float :=
  let magnitude := (Nat.toDigits 10 significand).length + exponent
  if significand = 0 || magnitude < -400 then 0
  else if 400 < magnitude then Float.ofBits 0x7ff0000000000000
  else Float.ofScientific significand (exponent < 0) exponent.natAbs

/-- Cuts the digits at the front off. -/
def splitDigits (input : List Char) : List Char × List Char :=
  (input.takeWhile Char.isDigit, input.dropWhile Char.isDigit)

/-- Reads an exponent without its letter. -/
def exponent? (input : List Char) : Option Int :=
  let (negative, digits) := match input with
    | '-' :: rest => (true, rest)
    | '+' :: rest => (false, rest)
    | rest => (false, rest)
  if digits.isEmpty || !digits.all Char.isDigit then none
  else some (if negative then -(natOfDigits digits : Int) else natOfDigits digits)

/-- The double nearest to an unsigned numeral: digits with at most one point among or around them, and an exponent. -/
def unsigned? (input : List Char) : Option Float := do
  let (whole, rest) := splitDigits input
  let (fraction, rest) := match rest with
    | '.' :: rest => splitDigits rest
    | rest => ([], rest)
  if whole.isEmpty && fraction.isEmpty then none
  let exponent ← match rest with
    | [] => some 0
    | c :: rest => if c == 'e' || c == 'E' then exponent? rest else none
  return nearest (natOfDigits (whole ++ fraction)) (exponent - fraction.length)

/-- The double nearest to a numeral with an optional sign. -/
def float? (input : List Char) : Option Float :=
  match input with
  | '-' :: rest => (unsigned? rest).map (-·)
  | '+' :: rest => unsigned? rest
  | rest => unsigned? rest

end SpeechDispatch.Decimal
