import SpeechDispatch.WordSize

/-!
# Shortest decimal numerals

The numeral with the fewest digits among those that are nearer to a double than to any other, and of these the one
nearest to it.  A double is `significand * 2 ^ exponent`; what rounds to it lies between the midpoints to its
neighbours, which belong to it if its significand is even.
-/

namespace SpeechDispatch.Decimal

/-- A positive number `significand * 2 ^ exponent`.  Just above a power of two the neighbour below is only half as far
away as the one above. -/
structure Binary where
  significand : Nat
  exponent : Int
  atPower : Bool := false
  deriving DecidableEq

/-- The leading bit of a significand, which is not stored. -/
def leadingBit : Nat := 0x10000000000000

/-- The size of a double. -/
def Binary.ofFloat (x : Float) : Binary :=
  let bits := x.toBits.toNat % size63
  let fraction := bits % leadingBit
  let binade := bits / leadingBit
  if binade = 0 then ⟨fraction, -1074, false⟩
  else ⟨fraction + leadingBit, Int.ofNat binade - 1075, fraction = 0 && 1 < binade⟩

/-- A number `significand * 10 ^ exponent`. -/
structure Numeral where
  significand : Nat
  exponent : Int
  deriving DecidableEq

/-- `a * 2 ^ p` against `b * 10 ^ q`, both brought to whole numbers. -/
def scaled (a : Nat) (p : Int) (b : Nat) (q : Int) : Nat × Nat :=
  (a * Nat.pow 2 p.toNat * Nat.pow 10 (-q).toNat, b * Nat.pow 10 q.toNat * Nat.pow 2 (-p).toNat)

namespace Binary

/-- Whether a numeral rounds to the number. -/
def covers (x : Binary) (n : Numeral) : Bool :=
  let low := if x.atPower then 4 * x.significand - 1 else 4 * x.significand - 2
  let (below, at1) := scaled low (x.exponent - 2) n.significand n.exponent
  let (above, at2) := scaled (4 * x.significand + 2) (x.exponent - 2) n.significand n.exponent
  if x.significand % 2 = 0 then below ≤ at1 && at2 ≤ above else below < at1 && at2 < above

/-- The two numerals around the number on the grid of a power of ten, the lower one first. -/
def around (x : Binary) (exponent : Int) : Numeral × Numeral :=
  let (value, unit) := scaled x.significand x.exponent 1 exponent
  (⟨value / unit, exponent⟩, ⟨value / unit + 1, exponent⟩)

/-- Whether the upper of two numerals around the number is nearer; in the middle the even one counts as nearer. -/
def upperIsNearer (x : Binary) (exponent : Int) : Bool :=
  let (value, unit) := scaled x.significand x.exponent 1 exponent
  unit < 2 * (value % unit) || (unit = 2 * (value % unit) && (value / unit) % 2 = 1)

/-- The numeral on the grid of a power of ten that rounds to the number, if there is one. -/
def onGrid? (x : Binary) (exponent : Int) : Option Numeral :=
  let (lower, upper) := x.around exponent
  if x.covers lower && x.covers upper then some (if x.upperIsNearer exponent then upper else lower)
  else if x.covers lower then some lower
  else if x.covers upper then some upper
  else none

/-- The finest grid tried; the doubles are farther apart. -/
def finestGrid : Int := -324

/-- The first numeral on the grids from the `n`th above the finest one downwards. -/
def shortestFrom (x : Binary) : Nat → Numeral
  | 0 => (x.onGrid? finestGrid).getD ⟨0, 0⟩
  | n + 1 => (x.onGrid? (finestGrid + n + 1)).getD (x.shortestFrom n)

/-- The shortest numeral of a positive number that is a double: no grid above the 308th power of ten is needed. -/
def shortest (x : Binary) : Numeral := x.shortestFrom 632

end Binary

/-- The digits of a numeral with the point in its place, and whether it is a whole number. -/
def Numeral.positional (n : Numeral) : String × Bool :=
  let digits := Nat.toDigits 10 n.significand
  if 0 ≤ n.exponent then (String.ofList (digits ++ List.replicate n.exponent.toNat '0'), true)
  else
    let places := n.exponent.natAbs
    let padded := List.replicate (places + 1 - digits.length) '0' ++ digits
    let cut := padded.length - places
    (String.ofList (padded.take cut ++ '.' :: padded.drop cut), false)

/-- How doubles are written out. -/
structure FloatForm where
  /-- What follows a whole number. -/
  wholeMark : String
  notANumber : String

/-- A double in its shortest digits, without an exponent. -/
def FloatForm.write (form : FloatForm) (x : Float) : String :=
  let bits := x.toBits.toNat
  if x.isNaN then form.notANumber
  else
    let sign := if size63 ≤ bits then "-" else ""
    let size :=
      if x.isInf then "inf"
      else if bits % size63 = 0 then "0" ++ form.wholeMark
      else
        let (text, whole) := (Binary.ofFloat x).shortest.positional
        if whole then text ++ form.wholeMark else text
    sign ++ size

/-- A double as plain text: whole numbers have no point. -/
def plain : FloatForm := ⟨"", "NaN"⟩

end SpeechDispatch.Decimal
