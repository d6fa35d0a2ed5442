import SpeechDispatch.WordSize

/-!
# Quantities

Seconds and costs.  The dispatcher adds, compares and ranks them, turns whole milliseconds into them and back, and has
one mark among them, the cost of a column without tasks.  Nothing else is used of them, so the same dispatcher runs on
doubles, whose comparisons with a NaN all fail and some of which are infinite, and can be reasoned about on exact
numbers.
-/

namespace SpeechDispatch

/-- Numbers for seconds and costs.  Comparisons are decided, and need not be total. -/
class Quantity (α : Type) extends Zero α, Add α, Sub α, Mul α where
  lt : α → α → Bool
  le : α → α → Bool
  same : α → α → Bool
  /-- The order in which costs are ranked, total on all values. -/
  ranks : α → α → Bool
  /-- The seconds of so many milliseconds. -/
  ofMillis : Nat → α
  /-- The milliseconds of so many seconds, less their fraction. -/
  toMillis : α → Int
  /-- The cost that stands for "nothing to offer". -/
  unavailable : α
  /-- Whether a load is below infinity. -/
  isBounded : α → Bool

namespace Quantity

variable {α : Type} [Quantity α]

/-- The seconds from one time to a later one; none if the order is the other way. -/
def ofSpan (millis : Int) : α := ofMillis millis.toNat

end Quantity

/-- The place of a double in the order that has -0 before 0 and the NaNs at its two ends. -/
def floatRank (x : Float) : Int :=
  let bits := x.toBits.toNat
  if bits < size63 then bits else (size63 : Int) - 1 - bits

instance : Quantity Float where
  zero := 0
  lt x y := x < y
  le x y := x ≤ y
  same x y := x == y
  ranks x y := floatRank x ≤ floatRank y
  ofMillis n := Float.ofNat n / 1000
  toMillis x := (x * 1000).toModel.toInt64.toInt
  unavailable := Float.ofBits 0x7fefffffffffffff
  isBounded x := x < Float.ofBits 0x7ff0000000000000

end SpeechDispatch
