/-!
# Sizes of whole numbers

How many values words of some widths have.  A word with sign has one half of them below zero.
-/

namespace SpeechDispatch

/-- The number of values of 16 bits. -/
def size16 : Nat := 0x10000

/-- The number of values of 32 bits. -/
def size32 : Nat := 0x100000000

/-- The number of values of 64 bits. -/
def size64 : Nat := 0x10000000000000000

/-- Half of them: those of 63 bits. -/
def size63 : Nat := 0x8000000000000000

/-- Whether a number has 64 bits with a sign. -/
def isInt64 (n : Int) : Bool := -(size63 : Int) ≤ n && n < size63

end SpeechDispatch
