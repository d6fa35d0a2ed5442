/-!
# Blank text

A text is blank when it has no character that is not white space, in the sense of the Unicode property `White_Space`.
-/

namespace SpeechDispatch

/-- The characters with the property `White_Space`. -/
def isWhiteSpace (c : Char) : Bool :=
  let n := c.toNat
  (9 ≤ n && n ≤ 13) || n == 0x20 || n == 0x85 || n == 0xa0 || n == 0x1680 || (0x2000 ≤ n && n ≤ 0x200a) ||
    n == 0x2028 || n == 0x2029 || n == 0x202f || n == 0x205f || n == 0x3000

/-- Whether a text is empty or has white space only. -/
def isBlank (text : String) : Bool := text.toList.all isWhiteSpace

end SpeechDispatch
