import SpeechDispatch.Net.Address
import SpeechDispatch.Text.Bytes

/-!
# Percent encoding

A byte may be written as a percent sign and two hexadecimal digits.  Each part of a URL has its own set of characters
that must be written so; control characters and bytes beyond ASCII always are.
-/

namespace SpeechDispatch.Url

def hexDigit (n : Nat) : Char := if n < 10 then Char.ofNat (0x30 + n) else Char.ofNat (0x41 + n - 10)

/-- A byte in percent encoding. -/
def percentByte (b : UInt8) : List Char := ['%', hexDigit (b.toNat / 16), hexDigit (b.toNat % 16)]

/-- A text with the characters of a set, controls and what is not ASCII in percent encoding. -/
def percentEncode (isEncoded : Char → Bool) (text : List Char) : List Char :=
  text.flatMap fun c =>
    if c.toNat < 0x20 || 0x7e < c.toNat || isEncoded c then (Bytes.ofText c.toString).flatMap percentByte else [c]

/-- The characters encoded in paths. -/
def inPathSet (c : Char) : Bool := [' ', '"', '<', '>', '`', '#', '?', '\x7b', '\x7d'].contains c

/-- The characters encoded in queries of the schemes of the web. -/
def inSpecialQuerySet (c : Char) : Bool := [' ', '"', '#', '<', '>', '\''].contains c

/-- The characters encoded in other queries. -/
def inQuerySet (c : Char) : Bool := [' ', '"', '#', '<', '>'].contains c

/-- The bytes of a text with its percent encodings resolved. -/
def percentDecode : List Char → Bytes
  | [] => []
  | '%' :: a :: b :: rest =>
    match Net.hexValue? a, Net.hexValue? b with
    | some x, some y => (x * 16 + y).toUInt8 :: percentDecode rest
    | _, _ => 0x25 :: percentDecode (a :: b :: rest)
  | c :: rest => Bytes.ofText c.toString ++ percentDecode rest

end SpeechDispatch.Url
