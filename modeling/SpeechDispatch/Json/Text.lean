import SpeechDispatch.Json.Lexeme

/-!
# JSON texts

`Text.resolve?` reads what stands between the quotes of a JSON text, `Text.quoted` writes it.  Reading refuses bytes
that are not UTF-8 and surrogates that do not come in pairs.
-/

namespace SpeechDispatch.Json.Text

def hexValue (b : UInt8) : Nat :=
  if b ≤ 0x39 then b.toNat - 0x30 else if b ≤ 0x46 then b.toNat - 0x41 + 10 else b.toNat - 0x61 + 10

/-- The number that four hexadecimal digits write. -/
def codeUnit (h1 h2 h3 h4 : UInt8) : Nat :=
  ((hexValue h1 * 16 + hexValue h2) * 16 + hexValue h3) * 16 + hexValue h4

def isLeading (n : Nat) : Bool := 0xd800 ≤ n && n < 0xdc00

def isTrailing (n : Nat) : Bool := 0xdc00 ≤ n && n < 0xe000

/-- The UTF-8 form of a character. -/
def encoded (n : Nat) : Bytes := Bytes.ofText (Char.ofNat n).toString

/-- The byte that a letter after a backslash stands for. -/
def unescaped (b : UInt8) : UInt8 :=
  if b == 0x62 then 0x08 else if b == 0x66 then 0x0c else if b == 0x6e then 0x0a
  else if b == 0x72 then 0x0d else if b == 0x74 then 0x09 else b

/-- The bytes of a text with its escapes resolved; `seen` holds those passed, last byte first. -/
def resolveAfter (seen : Bytes) : Bytes → Option Bytes
  | [] => some seen.reverse
  | b :: rest =>
    if b == backslash then
      match rest with
      | 0x75 :: h1 :: h2 :: h3 :: h4 :: rest =>
        let unit := codeUnit h1 h2 h3 h4
        if isTrailing unit then none
        else if isLeading unit then
          match rest with
          | 0x5c :: 0x75 :: l1 :: l2 :: l3 :: l4 :: rest =>
            let low := codeUnit l1 l2 l3 l4
            if isTrailing low then
              resolveAfter ((encoded (0x10000 + (unit - 0xd800) * 0x400 + (low - 0xdc00))).reverse ++ seen) rest
            else none
          | _ => none
        else resolveAfter ((encoded unit).reverse ++ seen) rest
      | e :: rest => resolveAfter (unescaped e :: seen) rest
      | [] => none
    else resolveAfter (b :: seen) rest

/-- The text that is written so between quotes. -/
def resolve? (raw : Bytes) : Option String := (resolveAfter [] raw).bind Bytes.toText?

/-! ### Writing -/

/-- A character as it is written between quotes: short escapes where there are any, `\u` for other control
characters, and itself otherwise. -/
def written (c : Char) : String :=
  match c with
  | '"' => "\\\""
  | '\\' => "\\\\"
  | '\x08' => "\\b"
  | '\x0c' => "\\f"
  | '\n' => "\\n"
  | '\r' => "\\r"
  | '\t' => "\\t"
  | c =>
    if c.toNat < 0x10 then "\\u000" ++ String.ofList (Nat.toDigits 16 c.toNat)
    else if c.toNat < 0x20 then "\\u00" ++ String.ofList (Nat.toDigits 16 c.toNat)
    else c.toString

/-- A text as a JSON text. -/
def quoted (text : String) : String := "\"" ++ String.join (text.toList.map written) ++ "\""

end SpeechDispatch.Json.Text
