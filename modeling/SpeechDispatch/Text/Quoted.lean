import SpeechDispatch.Text.Hidden

/-!
# Quoted text

The form in which error messages show a text whose bounds matter: between quotes, with quotes, backslashes and
characters that do not show escaped.
-/

namespace SpeechDispatch.Quoted

/-- A number in lower-case hexadecimal digits. -/
def hex (n : Nat) : String := String.ofList (Nat.toDigits 16 n)

/-- A character as it stands between the quotes. -/
def escaped (c : Char) : String :=
  match c with
  | '"' => "\\\""
  | '\\' => "\\\\"
  | '\n' => "\\n"
  | '\r' => "\\r"
  | '\t' => "\\t"
  | '\x00' => "\\0"
  | c => if isHidden c then "\\u\x7b" ++ hex c.toNat ++ "\x7d" else c.toString

/-- A text between quotes. -/
def text (s : String) : String := "\"" ++ String.join (s.toList.map escaped) ++ "\""

/-- A text that may be missing. -/
def optional : Option String → String
  | none => "None"
  | some s => "Some(" ++ text s ++ ")"

/-- A list of texts. -/
def list (texts : List String) : String := "[" ++ ", ".intercalate (texts.map text) ++ "]"

end SpeechDispatch.Quoted
