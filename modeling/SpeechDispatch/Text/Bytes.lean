/-!
# Bytes

Message bodies are lists of bytes, of which some are the UTF-8 form of a text.
-/

namespace SpeechDispatch

abbrev Bytes := List UInt8

namespace Bytes

/-- The UTF-8 form of a text. -/
def ofText (text : String) : Bytes := text.toUTF8.data.toList

/-- The text with this UTF-8 form, if there is one. -/
def toText? (bytes : Bytes) : Option String := String.fromUTF8? ⟨bytes.toArray⟩

theorem toText?_ofText (text : String) : toText? (ofText text) = some text := by
  simp only [toText?, ofText, Array.toArray_toList, String.fromUTF8?, String.toUTF8_eq_toByteArray,
    dif_pos text.isValidUTF8]
  rfl

end Bytes

end SpeechDispatch
