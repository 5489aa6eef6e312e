/-
Texts as bytes.

A text is written in UTF-8.  Main statement: reading gives back the text that was
written, so no two texts have the same bytes.
-/

namespace ConfigBinder.Text

/-- The bytes of a text. -/
def encodeUtf8 (s : String) : List UInt8 := s.toUTF8.data.toList

/-- The text that bytes are, none when they are not well formed. -/
def decodeUtf8? (bytes : List UInt8) : Option String := String.fromUTF8? ⟨bytes.toArray⟩

/-- The bytes of a text read back as it. -/
theorem decodeUtf8?_encodeUtf8 (s : String) : decodeUtf8? (encodeUtf8 s) = some s := by
  simp [decodeUtf8?, encodeUtf8, String.fromUTF8?, String.fromUTF8, s.isValidUTF8]

end ConfigBinder.Text
