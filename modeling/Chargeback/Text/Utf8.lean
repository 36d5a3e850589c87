/-!
# Bytes of a text

Texts and their UTF-8 encodings as lists of bytes; not every list of bytes is a text.
-/

namespace Chargeback.Text

/-- The UTF-8 encoding of a text. -/
def encode (s : String) : List UInt8 := s.toUTF8.data.toList

/-- The text that a list of bytes encodes, if it is valid UTF-8. -/
def decode? (bytes : List UInt8) : Option String := String.fromUTF8? ⟨bytes.toArray⟩

theorem decode?_encode (s : String) : decode? (encode s) = some s := by
  simp only [decode?, encode, String.fromUTF8?, Array.toArray_toList]
  exact dif_pos s.isValidUTF8

end Chargeback.Text
