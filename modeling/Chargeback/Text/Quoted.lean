import Chargeback.Text.Visible

/-!
# Quoted text

The form in which messages show a text from outside: in double quotes, with the quote, the
backslash, the usual control characters and NUL as two-character escapes, and every other
character that is not visible as its code point in hexadecimal.
-/

namespace Chargeback.Text

/-- One character inside the quotes. -/
def quotedChar (c : Char) : List Char :=
  if c == '"' then ['\\', '"']
  else if c == '\\' then ['\\', '\\']
  else if c == '\n' then ['\\', 'n']
  else if c == '\r' then ['\\', 'r']
  else if c == '\t' then ['\\', 't']
  else if c.toNat == 0 then ['\\', '0']
  else if isHidden c then ['\\', 'u', '\x7b'] ++ Nat.toDigits 16 c.toNat ++ ['\x7d']
  else [c]

/-- The text in double quotes. -/
def quoted (s : String) : String :=
  String.ofList ('"' :: (s.toList.flatMap quotedChar ++ ['"']))

end Chargeback.Text
