import ExpiringCache.Bytes
import ExpiringCache.Text.Utf8
import ExpiringCache.Text.Visible

/-!
# Quoted texts

Texts and byte strings as they are shown to people. A text stands in quotes with everything escaped
that would not show as it is; a byte string that is no text is shown as the list of its bytes.
-/

namespace ExpiringCache.Text

/-- How a character is shown inside quotes. -/
def shownChar (c : Char) : String :=
  if c = '"' then "\\\""
  else if c = '\\' then "\\\\"
  else if c = '\t' then "\\t"
  else if c = '\n' then "\\n"
  else if c = '\r' then "\\r"
  else if c = '\x00' then "\\0"
  else if isVisible c then String.singleton c
  else "\\u\x7b" ++ String.ofList (Nat.toDigits 16 c.toNat) ++ "\x7d"

/-- A text in quotes. -/
def quoted (text : String) : String :=
  "\"" ++ String.join (text.toList.map shownChar) ++ "\""

/-- A byte string as a text in quotes or, if it is no text, as a list of numbers. -/
def shownBytes (bytes : Bytes) : String :=
  match Utf8.decode? bytes with
  | some text => quoted text
  | none => "[" ++ ", ".intercalate (bytes.map fun b => toString b.toNat) ++ "]"

end ExpiringCache.Text
