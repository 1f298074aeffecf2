import ExpiringCache.Json.Basic
import ExpiringCache.Decimal.Notation

/-!
# Writing JSON

Values are written without blanks, members in the order in which the object holds them. In strings
the quote, the backslash and the control characters are escaped, the latter by a letter where there
is one and else by four hexadecimal digits; everything else stands for itself.

* `Json.write` puts the text of a value after a text already there.
* `Json.render` is the text of a value.
-/

namespace ExpiringCache.Json

/-- Numbers with a power of ten from -5 to 15 are written positionally. -/
def numberLayout : Decimal.Layout := ⟨-5, 15, "e", "+"⟩

/-- The greatest power of ten that is written positionally, and the next. -/
example :
    numberLayout.write ⟨[1, 5], 15⟩ = "1500000000000000.0" ∧
      numberLayout.write ⟨[1], 16⟩ = "1e+16" := by
  decide

/-- The least power of ten that is written positionally, and the one before it. -/
example :
    numberLayout.write ⟨[1, 5], -5⟩ = "0.000015" ∧ numberLayout.write ⟨[1, 5], -6⟩ = "1.5e-6" := by
  decide

/-- The two hexadecimal digits of a control character. -/
def hexPair (n : Nat) : List Char := [Nat.digitChar (n / 16), Nat.digitChar (n % 16)]

/-- How a character is written inside a string. -/
def escape (c : Char) : List Char :=
  if c = '"' then ['\\', '"']
  else if c = '\\' then ['\\', '\\']
  else if c = '\n' then ['\\', 'n']
  else if c = '\r' then ['\\', 'r']
  else if c = '\t' then ['\\', 't']
  else if c = '\x08' then ['\\', 'b']
  else if c = '\x0C' then ['\\', 'f']
  else if c.toNat < 0x20 then ['\\', 'u', '0', '0'] ++ hexPair c.toNat
  else [c]

/-- The text of a string with its quotes. -/
def quote (text : String) : String :=
  "\"" ++ String.ofList (text.toList.flatMap escape) ++ "\""

mutual

/-- Puts the text of a value after `out`. -/
def write (out : String) : Json → String
  | .null => out ++ "null"
  | .bool true => out ++ "true"
  | .bool false => out ++ "false"
  | .int n => out ++ toString n
  | .float x => out ++ numberLayout.writeNumber x
  | .str text => out ++ quote text
  | .arr items => writeItems (out ++ "[") items ++ "]"
  | .obj members => writeMembers (out ++ "\x7b") members ++ "\x7d"

/-- Puts the first item after `out`, and the others after it. -/
def writeItems (out : String) : List Json → String
  | [] => out
  | item :: rest => writeMoreItems (write out item) rest

/-- Puts items after `out`, a comma before each. -/
def writeMoreItems (out : String) : List Json → String
  | [] => out
  | item :: rest => writeMoreItems (write (out ++ ",") item) rest

/-- Puts the first member after `out`, and the others after it. -/
def writeMembers (out : String) : List (String × Json) → String
  | [] => out
  | member :: rest => writeMoreMembers (writeMember out member) rest

/-- Puts members after `out`, a comma before each. -/
def writeMoreMembers (out : String) : List (String × Json) → String
  | [] => out
  | member :: rest => writeMoreMembers (writeMember (out ++ ",") member) rest

/-- Puts a member after `out`: its name, a colon, its value. -/
def writeMember (out : String) : String × Json → String
  | (name, value) => write (out ++ quote name ++ ":") value

end

/-- The text of a value. -/
def render (value : Json) : String := write "" value

end ExpiringCache.Json
