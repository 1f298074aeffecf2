import ExpiringCache.Json.Basic
import ExpiringCache.Decimal.Numeral
import ExpiringCache.Text.Utf8

/-!
# The tokens of JSON

Reading starts at the front of a byte string and answers what was read with the bytes that follow.
It fails in one of two ways: the bytes are not JSON (`ReadError.malformed`), or they are but not of
the kind that was asked for (`ReadError.mismatched`). The tokens here fail only in the first way.

* `Token.skipBlanks` drops blanks: space, tab, line feed, carriage return.
* `Token.word` reads a fixed word, `Token.string` a string after its opening quote, and
  `Token.number` a number.
* `Token.leaf` reads a value that is neither array nor object.

A string's escapes are resolved first; what results has to be UTF-8 as a whole.
-/

namespace ExpiringCache.Json

/-- Why reading failed. -/
inductive ReadError where
  /-- The bytes are not JSON. -/
  | malformed
  /-- The bytes are JSON of another kind than was asked for. -/
  | mismatched
deriving DecidableEq

/-- What was read from the front of a byte string, and the bytes that follow. -/
abbrev Reading (α : Type) := Except ReadError (α × Bytes)

namespace Token

/-- The byte of an ASCII character. -/
def byte (c : Char) : UInt8 := UInt8.ofNat c.toNat

/-- Whether a byte is a blank. -/
def isBlank (b : UInt8) : Bool :=
  b == byte ' ' || b == byte '\n' || b == byte '\t' || b == byte '\r'

/-- The bytes after any blanks. -/
def skipBlanks (s : Bytes) : Bytes := s.dropWhile isBlank

/-- The bytes after a fixed beginning. -/
def after? : Bytes → Bytes → Option Bytes
  | [], s => some s
  | _ :: _, [] => none
  | w :: word, b :: s => if w = b then after? word s else none

/-- Reads a fixed word as the value it stands for. -/
def word (text : String) (value : Json) (s : Bytes) : Reading Json :=
  match after? (Utf8.encode text) s with
  | some rest => .ok (value, rest)
  | none => .error .malformed

/-! ## Strings -/

/-- The value of a hexadecimal digit. -/
def hexDigit? (b : UInt8) : Option Nat :=
  if byte '0' ≤ b ∧ b ≤ byte '9' then some (b.toNat - 0x30)
  else if byte 'a' ≤ b ∧ b ≤ byte 'f' then some (b.toNat - 0x61 + 10)
  else if byte 'A' ≤ b ∧ b ≤ byte 'F' then some (b.toNat - 0x41 + 10)
  else none

/-- The value of four hexadecimal digits. -/
def unit? (a b c d : UInt8) : Option Nat := do
  let a ← hexDigit? a
  let b ← hexDigit? b
  let c ← hexDigit? c
  let d ← hexDigit? d
  pure (((a * 16 + b) * 16 + c) * 16 + d)

/-- Whether a 16-bit unit is the first half of a pair. -/
def isLeading (unit : Nat) : Bool := 0xD800 ≤ unit && unit < 0xDC00

/-- Whether a 16-bit unit is the second half of a pair. -/
def isTrailing (unit : Nat) : Bool := 0xDC00 ≤ unit && unit < 0xE000

/-- The code point of a pair of units. -/
def pairPoint (leading trailing : Nat) : Nat :=
  0x10000 + (leading - 0xD800) * 0x400 + (trailing - 0xDC00)

/-- What a letter after a backslash stands for. -/
def escaped? (b : UInt8) : Option UInt8 :=
  if b = byte '"' ∨ b = byte '\\' ∨ b = byte '/' then some b
  else if b = byte 'b' then some 8
  else if b = byte 'f' then some 12
  else if b = byte 'n' then some 10
  else if b = byte 'r' then some 13
  else if b = byte 't' then some 9
  else none

/-- The bytes of a code point before those already read, both reversed. -/
def pushPoint (point : Nat) (read : Bytes) : Bytes :=
  (String.utf8EncodeChar (Char.ofNat point)).reverse ++ read

/-- Reads to the closing quote, resolving escapes. An escaped unit of a pair needs the other half
right after it; raw control characters are refused. -/
def stringFrom (read : Bytes) : Bytes → Reading Bytes
  | [] => .error .malformed
  | b :: rest =>
    if b = byte '"' then .ok (read.reverse, rest)
    else if b = byte '\\' then
      match rest with
      | [] => .error .malformed
      | e :: rest =>
        if e = byte 'u' then
          match rest with
          | h₁ :: h₂ :: h₃ :: h₄ :: rest =>
            match unit? h₁ h₂ h₃ h₄ with
            | none => .error .malformed
            | some unit =>
              if isTrailing unit then .error .malformed
              else if isLeading unit then
                match rest with
                | slash :: u :: l₁ :: l₂ :: l₃ :: l₄ :: rest =>
                  if slash = byte '\\' ∧ u = byte 'u' then
                    match unit? l₁ l₂ l₃ l₄ with
                    | none => .error .malformed
                    | some second =>
                      if isTrailing second then
                        stringFrom (pushPoint (pairPoint unit second) read) rest
                      else .error .malformed
                  else .error .malformed
                | _ => .error .malformed
              else stringFrom (pushPoint unit read) rest
          | _ => .error .malformed
        else
          match escaped? e with
          | some c => stringFrom (c :: read) rest
          | none => .error .malformed
    else if b < 0x20 then .error .malformed
    else stringFrom (b :: read) rest

/-- Reads a string, whose opening quote has been read. -/
def string (s : Bytes) : Reading String :=
  match stringFrom [] s with
  | .error e => .error e
  | .ok (content, rest) =>
    match Utf8.decode? content with
    | some text => .ok (text, rest)
    | none => .error .malformed

/-! ## Numbers -/

/-- Whether a byte is a decimal digit. -/
def isDigit (b : UInt8) : Bool := byte '0' ≤ b && b ≤ byte '9'

/-- The decimal digits at the front. -/
def digits (s : Bytes) : List Nat := (s.takeWhile isDigit).map fun b => b.toNat - 0x30

/-- What follows the decimal digits at the front. -/
def afterDigits (s : Bytes) : Bytes := s.dropWhile isDigit

/-- Reads a fraction, if there is one: a point and at least one digit. -/
def fraction (s : Bytes) : Reading (Option (List Nat)) :=
  match s with
  | [] => .ok (none, [])
  | b :: rest =>
    if b = byte '.' then
      if (digits rest).isEmpty then .error .malformed
      else .ok (some (digits rest), afterDigits rest)
    else .ok (none, s)

/-- Reads a sign that may be left out, as whether it is a minus. -/
def sign (s : Bytes) : Bool × Bytes :=
  match s with
  | [] => (false, [])
  | b :: rest =>
    if b = byte '-' then (true, rest) else if b = byte '+' then (false, rest) else (false, s)

/-- Reads an exponent, if there is one: its letter, perhaps a sign, and at least one digit. -/
def exponent (s : Bytes) : Reading (Option (Bool × List Nat)) :=
  match s with
  | [] => .ok (none, [])
  | b :: rest =>
    if b = byte 'e' ∨ b = byte 'E' then
      let (down, rest) := sign rest
      if (digits rest).isEmpty then .error .malformed
      else .ok (some (down, digits rest), afterDigits rest)
    else .ok (none, s)

/-- Whether digits are the whole part of a number: there are some, and they start with a zero only
if they are the zero alone. -/
def isWhole : List Nat → Bool
  | [] => false
  | [_] => true
  | first :: _ => first != 0

/-- Reads a number as it is written. -/
def number (s : Bytes) : Reading Numeral :=
  let negative := s.head? == some (byte '-')
  let s := if negative then s.tail else s
  let whole := digits s
  if isWhole whole then
    match fraction (afterDigits s) with
    | .error e => .error e
    | .ok (fraction, rest) =>
      match exponent rest with
      | .error e => .error e
      | .ok (exponent, rest) => .ok (⟨negative, whole, fraction, exponent⟩, rest)
  else .error .malformed

/-- The value of a numeral, unless it is too large. -/
def numberValue (n : Numeral) : Option Json :=
  match n.integer? with
  | some i => some (.int i)
  | none => n.number?.map .float

/-! ## Values without parts -/

/-- Whether a byte begins a number. -/
def beginsNumber (b : UInt8) : Bool := b == byte '-' || isDigit b

/-- Reads a value that is neither array nor object. -/
def leaf (s : Bytes) : Reading Json :=
  match skipBlanks s with
  | [] => .error .malformed
  | b :: rest =>
    if b = byte '"' then
      match string rest with
      | .ok (text, rest) => .ok (.str text, rest)
      | .error e => .error e
    else if b = byte 'n' then word "ull" .null rest
    else if b = byte 't' then word "rue" (.bool true) rest
    else if b = byte 'f' then word "alse" (.bool false) rest
    else if beginsNumber b then
      match number (b :: rest) with
      | .ok (n, rest) =>
        match numberValue n with
        | some value => .ok (value, rest)
        | none => .error .malformed
      | .error e => .error e
    else .error .malformed

/-- Whether the next value is an array or an object. -/
def beginsNested (s : Bytes) : Bool :=
  match skipBlanks s with
  | [] => false
  | b :: _ => b == byte '[' || b == byte '\x7b'

/-- Reads one byte that has to come next, after any blanks. -/
def mark (c : Char) (s : Bytes) : Except ReadError Bytes :=
  match skipBlanks s with
  | [] => .error .malformed
  | b :: rest => if b = byte c then .ok rest else .error .malformed

/-- Whether a byte comes next, after any blanks, and what follows it. -/
def mark? (c : Char) (s : Bytes) : Option Bytes :=
  match skipBlanks s with
  | [] => none
  | b :: rest => if b = byte c then some rest else none

/-- Reads the name of a member. -/
def name (s : Bytes) : Reading String := (mark '"' s).bind string

end Token

end ExpiringCache.Json
