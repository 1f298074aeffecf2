import ExpiringCache.Bytes

/-!
# UTF-8

Texts as bytes and bytes as texts. A byte string that is no text has a fault: where its first
malformed character starts, and how many of its bytes are a proper beginning of a character, unless
the bytes end inside the character.

* `Utf8.encode` writes a text.
* `Utf8.decode` reads one, or says where it is malformed.
* `Utf8.repair` reads any bytes, with one replacement character for each malformed beginning.

The reader goes byte by byte. Between characters it looks at the lead byte (`Utf8.lead`); inside
one it keeps how many bytes are owed and the bounds of the next (`Utf8.Partial`).
-/

namespace ExpiringCache.Utf8

/-- The bytes of a text. -/
def encode (text : String) : Bytes := text.toList.flatMap String.utf8EncodeChar

@[simp] theorem encode_empty : encode "" = [] := rfl

/-- A character of which some bytes have been read. -/
structure Partial where
  /-- How many bytes are owed. -/
  owed : Nat
  /-- The least byte that may come next. -/
  low : UInt8
  /-- The greatest byte that may come next. -/
  high : UInt8
  /-- The bits read so far. -/
  bits : Nat
  /-- How many bytes have been read. -/
  seen : Nat
deriving DecidableEq

/-- What a byte between characters begins. -/
inductive Lead where
  | whole (c : Char)
  | start (begun : Partial)
  | none
deriving DecidableEq

/-- What a byte between characters begins: a character of one byte, a longer one, or none. The
bounds on the second byte keep out overlong forms, surrogates and what lies beyond U+10FFFF. -/
def lead (b : UInt8) : Lead :=
  if b < 0x80 then .whole (Char.ofNat b.toNat)
  else if b < 0xC2 then .none
  else if b < 0xE0 then .start ⟨1, 0x80, 0xBF, b.toNat - 0xC0, 1⟩
  else if b = 0xE0 then .start ⟨2, 0xA0, 0xBF, 0, 1⟩
  else if b = 0xED then .start ⟨2, 0x80, 0x9F, 0xD, 1⟩
  else if b < 0xF0 then .start ⟨2, 0x80, 0xBF, b.toNat - 0xE0, 1⟩
  else if b = 0xF0 then .start ⟨3, 0x90, 0xBF, 0, 1⟩
  else if b < 0xF4 then .start ⟨3, 0x80, 0xBF, b.toNat - 0xF0, 1⟩
  else if b = 0xF4 then .start ⟨3, 0x80, 0x8F, 4, 1⟩
  else .none

/-- What a byte inside a character leads to. -/
inductive Next where
  | whole (c : Char)
  | more (begun : Partial)
  | refused
deriving DecidableEq

/-- Reads one more byte of a character. -/
def Partial.next (p : Partial) (b : UInt8) : Next :=
  if p.low ≤ b ∧ b ≤ p.high then
    let bits := p.bits * 64 + (b.toNat - 0x80)
    if p.owed ≤ 1 then .whole (Char.ofNat bits)
    else .more ⟨p.owed - 1, 0x80, 0xBF, bits, p.seen + 1⟩
  else .refused

/-! ## Reading with faults -/

/-- Where a byte string stops being a text. -/
structure Fault where
  /-- The position of the first byte of the malformed character. -/
  start : Nat
  /-- How many bytes from there are a beginning of a character and cannot be continued as it
  goes on; none when the bytes end inside a character. -/
  length : Option Nat
deriving DecidableEq

/-- The text of the fault. -/
def Fault.message (f : Fault) : String :=
  match f.length with
  | some n =>
    "invalid utf-8 sequence of " ++ toString n ++ " bytes from index " ++ toString f.start
  | none => "incomplete utf-8 byte sequence from index " ++ toString f.start

/-- Reads the characters of a byte string that starts at position `pos`, onto the reversed list of
those already read. -/
def decodeFrom (pos : Nat) (read : List Char) : Option Partial → Bytes → Except Fault (List Char)
  | none, [] => .ok read.reverse
  | some p, [] => .error ⟨pos - p.seen, none⟩
  | none, b :: rest =>
    match lead b with
    | .whole c => decodeFrom (pos + 1) (c :: read) none rest
    | .start p => decodeFrom (pos + 1) read (some p) rest
    | .none => .error ⟨pos, some 1⟩
  | some p, b :: rest =>
    match p.next b with
    | .whole c => decodeFrom (pos + 1) (c :: read) none rest
    | .more q => decodeFrom (pos + 1) read (some q) rest
    | .refused => .error ⟨pos - p.seen, some p.seen⟩

/-- The text of a byte string, or where it is malformed. -/
def decode (bytes : Bytes) : Except Fault String :=
  (decodeFrom 0 [] none bytes).map String.ofList

/-- The text of a byte string, if it is one. -/
def decode? (bytes : Bytes) : Option String :=
  match decode bytes with
  | .ok text => some text
  | .error _ => none

/-! ## Reading without faults -/

/-- The character that stands for malformed bytes. -/
def replacement : Char := '\uFFFD'

/-- Reads the characters of a byte string, with a replacement for each malformed beginning. A byte
that a begun character refuses is read again as the beginning of the next. -/
def repairFrom (read : List Char) : Option Partial → Bytes → List Char
  | none, [] => read.reverse
  | some _, [] => (replacement :: read).reverse
  | none, b :: rest =>
    match lead b with
    | .whole c => repairFrom (c :: read) none rest
    | .start p => repairFrom read (some p) rest
    | .none => repairFrom (replacement :: read) none rest
  | some p, b :: rest =>
    match p.next b with
    | .whole c => repairFrom (c :: read) none rest
    | .more q => repairFrom read (some q) rest
    | .refused =>
      match lead b with
      | .whole c => repairFrom (c :: replacement :: read) none rest
      | .start q => repairFrom (replacement :: read) (some q) rest
      | .none => repairFrom (replacement :: replacement :: read) none rest

/-- The text of a byte string, with replacements where it is malformed. -/
def repair (bytes : Bytes) : String := String.ofList (repairFrom [] none bytes)

end ExpiringCache.Utf8
