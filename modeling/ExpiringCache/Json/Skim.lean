import ExpiringCache.Json.Parser

/-!
# Passing over JSON values

A value that nobody asked for is passed over: its text has to be JSON, but numbers may be of any
size, strings need not be UTF-8, an escaped unit may stand alone, and nesting is not bounded. The
arrays and objects that are open are kept in a list instead.
-/

namespace ExpiringCache.Json.Skim

open Token

/-- What is open around a value. -/
inductive Frame where
  | array
  | object
deriving DecidableEq

/-- Passes over a string, whose opening quote has been read. -/
def string : Bytes → Except ReadError Bytes
  | [] => .error .malformed
  | b :: rest =>
    if b = byte '"' then .ok rest
    else if b = byte '\\' then
      match rest with
      | [] => .error .malformed
      | e :: rest =>
        if e = byte 'u' then
          match rest with
          | h₁ :: h₂ :: h₃ :: h₄ :: rest =>
            match unit? h₁ h₂ h₃ h₄ with
            | some _ => string rest
            | none => .error .malformed
          | _ => .error .malformed
        else
          match escaped? e with
          | some _ => string rest
          | none => .error .malformed
    else if b < 0x20 then .error .malformed
    else string rest

/-- Passes over the name of a member and its colon. -/
def name (s : Bytes) : Except ReadError Bytes := do
  let rest ← mark '"' s
  let rest ← string rest
  mark ':' rest

/-- Passes over a fixed word. -/
def word (text : String) (s : Bytes) : Except ReadError Bytes :=
  match after? (Utf8.encode text) s with
  | some rest => .ok rest
  | none => .error .malformed

/-- Passes over a value that is neither array nor object. -/
def leaf (s : Bytes) : Except ReadError Bytes :=
  match skipBlanks s with
  | [] => .error .malformed
  | b :: rest =>
    if b = byte '"' then string rest
    else if b = byte 'n' then word "ull" rest
    else if b = byte 't' then word "rue" rest
    else if b = byte 'f' then word "alse" rest
    else if beginsNumber b then (number (b :: rest)).map (·.2)
    else .error .malformed

/-- What stands after a value: the end of everything that was open, or the place of another value
inside what is still open. -/
inductive Place where
  | done (rest : Bytes)
  | value (frames : List Frame) (rest : Bytes)

/-- Goes on after a value: closes what closes here, and stops where another value has to come. -/
def onward : List Frame → Bytes → Except ReadError Place
  | [], s => .ok (.done s)
  | .array :: frames, s =>
    match mark? ',' s with
    | some rest => .ok (.value (.array :: frames) rest)
    | none =>
      match mark ']' s with
      | .ok rest => onward frames rest
      | .error e => .error e
  | .object :: frames, s =>
    match mark? ',' s with
    | some rest => (name rest).map (.value (.object :: frames))
    | none =>
      match mark '\x7d' s with
      | .ok rest => onward frames rest
      | .error e => .error e

/-- Passes over one opening mark or one value without parts, and goes on from there. -/
def step (frames : List Frame) (s : Bytes) : Except ReadError Place :=
  match mark? '[' s with
  | some rest =>
    match mark? ']' rest with
    | some rest => onward frames rest
    | none => .ok (.value (.array :: frames) rest)
  | none =>
    match mark? '\x7b' s with
    | some rest =>
      match mark? '\x7d' rest with
      | some rest => onward frames rest
      | none => (name rest).map (.value (.object :: frames))
    | none => (leaf s).bind (onward frames)

/-- Passes over values until nothing is open. The first list of bytes bounds the number of steps by
its length. -/
def valuesFrom : Bytes → List Frame → Bytes → Except ReadError Bytes
  | [], _, _ => .error .malformed
  | _ :: bound, frames, s =>
    match step frames s with
    | .error e => .error e
    | .ok (.done rest) => .ok rest
    | .ok (.value frames rest) => valuesFrom bound frames rest

/-- Passes over a value. Each step takes a byte at least, so the text bounds their number. -/
def value (s : Bytes) : Except ReadError Bytes := valuesFrom s [] s

end ExpiringCache.Json.Skim
