import ExpiringCache.Json.Token

/-!
# Reading JSON values

A value is read with a bound on how deep arrays and objects may be nested; the levels left are what
the recursion goes by. The items of one array, and the members of one object, are read in a loop
that takes the reader of an item as an argument, so it also serves arrays of other things.

* `Json.value` reads a value from the front of a byte string.
* `Json.parse` reads a whole byte string as one value, with blanks around it.
-/

namespace ExpiringCache.Json

open Token

/-- How deep arrays and objects may be nested in a text. -/
def maxDepth : Nat := 127

/-- Reads items to the closing bracket, the first of which has to come next. The first list of
bytes bounds their number by its length. -/
def itemsFrom {α : Type} (item : Bytes → Reading α) (read : List α) :
    Bytes → Bytes → Reading (List α)
  | [], _ => .error .malformed
  | _ :: bound, s =>
    match item s with
    | .error e => .error e
    | .ok (x, rest) =>
      match mark? ',' rest with
      | some rest => itemsFrom item (x :: read) bound rest
      | none =>
        match mark ']' rest with
        | .ok rest => .ok ((x :: read).reverse, rest)
        | .error e => .error e

/-- Reads the items of an array, whose opening bracket has been read. An item takes a byte at
least, so the text bounds their number. -/
def items {α : Type} (item : Bytes → Reading α) (s : Bytes) : Reading (List α) :=
  match mark? ']' s with
  | some rest => .ok ([], rest)
  | none => itemsFrom item [] s s

/-- Reads a member: a name, a colon, and what the reader of values takes. -/
def member {α : Type} (value : Bytes → Reading α) (s : Bytes) : Reading (String × α) :=
  match name s with
  | .error e => .error e
  | .ok (name, rest) =>
    match mark ':' rest with
    | .error e => .error e
    | .ok rest =>
      match value rest with
      | .error e => .error e
      | .ok (x, rest) => .ok ((name, x), rest)

/-- Reads members to the closing brace, the first of which has to come next. The first list of
bytes bounds their number by its length. -/
def membersFrom {α : Type} (value : Bytes → Reading α) (read : List (String × α)) :
    Bytes → Bytes → Reading (List (String × α))
  | [], _ => .error .malformed
  | _ :: bound, s =>
    match member value s with
    | .error e => .error e
    | .ok (m, rest) =>
      match mark? ',' rest with
      | some rest => membersFrom value (m :: read) bound rest
      | none =>
        match mark '\x7d' rest with
        | .ok rest => .ok ((m :: read).reverse, rest)
        | .error e => .error e

/-- Reads the members of an object, whose opening brace has been read. -/
def members {α : Type} (value : Bytes → Reading α) (s : Bytes) : Reading (List (String × α)) :=
  match mark? '\x7d' s with
  | some rest => .ok ([], rest)
  | none => membersFrom value [] s s

/-- Reads a value nested at most so deep. -/
def value : Nat → Bytes → Reading Json
  | 0, s => leaf s
  | depth + 1, s =>
    match mark? '[' s with
    | some rest =>
      match items (value depth) rest with
      | .ok (xs, rest) => .ok (.arr xs, rest)
      | .error e => .error e
    | none =>
      match mark? '\x7b' s with
      | some rest =>
        match members (value depth) rest with
        | .ok (ms, rest) => .ok (object ms, rest)
        | .error e => .error e
      | none => leaf s

/-- What was read, if nothing but blanks follows it. -/
def whole {α : Type} : Reading α → Except ReadError α
  | .error e => .error e
  | .ok (x, rest) => if (skipBlanks rest).isEmpty then .ok x else .error .malformed

/-- The value of a text, with blanks around it, nested at most so deep. -/
def parseTo (depth : Nat) (text : Bytes) : Except ReadError Json := whole (value depth text)

/-- The value of a text, with blanks around it. -/
def parse (text : Bytes) : Except ReadError Json := parseTo maxDepth text

end ExpiringCache.Json
