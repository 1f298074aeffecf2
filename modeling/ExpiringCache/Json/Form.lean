import ExpiringCache.Json.Skim

/-!
# Reading records from JSON

A record is written as an object with a member for each field, or as an array of the fields in
order. A form says which fields there are and how each is read. In an object, members that are no
fields are passed over, a field given twice is an error at its second name, and a field that is
missing is an error at the closing brace; in an array, fields that may be left out may be missing
at the end. Of two errors the one that is met first, reading from left to right, is the answer.
-/

namespace ExpiringCache.Json

open Token

/-- The error for a value that is not of the kind asked for. A value without parts is read before
it is refused, so it can still turn out to be malformed. -/
def refusal (s : Bytes) : ReadError :=
  if beginsNested s then .mismatched
  else
    match leaf s with
    | .ok _ => .mismatched
    | .error e => e

/-- Reads a string. -/
def text (s : Bytes) : Reading String :=
  match mark? '"' s with
  | some rest => string rest
  | none => .error (refusal s)

/-- Reads a natural number below a bound. -/
def natural (bound : Nat) (s : Bytes) : Reading Nat :=
  match leaf s with
  | .ok (.int n, rest) =>
    if 0 ≤ n ∧ n < bound then .ok (n.toNat, rest) else .error .mismatched
  | _ => .error (refusal s)

/-- Reads what a reader takes, or null for nothing. -/
def optional {α : Type} (item : Bytes → Reading α) (s : Bytes) : Reading (Option α) :=
  match leaf s with
  | .ok (.null, rest) => .ok (none, rest)
  | _ => (item s).map fun (x, rest) => (some x, rest)

/-- Reads an array of what a reader takes. -/
def list {α : Type} (item : Bytes → Reading α) (s : Bytes) : Reading (List α) :=
  match mark? '[' s with
  | some rest => items item rest
  | none => .error (refusal s)

/-- Reads a byte string, written as an array of numbers. -/
def bytes (s : Bytes) : Reading Bytes :=
  list (fun s => (natural 256 s).map fun (n, rest) => (UInt8.ofNat n, rest)) s

/-! ## Forms -/

/-- A field of a record whose fields are gathered in a `σ`. -/
structure Field (σ : Type) where
  name : String
  /-- Whether the field may be missing. -/
  omissible : Bool
  /-- Whether the field has been read. -/
  given : σ → Bool
  /-- Reads the field. -/
  read : σ → Bytes → Reading σ

/-- A field from the place where it is kept and a reader of its values. -/
def Field.make {σ α : Type} (name : String) (omissible : Bool) (get : σ → Option α)
    (set : σ → α → σ) (item : Bytes → Reading α) : Field σ where
  name := name
  omissible := omissible
  given filled := (get filled).isSome
  read filled s := (item s).map fun (x, rest) => (set filled x, rest)

/-- How records are read: the fields, gathered in a `σ`, and the record they make. -/
structure Form (σ α : Type) where
  fields : List (Field σ)
  /-- No field read yet. -/
  blank : σ
  /-- The record, unless a field is missing. -/
  build : σ → Option α

namespace Form

variable {σ α : Type}

/-- Reads a member after its name: the colon, and the field of that name or any other value. -/
def memberValue (form : Form σ α) (filled : σ) (name : String) (s : Bytes) : Reading σ :=
  match form.fields.find? (fun field => field.name == name) with
  | some field =>
    if field.given filled then .error .mismatched
    else (mark ':' s).bind (field.read filled)
  | none => ((mark ':' s).bind Skim.value).map fun rest => (filled, rest)

/-- Reads members to the closing brace, the first of which has to come next. The first list of
bytes bounds their number by its length. -/
def membersFrom (form : Form σ α) (filled : σ) : Bytes → Bytes → Reading σ
  | [], _ => .error .malformed
  | _ :: bound, s =>
    match name s with
    | .error e => .error e
    | .ok (name, rest) =>
      match form.memberValue filled name rest with
      | .error e => .error e
      | .ok (filled, rest) =>
        match mark? ',' rest with
        | some rest => membersFrom form filled bound rest
        | none => (mark '\x7d' rest).map fun rest => (filled, rest)

/-- Reads fields in order to the closing bracket, with a comma before each but the first. -/
def slotsFrom (isFirst : Bool) (filled : σ) : List (Field σ) → Bytes → Reading σ
  | [], s => (mark ']' s).map fun rest => (filled, rest)
  | field :: fields, s =>
    match mark? ']' s with
    | some rest =>
      if (field :: fields).all (·.omissible) then .ok (filled, rest) else .error .mismatched
    | none =>
      match if isFirst then .ok s else mark ',' s with
      | .error e => .error e
      | .ok s =>
        match field.read filled s with
        | .error e => .error e
        | .ok (filled, rest) => slotsFrom false filled fields rest

/-- The record made of the fields that were read. -/
def finish (form : Form σ α) : Reading σ → Reading α
  | .error e => .error e
  | .ok (filled, rest) =>
    match form.build filled with
    | some record => .ok (record, rest)
    | none => .error .mismatched

/-- Reads a record. -/
def read (form : Form σ α) (s : Bytes) : Reading α :=
  match mark? '\x7b' s with
  | some rest =>
    match mark? '\x7d' rest with
    | some rest => form.finish (.ok (form.blank, rest))
    | none => form.finish (form.membersFrom form.blank rest rest)
  | none =>
    match mark? '[' s with
    | some rest => form.finish (slotsFrom true form.blank form.fields rest)
    | none => .error (refusal s)

end Form

end ExpiringCache.Json
