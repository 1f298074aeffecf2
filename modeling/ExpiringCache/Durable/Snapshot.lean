import ExpiringCache.Durable.Table
import ExpiringCache.Error
import ExpiringCache.Json.Form
import ExpiringCache.Json.Printer

/-!
# Snapshots

A durable table as a text: an array of its rows in the order of their keys, each an object with
the key, the value, the TTL and the instant of expiry. Keys and values are arrays of bytes, as they
need not be texts. No text at all is the table without rows.
-/

namespace ExpiringCache.Snapshot

/-- The name of the file that holds a snapshot. -/
def fileName : String := "cache-snapshot.json"

/-! ## Writing -/

/-- A byte string as an array of numbers. -/
def bytesJson (bytes : Bytes) : Json := .arr (bytes.map fun b => Json.nat b.toNat)

/-- A row as an object, with the members in the order in which they are written. -/
def rowJson (key : Bytes) (row : Row) : Json :=
  .obj [("key", bytesJson key), ("value", bytesJson row.value), ("ttl_ms", Json.nat row.ttl),
    ("expires_at_ms", Json.nat row.expiresAt)]

/-- The text of a table. -/
def render (t : Table) : Bytes :=
  Utf8.encode (Json.arr (t.toList.map fun (key, row) => rowJson key row)).render

/-! ## Reading -/

/-- The fields of a row as far as they have been read. -/
structure Fields where
  key : Option Bytes := none
  value : Option Bytes := none
  ttl : Option Millis := none
  expiresAt : Option Millis := none

/-- How a row is read. -/
def form : Json.Form Fields (Bytes × Row) where
  fields :=
    [Json.Field.make "key" false (·.key) (fun f x => { f with key := some x }) Json.bytes,
      Json.Field.make "value" false (·.value) (fun f x => { f with value := some x }) Json.bytes,
      Json.Field.make "ttl_ms" false (·.ttl) (fun f x => { f with ttl := some x })
        (Json.natural UInt64.size),
      Json.Field.make "expires_at_ms" false (·.expiresAt) (fun f x => { f with expiresAt := some x })
        (Json.natural UInt64.size)]
  blank := {}
  build f := do
    let key ← f.key
    let value ← f.value
    let ttl ← f.ttl
    let expiresAt ← f.expiresAt
    pure (key, ⟨value, ttl, expiresAt⟩)

/-- The table of a text. -/
def parse (text : Bytes) : Except DurableError Table :=
  if text.isEmpty then .ok Table.empty
  else
    match Json.whole (Json.list form.read text) with
    | .ok rows => .ok (Table.ofList rows)
    | .error _ => .error .snapshot

end ExpiringCache.Snapshot
