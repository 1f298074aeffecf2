import ExpiringCache.ByteMap
import ExpiringCache.Durable.Change

/-!
# The durable table

What outlives the process: for each recorded key its value, the TTL it was written with, and the
instant it expires. Changes are applied as of a reading of the clock, and `Table.apply` also
answers whether there was anything to change.

A change of duration restarts the time of recorded keys but keeps the TTL they were written with;
one that carries a value and a TTL also records keys that were not recorded.
-/

namespace ExpiringCache

/-- What is recorded under a key. -/
structure Row where
  value : Bytes
  /-- The TTL the key was written with. -/
  ttl : Millis
  expiresAt : Millis
deriving DecidableEq

namespace Row

/-- A row written now. -/
def fresh (now : Millis) (value : Bytes) (ttl : Duration) : Row :=
  ⟨value, Clock.span ttl, Clock.after now ttl⟩

/-- The row with its time restarted: with another TTL in force if one is given, else with the one
it was written with. -/
def restart (row : Row) (now : Millis) (ttl : Option Duration) : Row :=
  match ttl with
  | some ttl => { row with expiresAt := Clock.after now ttl }
  | none => { row with expiresAt := Clock.held (now + row.ttl) }

/-- The time the row has left, if it has any. -/
def remaining? (row : Row) (now : Millis) : Option Duration :=
  if now < row.expiresAt then some (Clock.left row.expiresAt now) else none

end Row

/-- The durable table. -/
structure Table where
  rows : ByteMap Row := ∅
deriving DecidableEq, Inhabited

namespace Table

/-- The table without rows. -/
def empty : Table := {}

/-- The table of these rows; the last row given for a key stays. -/
def ofList (rows : List (Bytes × Row)) : Table := ⟨ByteMap.ofList rows⟩

/-- The rows in the order of their keys. -/
def toList (t : Table) : List (Bytes × Row) := t.rows.entries

/-- The row of a key. -/
def find? (t : Table) (key : Bytes) : Option Row := t.rows.find? key

/-- The number of rows. -/
def size (t : Table) : Nat := t.rows.size

/-- Removes the row of a key, and answers whether there was one. -/
def erase (t : Table) (key : Bytes) : Bool × Table :=
  (t.rows.contains key, ⟨t.rows.erase key⟩)

/-- Sets the row of a key. -/
def insert (t : Table) (key : Bytes) (row : Row) : Table := ⟨t.rows.insert key row⟩

@[simp] theorem find?_empty (key : Bytes) : empty.find? key = none := rfl

@[simp] theorem find?_insert (t : Table) (key : Bytes) (row : Row) (k : Bytes) :
    (t.insert key row).find? k = if k = key then some row else t.find? k :=
  t.rows.find?_insert key row k

@[simp] theorem find?_erase (t : Table) (key k : Bytes) :
    (t.erase key).2.find? k = if k = key then none else t.find? k :=
  t.rows.find?_erase key k

theorem erase_fst (t : Table) (key : Bytes) : (t.erase key).1 = (t.find? key).isSome := rfl

/-- A table is determined by the rows of its keys. -/
theorem ext_find? {t u : Table} (h : ∀ key, t.find? key = u.find? key) : t = u := by
  cases t; cases u
  exact congrArg Table.mk (ByteMap.ext_find? h)

/-- Does something to each key in turn, and answers whether anything changed. -/
def forKeys (t : Table) (keys : List Bytes) (act : Table → Bytes → Bool × Table) : Bool × Table :=
  keys.foldl (fun (changed, t) key => ((act t key).1 || changed, (act t key).2)) (false, t)

/-- Restarts the time of a key, or records it if it is not recorded and the change says with what. -/
def restart (change : Change) (now : Millis) (t : Table) (key : Bytes) : Bool × Table :=
  match t.find? key with
  | some row => (true, t.insert key (row.restart now change.ttl))
  | none =>
    match change.value, change.ttl with
    | some value, some ttl => (true, t.insert key (Row.fresh now value ttl))
    | _, _ => (false, t)

/-- Gives a recorded key another value. -/
def setValue (value : Bytes) (t : Table) (key : Bytes) : Bool × Table :=
  match t.find? key with
  | some row => (true, t.insert key { row with value := value })
  | none => (false, t)

/-- Applies a change, and answers whether there was anything to change. -/
def apply (t : Table) (change : Change) (now : Millis) : Bool × Table :=
  match change.kind with
  | .write =>
    match change.keys, change.value with
    | key :: _, some value => (true, t.insert key (Row.fresh now value (change.ttl.getD .zero)))
    | _, _ => (false, t)
  | .removeKeys | .removeBySimilarity => t.forKeys change.keys erase
  | .removeAll => (!t.rows.isEmpty, empty)
  | .replaceDuration | .resetDuration => t.forKeys change.keys (restart change now)
  | .replaceValue =>
    match change.value with
    | some value => t.forKeys change.keys (setValue value)
    | none => (false, t)

end Table

end ExpiringCache
