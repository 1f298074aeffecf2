import ExpiringCache.ByteMap
import ExpiringCache.Entry
import ExpiringCache.Error
import ExpiringCache.Stats

/-!
# The expiring store

A map of entries that forgets an entry when its TTL is over. Expiry is found out late: an expired
entry stays in the map until an operation comes upon it, which then removes it and reports it. To
every operation such an entry is absent (`Store.live?`).

Each operation takes the reading of the clock and answers a `Turn`: its answer, the entries it
found expired, and the store afterwards. Every entry that is removed because its TTL was over is
reported exactly once, and `Stats` counts the reports.

An operation has one reading, with which it finds out what has expired. A store that reads its clock
again in the same operation, when an entry is made (`Entry.fresh`), touched (`Entry.touch`), given
another TTL (`Entry.replaceTtl`) or asked for the time it has left (`Entry.remaining`), is taken to
read the same as before.
-/

namespace ExpiringCache

/-- The expiring store. -/
structure Store where
  policy : ExpiryPolicy
  entries : ByteMap Entry := ∅
  stats : Stats := {}
deriving Inhabited

/-- What an operation of a store leads to. -/
structure Turn (α : Type) where
  answer : α
  /-- The entries found expired, as key and value. -/
  expired : List (Bytes × Bytes)
  store : Store

namespace Store

/-- An empty store. -/
def new (policy : ExpiryPolicy) : Store := { policy := policy }

/-- Why a key and a value cannot be stored, if so. -/
def refusal? (key value : Bytes) : Option Refusal :=
  if key.isEmpty then some .emptyKey
  else if maxKeyLength < key.length then some .longKey
  else if maxValueSize < value.length then some .largeValue
  else none

/-- The live entry of a key: its entry, unless it is expired. -/
def live? (s : Store) (now : Millis) (key : Bytes) : Option Entry :=
  (s.entries.find? key).filter fun e => !e.isExpiredAt now

/-- What is to be reported of a key: its entry, if it is expired. -/
def due (s : Store) (now : Millis) (key : Bytes) : List (Bytes × Bytes) :=
  match s.entries.find? key with
  | some e => if e.isExpiredAt now then [(key, e.value)] else []
  | none => []

/-- Everything that is to be reported. -/
def allDue (s : Store) (now : Millis) : List (Bytes × Bytes) :=
  (s.entries.entries.filter fun entry => entry.2.isExpiredAt now).map
    fun entry => (entry.1, entry.2.value)

theorem live?_eq_some_iff {s : Store} {now : Millis} {key : Bytes} {e : Entry} :
    s.live? now key = some e ↔ s.entries.find? key = some e ∧ e.isExpiredAt now = false := by
  simp [live?, Option.filter_eq_some_iff]

/-- Nothing is to be reported of a live key. -/
theorem due_eq_nil_of_live {s : Store} {now : Millis} {key : Bytes} {e : Entry}
    (h : s.live? now key = some e) : s.due now key = [] := by
  obtain ⟨hfind, hlive⟩ := live?_eq_some_iff.1 h
  simp [due, hfind, hlive]

/-- What is to be reported of all keys is what is to be reported of each. -/
theorem mem_allDue_iff {s : Store} {now : Millis} {key value : Bytes} :
    (key, value) ∈ s.allDue now ↔ (key, value) ∈ s.due now key := by
  simp only [allDue, List.mem_map, List.mem_filter, due]
  constructor
  · rintro ⟨⟨k, e⟩, ⟨hmem, hexp⟩, heq⟩
    obtain ⟨rfl, rfl⟩ := Prod.mk.inj heq
    simp [ByteMap.mem_entries_iff.1 hmem, hexp]
  · intro h
    cases hfind : s.entries.find? key with
    | none => simp [hfind] at h
    | some e =>
      by_cases hexp : e.isExpiredAt now = true
      · simp only [hfind, hexp, if_true, List.mem_singleton, Prod.mk.injEq, true_and] at h
        exact ⟨(key, e), ⟨ByteMap.mem_entries_iff.2 hfind, hexp⟩, by rw [h]⟩
      · simp [hfind, hexp] at h

/-! ## How operations end -/

/-- Ends an operation that did not look at the entries. -/
def idle {α : Type} (s : Store) (answer : α) : Turn α := ⟨answer, [], s⟩

/-- Ends an operation: counts what it found expired and the entries there are now. -/
def settle {α : Type} (s : Store) (expired : List (Bytes × Bytes)) (entries : ByteMap Entry)
    (stats : Stats) (answer : α) : Turn α :=
  ⟨answer, expired,
    { s with
      entries := entries
      stats := (stats.expire expired.length).setTotal entries.size }⟩

section
variable {α : Type} (s : Store) (expired : List (Bytes × Bytes)) (entries : ByteMap Entry)
  (stats : Stats) (answer : α)

@[simp] theorem settle_answer : (s.settle expired entries stats answer).answer = answer := rfl

@[simp] theorem settle_expired : (s.settle expired entries stats answer).expired = expired := rfl

@[simp] theorem settle_entries :
    (s.settle expired entries stats answer).store.entries = entries := rfl

@[simp] theorem settle_policy :
    (s.settle expired entries stats answer).store.policy = s.policy := rfl

end

/-- Ends an operation that came upon a key and found no live entry. -/
def settleWithout {α : Type} (s : Store) (now : Millis) (key : Bytes) (answer : α) : Turn α :=
  s.settle (s.due now key) (s.entries.erase key) s.stats answer

/-! ## Writing -/

/-- Stores a value, and answers the live value that was there. -/
def put (s : Store) (now : Millis) (key value : Bytes) (ttl : Duration) :
    Turn (Except Refusal (Option Bytes)) :=
  match refusal? key value with
  | some refusal => s.idle (.error refusal)
  | none =>
    s.settle (s.due now key) (s.entries.insert key (Entry.fresh now value ttl s.policy)) s.stats
      (.ok ((s.live? now key).map (·.value)))

/-- Stores an entry unless the key is live, and answers whether it did. -/
def insertAbsent (s : Store) (now : Millis) (key : Bytes) (entry : Entry) :
    Turn (Except Refusal Bool) :=
  match refusal? key entry.value with
  | some refusal => s.idle (.error refusal)
  | none =>
    match s.live? now key with
    | some _ => s.settle [] s.entries s.stats (.ok false)
    | none => s.settle (s.due now key) (s.entries.insert key entry) s.stats (.ok true)

/-- Stores a value unless the key is live, and answers whether it did. -/
def putIfAbsent (s : Store) (now : Millis) (key value : Bytes) (ttl : Duration) :
    Turn (Except Refusal Bool) :=
  s.insertAbsent now key (Entry.fresh now value ttl s.policy)

/-- Brings back an entry of the durable table unless the key is live, and answers whether it
did. -/
def restore (s : Store) (now : Millis) (key value : Bytes) (writtenTtl remaining : Duration) :
    Turn (Except Refusal Bool) :=
  s.insertAbsent now key (Entry.restored now value writtenTtl remaining s.policy)

/-- Swaps the value of a live key, which keeps its TTL, and answers the value that was there. -/
def replace (s : Store) (now : Millis) (key value : Bytes) :
    Turn (Except Refusal (Option Bytes)) :=
  match refusal? key value with
  | some refusal => s.idle (.error refusal)
  | none =>
    match s.live? now key with
    | some e => s.settle [] (s.entries.insert key (e.replaceValue value)) s.stats (.ok (some e.value))
    | none => s.settleWithout now key (.ok none)

/-! ## Reading -/

/-- The value of a live key; counts a hit or a miss. -/
def get (s : Store) (now : Millis) (key : Bytes) : Turn (Option Bytes) :=
  match s.live? now key with
  | some e => s.settle [] (s.entries.insert key (e.touch now)) s.stats.hit (some e.value)
  | none => s.settle (s.due now key) (s.entries.erase key) s.stats.miss none

/-- The entry of a live key, read without counting and without restarting its TTL. -/
def peek (s : Store) (now : Millis) (key : Bytes) : Turn (Option Entry) :=
  match s.live? now key with
  | some e => s.settle [] s.entries s.stats (some e)
  | none => s.settleWithout now key none

/-- Whether a key is live. -/
def contains (s : Store) (now : Millis) (key : Bytes) : Turn Bool :=
  match s.live? now key with
  | some _ => s.settle [] s.entries s.stats true
  | none => s.settleWithout now key false

/-- The time a live key has left. -/
def ttl (s : Store) (now : Millis) (key : Bytes) : Turn (Option Duration) :=
  match s.live? now key with
  | some e => s.settle [] s.entries s.stats (some (e.remaining now))
  | none => s.settleWithout now key none

/-! ## Changing TTLs -/

/-- Changes the entry of a live key, and answers whether the key is live. -/
def change (s : Store) (now : Millis) (key : Bytes) (f : Entry → Entry) : Turn Bool :=
  match s.live? now key with
  | some e => s.settle [] (s.entries.insert key (f e)) s.stats true
  | none => s.settleWithout now key false

/-- Sets the TTL of a live key, counted from now. -/
def replaceTtl (s : Store) (now : Millis) (key : Bytes) (ttl : Duration) : Turn Bool :=
  s.change now key fun e => e.replaceTtl now ttl

/-- Resets the TTL of a live key to the one it was written with, counted from now. -/
def resetTtl (s : Store) (now : Millis) (key : Bytes) : Turn Bool :=
  s.change now key fun e => e.resetTtl now

/-! ## Removing -/

/-- Removes a live key, and answers its value. -/
def remove (s : Store) (now : Millis) (key : Bytes) : Turn (Option Bytes) :=
  s.settleWithout now key ((s.live? now key).map (·.value))

/-- Removes the live keys that satisfy a test, and answers them with their values. -/
def removeWhere (s : Store) (now : Millis) (test : Bytes → Bool) : Turn (List (Bytes × Bytes)) :=
  let removed := s.entries.entries.filter fun entry => !entry.2.isExpiredAt now && test entry.1
  s.settle (s.allDue now) (s.entries.filter fun key e => !e.isExpiredAt now && !test key) s.stats
    (removed.map fun entry => (entry.1, entry.2.value))

/-- Removes everything, and answers how many entries were live. -/
def clear (s : Store) (now : Millis) : Turn Nat :=
  s.settle (s.allDue now) ∅ s.stats
    (s.entries.entries.filter fun entry => !entry.2.isExpiredAt now).length

/-- Removes everything that is expired, and answers how many entries were. -/
def sweep (s : Store) (now : Millis) : Turn Nat :=
  s.settle (s.allDue now) (s.entries.filter fun _ e => !e.isExpiredAt now) s.stats
    (s.allDue now).length

end Store

end ExpiringCache
