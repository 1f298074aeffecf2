import ExpiringCache.Bytes
import ExpiringCache.Clock
import ExpiringCache.Text.Choice

/-!
# Entries

An entry holds a value for the length of its TTL. The TTL runs from the last write or, where the
policy says so, from the last read; at the end of it the entry is expired, so one with a TTL of
nothing is expired at once. The TTL in force can be changed, and reset to the one the entry was
written with.
-/

namespace ExpiringCache

/-- What the TTL of an entry is counted from. -/
inductive ExpiryPolicy where
  /-- The last write. -/
  | sinceCreation
  /-- The last successful read or write. -/
  | sinceAccess
deriving DecidableEq, Inhabited

namespace ExpiryPolicy

/-- The policies. -/
def all : List ExpiryPolicy := [.sinceCreation, .sinceAccess]

/-- The name of the policy. -/
def name : ExpiryPolicy → String
  | .sinceCreation => "since_creation"
  | .sinceAccess => "since_access"

/-- The name of the policy as a title. -/
def title : ExpiryPolicy → String
  | .sinceCreation => "SinceCreation"
  | .sinceAccess => "SinceAccess"

/-- The policy whose name is exactly this text. -/
def ofName? (text : String) : Option ExpiryPolicy := all.find? (fun policy => policy.name == text)

/-- The words for the policies. -/
def words : List (String × ExpiryPolicy) :=
  [("creation", .sinceCreation), ("created", .sinceCreation), ("since_creation", .sinceCreation),
    ("access", .sinceAccess), ("accessed", .sinceAccess), ("since_access", .sinceAccess)]

/-- The policy a word stands for. -/
def ofText (text : String) : Except Text.UnknownWord ExpiryPolicy :=
  Text.choose "expiry policy" words text

end ExpiryPolicy

/-- A stored value and how long it lives. -/
structure Entry where
  value : Bytes
  /-- When the entry was made. -/
  createdAt : Millis
  /-- When the TTL in force started to run. -/
  clockStart : Millis
  /-- The TTL the entry was written with. -/
  writtenTtl : Duration
  /-- The TTL in force. -/
  ttl : Duration
  policy : ExpiryPolicy
deriving DecidableEq

namespace Entry

/-- An entry written now. -/
def fresh (now : Millis) (value : Bytes) (ttl : Duration) (policy : ExpiryPolicy) : Entry where
  value := value
  createdAt := now
  clockStart := now
  writtenTtl := ttl
  ttl := ttl
  policy := policy

/-- An entry brought back from the durable table: what is left of its TTL is in force, and a reset
goes back to the TTL it was written with. -/
def restored (now : Millis) (value : Bytes) (writtenTtl remaining : Duration)
    (policy : ExpiryPolicy) : Entry :=
  { fresh now value writtenTtl policy with ttl := remaining }

/-- When the entry expires. -/
def expiresAt (e : Entry) : Millis := Clock.after e.clockStart e.ttl

/-- Whether the entry is expired at a reading of the clock. -/
def isExpiredAt (e : Entry) (now : Millis) : Bool := e.expiresAt ≤ now

/-- The time the entry has left, none once it is expired. -/
def remaining (e : Entry) (now : Millis) : Duration := Clock.left e.expiresAt now

/-- The entry after a successful read. -/
def touch (e : Entry) (now : Millis) : Entry :=
  match e.policy with
  | .sinceAccess => { e with clockStart := now }
  | .sinceCreation => e

/-- The entry with another TTL, which runs from now. -/
def replaceTtl (e : Entry) (now : Millis) (ttl : Duration) : Entry :=
  { e with ttl := ttl, clockStart := now }

/-- The entry with the TTL it was written with, which runs from now. -/
def resetTtl (e : Entry) (now : Millis) : Entry := e.replaceTtl now e.writtenTtl

/-- The entry with another value. -/
def replaceValue (e : Entry) (value : Bytes) : Entry := { e with value := value }

@[simp] theorem touch_value (e : Entry) (now : Millis) : (e.touch now).value = e.value := by
  unfold touch; split <;> rfl

@[simp] theorem touch_ttl (e : Entry) (now : Millis) : (e.touch now).ttl = e.ttl := by
  unfold touch; split <;> rfl

@[simp] theorem replaceTtl_value (e : Entry) (now : Millis) (ttl : Duration) :
    (e.replaceTtl now ttl).value = e.value := rfl

@[simp] theorem expiresAt_replaceTtl (e : Entry) (now : Millis) (ttl : Duration) :
    (e.replaceTtl now ttl).expiresAt = Clock.after now ttl := rfl

@[simp] theorem expiresAt_replaceValue (e : Entry) (value : Bytes) :
    (e.replaceValue value).expiresAt = e.expiresAt := rfl

theorem isExpiredAt_iff {e : Entry} {now : Millis} :
    e.isExpiredAt now = true ↔ e.expiresAt ≤ now := by
  simp [isExpiredAt]

end Entry

end ExpiringCache
