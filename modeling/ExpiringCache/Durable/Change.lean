import ExpiringCache.Bytes
import ExpiringCache.Clock

/-!
# Changes to the durable table

What a command did to the cache, as an instruction for the durable table: a kind of change, the
keys it is about, and the value and TTL it carries, if any.
-/

namespace ExpiringCache

/-- A kind of change. -/
inductive ChangeKind where
  /-- Records a key with a value and a TTL. -/
  | write
  /-- Removes keys. -/
  | removeKeys
  /-- Removes the keys that had a common beginning. -/
  | removeBySimilarity
  /-- Removes every key. -/
  | removeAll
  /-- Gives keys another TTL. -/
  | replaceDuration
  /-- Gives keys the TTL back that they were written with. -/
  | resetDuration
  /-- Gives keys another value. -/
  | replaceValue
deriving DecidableEq

namespace ChangeKind

/-- The kinds. -/
def all : List ChangeKind :=
  [.write, .removeKeys, .removeBySimilarity, .removeAll, .replaceDuration, .resetDuration,
    .replaceValue]

/-- The name of the kind. -/
def name : ChangeKind → String
  | .write => "write"
  | .removeKeys => "remove_keys"
  | .removeBySimilarity => "remove_by_similarity"
  | .removeAll => "remove_all"
  | .replaceDuration => "replace_duration"
  | .resetDuration => "reset_duration"
  | .replaceValue => "replace_value"

/-- The kind of this name. -/
def ofName? (text : String) : Option ChangeKind := all.find? (fun kind => kind.name == text)

end ChangeKind

/-- A change to the durable table. -/
structure Change where
  kind : ChangeKind
  keys : List Bytes
  value : Option Bytes := none
  ttl : Option Duration := none
deriving DecidableEq

/-- The change that removes keys. -/
def Change.erase (keys : List Bytes) : Change := { kind := .removeKeys, keys := keys }

end ExpiringCache
