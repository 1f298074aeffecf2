import ExpiringCache.Command.Basic

/-!
# Invocations

The call of a command as far as persistence looks at it: the method, the keys, and the value and
TTL arguments. `Invocation.change` is the change to the durable table that a call had which is to
be recorded.
-/

namespace ExpiringCache

/-- The call of a command. -/
structure Invocation where
  method : Method
  keys : List String := []
  value : Option Json := none
  /-- The TTL argument; none where the default TTL was used. -/
  ttl : Option Duration := none

namespace Invocation

/-- The keys as bytes. -/
def byteKeys (call : Invocation) : List Bytes := call.keys.map Codec.encodeKey

/-- The change that erases what is recorded of the call's keys. -/
def erasure (call : Invocation) : Change := Change.erase call.byteKeys

/-- The keys of a change: of a removal by similarity those that were removed, and else those of the
call. -/
def changedKeys (call : Invocation) (kind : ChangeKind) (outcome : Outcome) : List Bytes :=
  match kind, outcome with
  | .removeAll, _ => []
  | .removeBySimilarity, .mapping removed => removed.map Codec.encodeKey
  | _, _ => call.byteKeys

/-- The value of a change, for the kinds that carry one. -/
def changedValue (call : Invocation) (kind : ChangeKind) (codec : Codec) :
    Except CodecError (Option Bytes) :=
  match kind, call.value with
  | .write, some value | .replaceValue, some value => (codec.encodeValue value).map some
  | _, _ => .ok none

/-- The TTL of a change: writes always have one. -/
def changedTtl (call : Invocation) (kind : ChangeKind) (defaultTtl : Duration) : Option Duration :=
  match kind with
  | .write => some (call.ttl.getD defaultTtl)
  | .replaceDuration => call.ttl
  | _ => none

/-- The change of a call, by its kind and outcome. -/
def change (call : Invocation) (kind : ChangeKind) (outcome : Outcome) (codec : Codec)
    (defaultTtl : Duration) : Except CodecError Change :=
  (call.changedValue kind codec).map fun value =>
    { kind := kind
      keys := call.changedKeys kind outcome
      value := value
      ttl := call.changedTtl kind defaultTtl }

end Invocation

/-- The call of a command; peeking is not a call that persistence looks at. -/
def Command.invocation? : Command → Option Invocation
  | .set key value => some { method := .set, keys := [key], value := some value }
  | .setWithTtl key value lifetime =>
    some { method := .setWithTtl, keys := [key], value := some value, ttl := some lifetime }
  | .setIfAbsent key value lifetime =>
    some { method := .setIfAbsent, keys := [key], value := some value, ttl := lifetime }
  | .get key => some { method := .get, keys := [key] }
  | .contains key => some { method := .contains, keys := [key] }
  | .ttl key => some { method := .ttl, keys := [key] }
  | .delete keys => some { method := .delete, keys := keys }
  | .deleteSimilar start => some { method := .deleteSimilar, keys := [start] }
  | .deleteAll => some { method := .deleteAll }
  | .replaceDuration key lifetime =>
    some { method := .replaceDuration, keys := [key], ttl := some lifetime }
  | .resetDuration key => some { method := .resetDuration, keys := [key] }
  | .replace key value => some { method := .replace, keys := [key], value := some value }
  | .peek _ => none

end ExpiringCache
