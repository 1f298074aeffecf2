import ExpiringCache.Command.Answer
import ExpiringCache.Command.Method
import ExpiringCache.Durable.Kind

/-!
# Which methods are persisted

For each method that is persisted a rule: the kind of its changes, the expectation its outcome has
to meet, and the backend its changes go to. Methods without a rule are never persisted.
-/

namespace ExpiringCache

/-- How the calls of a method are persisted. -/
structure Rule where
  kind : ChangeKind
  expectation : Expectation
  backend : BackendKind
deriving DecidableEq

/-- The rule of a kind of change, with the expectation of that kind. -/
def Rule.ofKind (kind : ChangeKind) (backend : BackendKind) : Rule :=
  ⟨kind, kind.expectation, backend⟩

/-- The rules of the methods that are persisted. -/
structure MethodTable where
  rule? : Method → Option Rule

namespace MethodTable

/-- The table that persists nothing. -/
def empty : MethodTable := ⟨fun _ => none⟩

/-- The kind of change a method makes, if it makes one. -/
def standardKind? : Method → Option ChangeKind
  | .set | .setWithTtl | .setIfAbsent => some .write
  | .delete => some .removeKeys
  | .deleteSimilar => some .removeBySimilarity
  | .deleteAll => some .removeAll
  | .replaceDuration => some .replaceDuration
  | .resetDuration => some .resetDuration
  | .replace => some .replaceValue
  | .get | .contains | .ttl => none

/-- The table that persists every method that changes something, in one backend. -/
def standard (backend : BackendKind) : MethodTable :=
  ⟨fun method => (standardKind? method).map fun kind => Rule.ofKind kind backend⟩

/-- Sets the rule of a method. -/
def register (t : MethodTable) (method : Method) (rule : Rule) : MethodTable :=
  ⟨fun m => if m = method then some rule else t.rule? m⟩

end MethodTable

end ExpiringCache
