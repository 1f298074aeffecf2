import ExpiringCache.Error

/-!
# Listeners

Who is told about expired entries, and who brings durable rows back after a restart. Besides the
listeners that come with the library there can be any others; of these the cache sees only a name
and how a call ends (`Conduct`). A list of listeners holds at most one of each identity: adding a
listener removes its equal first, so it stands last.
-/

namespace ExpiringCache

/-- How a call of a listener ends. -/
inductive Conduct where
  | succeeds
  | fails
  | crashes
deriving DecidableEq, Inhabited

/-- What tells a listener from others. -/
inductive Identity where
  /-- The listener of its kind that comes with the library. No named listener equals it, whatever
  its name: one that gives itself out for the listener of the library is not covered. -/
  | builtIn
  | named (name : String)
deriving DecidableEq

/-- A listener that is told about expired entries. -/
inductive ExpirationListener where
  /-- Writes a line to the log. -/
  | logging
  | custom (name : String) (conduct : Conduct)
deriving DecidableEq

namespace ExpirationListener

/-- The identity of a listener. -/
def identity : ExpirationListener → Identity
  | .logging => .builtIn
  | .custom name _ => .named name

/-- How a call of the listener ends. -/
def conduct : ExpirationListener → Conduct
  | .logging => .succeeds
  | .custom _ conduct => conduct

/-- The identity as a text. -/
def title : ExpirationListener → String
  | .logging => "LoggingExpirationListener"
  | .custom name _ => name

end ExpirationListener

/-- A listener that brings durable rows back. -/
inductive RecoveryListener where
  /-- Restores every row that has time left. -/
  | replay
  /-- Says how many rows it has restored, if it succeeds. -/
  | custom (name : String) (conduct : Conduct) (restored : Nat)
deriving DecidableEq

namespace RecoveryListener

/-- The identity of a listener. -/
def identity : RecoveryListener → Identity
  | .replay => .builtIn
  | .custom name _ _ => .named name

/-- The identity as a text. -/
def title : RecoveryListener → String
  | .replay => "ReplayRecovery"
  | .custom name _ _ => name

end RecoveryListener

/-- The listeners of a cache, in the order in which they are called. -/
structure Listeners where
  expiration : List ExpirationListener := []
  recovery : List RecoveryListener := []
deriving Inhabited

namespace Listeners

/-- Puts a listener at the end of a list, in place of one of the same identity. -/
def enlist {α : Type} (identity : α → Identity) (list : List α) (l : α) : List α :=
  list.filter (identity · ≠ identity l) ++ [l]

/-- Adds an expiration listener, in place of one of the same identity. -/
def addExpiration (ls : Listeners) (l : ExpirationListener) : Listeners :=
  { ls with expiration := enlist ExpirationListener.identity ls.expiration l }

/-- Adds a recovery listener, in place of one of the same identity. -/
def addRecovery (ls : Listeners) (l : RecoveryListener) : Listeners :=
  { ls with recovery := enlist RecoveryListener.identity ls.recovery l }

end Listeners

end ExpiringCache
