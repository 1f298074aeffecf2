/-!
# Methods

The commands by name, without their arguments. What is persisted is decided by method.
-/

namespace ExpiringCache

/-- A command without its arguments. -/
inductive Method where
  | set
  | setWithTtl
  | setIfAbsent
  | get
  | contains
  | ttl
  | delete
  | deleteSimilar
  | deleteAll
  | replaceDuration
  | resetDuration
  | replace
deriving DecidableEq

namespace Method

/-- The methods. -/
def all : List Method :=
  [.set, .setWithTtl, .setIfAbsent, .get, .contains, .ttl, .delete, .deleteSimilar, .deleteAll,
    .replaceDuration, .resetDuration, .replace]

/-- The name of a method. -/
def name : Method → String
  | .set => "set"
  | .setWithTtl => "set_with_ttl"
  | .setIfAbsent => "set_if_absent"
  | .get => "get"
  | .contains => "contains"
  | .ttl => "ttl"
  | .delete => "delete"
  | .deleteSimilar => "delete_similar"
  | .deleteAll => "delete_all"
  | .replaceDuration => "replace_duration"
  | .resetDuration => "reset_duration"
  | .replace => "replace"

/-- The method of this name. -/
def ofName? (text : String) : Option Method := all.find? (fun method => method.name == text)

end Method

end ExpiringCache
