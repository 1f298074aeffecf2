import ExpiringCache.Clock
import ExpiringCache.Durable.Change
import ExpiringCache.Json.Basic

/-!
# What commands answer

The answers of commands, and what of an answer decides whether the command had an effect. An
`Outcome` is an answer without the values in it; an `Expectation` is a test on outcomes, and one
that is made for another shape of answer fails.
-/

namespace ExpiringCache

/-- A live entry as it is shown to callers. -/
structure EntryView where
  value : Json
  /-- The TTL the entry was written with. -/
  writtenTtl : Duration
  /-- The TTL in force. -/
  ttl : Duration

/-- What a command answers. -/
inductive Answer where
  /-- Nothing. -/
  | unit
  /-- Whether something was so. -/
  | flag (b : Bool)
  /-- How many there were. -/
  | count (n : Nat)
  /-- The keys that were removed, in ascending order, with their values. -/
  | removed (members : List (String × Json))
  /-- A value, if there is one. -/
  | value (v : Option Json)
  /-- A length of time, if there is one. -/
  | duration (d : Option Duration)
  /-- An entry, if there is one. -/
  | view (v : Option EntryView)

/-- An answer as far as it tells whether there was an effect. -/
inductive Outcome where
  | unit
  | flag (b : Bool)
  | count (n : Nat)
  /-- The keys of the answer. -/
  | mapping (keys : List String)
  /-- Whether there is a value. -/
  | value (present : Bool)
deriving DecidableEq

/-- What of an answer tells whether there was an effect. -/
def Answer.outcome : Answer → Outcome
  | .unit => .unit
  | .flag b => .flag b
  | .count n => .count n
  | .removed members => .mapping (members.map (·.1))
  | .value v => .value v.isSome
  | .duration d => .value d.isSome
  | .view v => .value v.isSome

/-- A test on outcomes. -/
inductive Expectation where
  /-- The answer is true. -/
  | truthy
  /-- The count is positive. -/
  | positive
  /-- There are keys. -/
  | nonEmpty
  /-- There is a value. -/
  | nonNull
deriving DecidableEq

namespace Expectation

/-- The expectations. -/
def all : List Expectation := [.truthy, .positive, .nonEmpty, .nonNull]

/-- The name of an expectation. -/
def name : Expectation → String
  | .truthy => "truthy"
  | .positive => "positive"
  | .nonEmpty => "non_empty"
  | .nonNull => "non_null"

/-- The expectation of this name. -/
def ofName? (text : String) : Option Expectation := all.find? (fun e => e.name == text)

/-- Whether an outcome is as expected. -/
def isMet : Expectation → Outcome → Bool
  | .truthy, .flag b => b
  | .positive, .count n => 0 < n
  | .nonEmpty, .mapping keys => !keys.isEmpty
  | .nonNull, .value present => present
  | _, _ => false

end Expectation

/-- The expectation that tells whether a command of this kind had an effect. -/
def ChangeKind.expectation : ChangeKind → Expectation
  | .write | .removeAll | .replaceDuration | .resetDuration => .truthy
  | .removeKeys => .positive
  | .removeBySimilarity => .nonEmpty
  | .replaceValue => .nonNull

end ExpiringCache
