import ExpiringCache.Clock
import ExpiringCache.Text.Choice

/-!
# Time units

The units in which configured durations are given. An amount of a unit is compared as whole
milliseconds (`TimeUnit.toMillis`) and used as a duration (`TimeUnit.toDuration`); the first rounds
down and stops at the largest amount the clock can tell.
-/

namespace ExpiringCache

/-- A unit of time. -/
inductive TimeUnit where
  | nanoseconds
  | microseconds
  | milliseconds
  | seconds
  | minutes
  | hours
  | days
deriving DecidableEq

namespace TimeUnit

/-- The units, shortest first. -/
def all : List TimeUnit :=
  [.nanoseconds, .microseconds, .milliseconds, .seconds, .minutes, .hours, .days]

/-- The length of the unit in nanoseconds. -/
def nanos : TimeUnit → Nat
  | .nanoseconds => 1
  | .microseconds => 1000
  | .milliseconds => 1000000
  | .seconds => 1000 * 1000000
  | .minutes => 60000 * 1000000
  | .hours => 3600000 * 1000000
  | .days => 86400000 * 1000000

/-- An amount of the unit in whole milliseconds, at most `Clock.latest`. -/
def toMillis (unit : TimeUnit) (amount : Nat) : Millis :=
  match unit with
  | .nanoseconds => amount / 1000000
  | .microseconds => amount / 1000
  | .milliseconds => amount
  | .seconds => Clock.held (amount * 1000)
  | .minutes => Clock.held (amount * 60000)
  | .hours => Clock.held (amount * 3600000)
  | .days => Clock.held (amount * 86400000)

/-- An amount of the unit as a duration. The units below a millisecond are exact; the others go
through `toMillis` and so share its upper bound. -/
def toDuration (unit : TimeUnit) (amount : Nat) : Duration :=
  match unit with
  | .nanoseconds | .microseconds => ⟨amount * unit.nanos⟩
  | _ => Duration.ofMillis (unit.toMillis amount)

/-- The name of the unit. -/
def name : TimeUnit → String
  | .nanoseconds => "nanoseconds"
  | .microseconds => "microseconds"
  | .milliseconds => "milliseconds"
  | .seconds => "seconds"
  | .minutes => "minutes"
  | .hours => "hours"
  | .days => "days"

/-- The name of the unit as a title. -/
def title : TimeUnit → String
  | .nanoseconds => "Nanoseconds"
  | .microseconds => "Microseconds"
  | .milliseconds => "Milliseconds"
  | .seconds => "Seconds"
  | .minutes => "Minutes"
  | .hours => "Hours"
  | .days => "Days"

/-- The unit whose name is exactly this text. -/
def ofName? (text : String) : Option TimeUnit := all.find? (fun unit => unit.name == text)

/-- The words for the units. -/
def words : List (String × TimeUnit) :=
  [("ns", .nanoseconds), ("nanos", .nanoseconds), ("nanoseconds", .nanoseconds),
    ("us", .microseconds), ("micros", .microseconds), ("microseconds", .microseconds),
    ("ms", .milliseconds), ("millis", .milliseconds), ("milliseconds", .milliseconds),
    ("s", .seconds), ("sec", .seconds), ("secs", .seconds), ("seconds", .seconds),
    ("m", .minutes), ("min", .minutes), ("mins", .minutes), ("minutes", .minutes),
    ("h", .hours), ("hour", .hours), ("hours", .hours),
    ("d", .days), ("day", .days), ("days", .days)]

/-- The unit a word stands for. -/
def ofText (text : String) : Except Text.UnknownWord TimeUnit :=
  Text.choose "time unit" words text

end TimeUnit

end ExpiringCache
