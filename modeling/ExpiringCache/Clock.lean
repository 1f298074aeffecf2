/-!
# Clock readings and durations

The clock is read in Unix milliseconds. A reading, and every instant computed from one, lies
between zero and `Clock.latest`; instants that would lie beyond are held at `Clock.latest`.
Durations are exact to the nanosecond, and reach the clock only as whole milliseconds, rounded
down.

* `Clock.reading` is the reading of a wall clock that may stand before the epoch.
* `Clock.after` is the instant a duration ends.
* `Clock.left` is the time left until an instant.
-/

namespace ExpiringCache

/-- An instant, or a length of time, in whole milliseconds. -/
abbrev Millis := Nat

/-- A length of time in nanoseconds. -/
structure Duration where
  nanos : Nat
deriving DecidableEq

namespace Duration

/-- No time at all. -/
def zero : Duration := ⟨0⟩

instance : Inhabited Duration := ⟨zero⟩

/-- A duration of whole seconds and nanoseconds. -/
def ofParts (seconds nanos : Nat) : Duration := ⟨seconds * 1000000000 + nanos⟩

/-- A duration of whole milliseconds. -/
def ofMillis (millis : Millis) : Duration := ⟨millis * 1000000⟩

/-- A duration of whole seconds. -/
def ofSeconds (seconds : Nat) : Duration := ofParts seconds 0

/-- The whole seconds of a duration. -/
def seconds (d : Duration) : Nat := d.nanos / 1000000000

/-- What a duration has beyond its whole seconds, in nanoseconds. -/
def subsecond (d : Duration) : Nat := d.nanos % 1000000000

/-- The whole milliseconds of a duration. -/
def millis (d : Duration) : Millis := d.nanos / 1000000

@[simp] theorem millis_ofMillis (n : Millis) : (ofMillis n).millis = n := by
  simp [millis, ofMillis]

@[simp] theorem millis_zero : zero.millis = 0 := rfl

/-- A duration is its seconds and the nanoseconds beyond them. -/
theorem ofParts_seconds_subsecond (d : Duration) : ofParts d.seconds d.subsecond = d := by
  simp only [ofParts, seconds, subsecond, Nat.div_add_mod']

end Duration

namespace Clock

/-- The last instant the clock can tell. -/
def latest : Millis := 0xFFFF_FFFF_FFFF_FFFF

/-- An instant or length held within what the clock can tell. -/
def held (n : Nat) : Millis := min latest n

/-- The reading of a wall clock; before the epoch it reads zero. -/
def reading (wall : Int) : Millis := wall.toNat

/-- The whole milliseconds of a duration, held within what the clock can tell. -/
def span (d : Duration) : Millis := held d.millis

/-- The instant a duration that starts at `start` ends. -/
def after (start : Millis) (d : Duration) : Millis := held (start + span d)

/-- The time left at `now` until `instant`; none once the instant is reached. -/
def left (instant now : Millis) : Duration := Duration.ofMillis (instant - now)

theorem held_le (n : Nat) : held n ≤ latest := Nat.min_le_left _ _

theorem held_of_le {n : Nat} (h : n ≤ latest) : held n = n := Nat.min_eq_right h

theorem after_le (start : Millis) (d : Duration) : after start d ≤ latest := held_le _

/-- A duration of no time ends when it starts. -/
theorem after_zero {start : Millis} (h : start ≤ latest) : after start .zero = start := by
  rw [after, show span .zero = 0 from rfl, Nat.add_zero, held_of_le h]

@[simp] theorem millis_left (instant now : Millis) : (left instant now).millis = instant - now := by
  simp [left]

end Clock

end ExpiringCache
