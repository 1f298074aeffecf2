import ExpiringCache.Cache

/-!
# Regular sweeps

A sweeper lets a cache remove what is expired whenever its timer has run for another interval. The
timer runs on its own; the sweeps that become due while it runs all see the clock as it is then.
-/

namespace ExpiringCache

/-- A timer for sweeps. -/
structure Sweeper where
  /-- The time between sweeps. -/
  interval : Millis
  /-- How long the timer has run. -/
  elapsed : Millis := 0

namespace Sweeper

/-- A sweeper with an interval in seconds, one at least. -/
def everySeconds (seconds : Nat) : Sweeper := { interval := max 1 seconds * 1000 }

/-- How many sweeps become due while the timer runs on. -/
def dueWithin (s : Sweeper) (time : Millis) : Nat :=
  (s.elapsed + time) / s.interval - s.elapsed / s.interval

/-- Lets the timer run on, and the cache sweep as often as is due. -/
def run (s : Sweeper) (time now : Millis) (c : Cache) : Sweeper × Cache :=
  ({ s with elapsed := s.elapsed + time },
    (List.range (s.dueWithin time)).foldl (fun c _ => (c.sweep now).2) c)

end Sweeper

end ExpiringCache
