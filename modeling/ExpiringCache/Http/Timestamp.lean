import ExpiringCache.Clock

/-!
# Timestamps

Clock readings as dates and times of the Gregorian calendar, in UTC. Days are counted in cycles of
400 years that start in March, so the leap day is the last day of a year, and month lengths follow
one linear rule.
-/

namespace ExpiringCache.Http

/-- A day of the calendar. -/
structure Date where
  year : Nat
  month : Nat
  day : Nat
deriving DecidableEq

namespace Date

/-- The day that comes so many days after the first of January 1970. -/
def ofDays (days : Nat) : Date :=
  let day := days + 719468
  let cycle := day / 146097
  let dayOfCycle := day % 146097
  let yearOfCycle :=
    (dayOfCycle - dayOfCycle / 1460 + dayOfCycle / 36524 - dayOfCycle / 146096) / 365
  let dayOfYear := dayOfCycle - (365 * yearOfCycle + yearOfCycle / 4 - yearOfCycle / 100)
  let shifted := (5 * dayOfYear + 2) / 153
  let month := if shifted < 10 then shifted + 3 else shifted - 9
  { year := cycle * 400 + yearOfCycle + (if month ≤ 2 then 1 else 0)
    month := month
    day := dayOfYear - (153 * shifted + 2) / 5 + 1 }

end Date

/-- A number with zeros before it, so that it has at least so many digits. -/
def padded (width n : Nat) : String :=
  let digits := toString n
  String.ofList (List.replicate (width - digits.length) '0') ++ digits

/-- A year; beyond four digits it has a sign. -/
def yearText (year : Nat) : String :=
  if year < 10000 then padded 4 year else "+" ++ toString year

/-- A clock reading as a timestamp; milliseconds are shown unless there are none. -/
def timestamp (now : Millis) : String :=
  let seconds := now / 1000
  let millis := now % 1000
  let date := Date.ofDays (seconds / 86400)
  let time := seconds % 86400
  yearText date.year ++ "-" ++ padded 2 date.month ++ "-" ++ padded 2 date.day ++ "T" ++
    padded 2 (time / 3600) ++ ":" ++ padded 2 (time / 60 % 60) ++ ":" ++ padded 2 (time % 60) ++
    (if millis = 0 then "" else "." ++ padded 3 millis) ++ "+00:00"

end ExpiringCache.Http
