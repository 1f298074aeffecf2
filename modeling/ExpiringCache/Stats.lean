import ExpiringCache.Decimal.Binary64

/-!
# Statistics

What a store counts: reads that found a live entry and reads that did not, entries that expired,
and how many entries there are.
-/

namespace ExpiringCache

/-- The counters of a store. -/
structure Stats where
  /-- Reads that found a live entry. -/
  hits : Nat := 0
  /-- Reads that found none. -/
  misses : Nat := 0
  /-- Entries removed because their TTL was over. -/
  expirations : Nat := 0
  /-- Entries in the store. -/
  totalEntries : Nat := 0
deriving DecidableEq, Inhabited

namespace Stats

/-- Counts a read that found a live entry. -/
def hit (s : Stats) : Stats := { s with hits := s.hits + 1 }

/-- Counts a read that found none. -/
def miss (s : Stats) : Stats := { s with misses := s.misses + 1 }

/-- Counts entries removed because their TTL was over. -/
def expire (s : Stats) (count : Nat) : Stats := { s with expirations := s.expirations + count }

/-- Sets the number of entries. -/
def setTotal (s : Stats) (count : Nat) : Stats := { s with totalEntries := count }

/-- The share of reads that found a live entry, zero without reads. -/
def hitRate (s : Stats) : Binary64 :=
  let reads := s.hits + s.misses
  if reads = 0 then Binary64.zero else (Binary64.ofNat s.hits).div (Binary64.ofNat reads)

end Stats

end ExpiringCache
