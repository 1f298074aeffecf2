import ExpiringCache.Cache

/-!
# Recovery

After a restart the durable rows are shown to each recovery listener in turn; the one that comes
with the library restores every row that has time left, with the time it has left. Afterwards the
rows that have no time left are erased.

Restoring stops at the first row that the store refuses. Such a listener has failed, and what it
restored before is not counted.
-/

namespace ExpiringCache

/-- What recovery has done. -/
structure RecoveryReport where
  /-- How many durable rows there were. -/
  enumerated : Nat := 0
  /-- How many entries were restored, by all listeners together. -/
  restored : Nat := 0
  /-- How many rows without time left were erased. -/
  purged : Nat := 0
  /-- How many listeners did not succeed. -/
  failed : Nat := 0
deriving DecidableEq

namespace Cache

/-- Restores a row, if it has time left, and answers whether it did. -/
def restoreRow (c : Cache) (now : Millis) (key : Bytes) (row : Row) : Except Refusal Bool × Cache :=
  match row.remaining? now with
  | none => (.ok false, c)
  | some remaining =>
    let t := c.store.restore now key row.value (Duration.ofMillis row.ttl) remaining
    (t.answer, c.settle now t)

/-- Restores rows in order, and answers how many were restored. -/
def replay (c : Cache) (now : Millis) (restored : Nat) :
    List (Bytes × Row) → Except Refusal Nat × Cache
  | [] => (.ok restored, c)
  | (key, row) :: rows =>
    match c.restoreRow now key row with
    | (.ok true, c) => replay c now (restored + 1) rows
    | (.ok false, c) => replay c now restored rows
    | (.error refusal, c) => (.error refusal, c)

/-- Shows the rows to a recovery listener. -/
def offer (c : Cache) (now : Millis) (rows : List (Bytes × Row)) (report : RecoveryReport)
    (l : RecoveryListener) : RecoveryReport × Cache :=
  match l with
  | .replay =>
    match c.replay now 0 rows with
    | (.ok restored, c) => ({ report with restored := report.restored + restored }, c)
    | (.error _, c) => ({ report with failed := report.failed + 1 }, c)
  | .custom name conduct restored =>
    let event := Event.offered name (rows.map (·.1)) c.store.entries.size
    let c := { c with backing := c.backing.note event }
    match conduct with
    | .succeeds => ({ report with restored := report.restored + restored }, c)
    | .fails | .crashes => ({ report with failed := report.failed + 1 }, c)

/-- Erases a row that has no time left. -/
def purge (c : Cache) (now : Millis) (report : RecoveryReport) (entry : Bytes × Row) :
    RecoveryReport × Cache :=
  match entry.2.remaining? now with
  | some _ => (report, c)
  | none =>
    let (erased, backing) := c.backing.erase c.config.backend entry.1
    ({ report with purged := report.purged + (if erased then 1 else 0) },
      { c with backing := backing })

/-- Brings back what is durable. -/
def recover (c : Cache) (now : Millis) : Except DurableError RecoveryReport × Cache :=
  if c.config.persistent then
    match c.backing.rows c.config.backend with
    | .error e => (.error e, c)
    | .ok rows =>
      let (report, c) := c.listeners.recovery.foldl
        (fun (report, c) l => offer c now rows report l) ({ enumerated := rows.length }, c)
      let (report, c) := rows.foldl (fun (report, c) entry => purge c now report entry) (report, c)
      (.ok report, c)
  else (.ok {}, c)

/-- Ends the process and starts another: the worker does its jobs, unless they are lost; the file
backend is opened again; and an empty store is filled by recovery. If the file backend cannot be
opened, the store and the backend stay as they are. -/
def restart (c : Cache) (now : Millis) (loseJobs : Bool) :
    Except DurableError RecoveryReport × Cache :=
  let backing := (if loseJobs then c.backing else (c.backing.drain now).2).renewWorker
  match backing.reopen with
  | .error e => (.error e, { c with backing := backing })
  | .ok backing => recover { c with store := Store.new c.config.policy, backing := backing } now

end Cache

end ExpiringCache
