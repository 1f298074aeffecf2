import ExpiringCache.Proofs.Passage.Request

/-!
# What a session has done to the TTL of a key

Entries and rows say little of how they came about. What a session has done to the TTL of a key so
far is kept beside them (`Cache.past`): no definition of the cache looks at it. It is read off the
requests and their answers, and from whether the key was recorded when its TTL was changed.
-/

namespace ExpiringCache

/-- What has been done to the TTL of a key. -/
structure Past where
  /-- The TTL the key was last written with. -/
  written : Duration
  /-- The TTL with which the key came to be recorded, if that was by a change of TTL since. -/
  lifted : Option Duration
  /-- When the key was last written or given a TTL. -/
  start : Millis
  /-- The TTL it was given then. -/
  ttl : Duration
  /-- Whether the key was read since then and since the process started. -/
  read : Bool

namespace Past

/-- The past when the key is given a TTL, with which it came to be recorded or not. -/
def changed (now : Millis) (ttl : Duration) (recorded : Bool) (p : Past) : Past where
  written := p.written
  lifted := if recorded then some ttl else p.lifted
  start := now
  ttl := ttl
  read := false

/-- The past after a request, by what it does to the TTL and whether it made a row. -/
def after (now : Millis) (timing : Timing) (recorded : Bool) (past : Option Past) : Option Past :=
  match timing with
  | .kept => past
  | .read => past.map fun p => { p with read := true }
  | .written ttl => some { written := ttl, lifted := none, start := now, ttl := ttl, read := false }
  | .changed ttl => past.map (changed now ttl recorded)

/-- The past when the process has started again. -/
def relaunched (past : Option Past) : Option Past := past.map fun p => { p with read := false }

end Past

/-- Whether a request is to replace a TTL by another one. -/
def Request.replacesTtl : Request → Bool
  | .call (.replaceDuration _ _) => true
  | _ => false

/-- The TTL of the replacement by which the key came to be recorded, if it was by one, after a
request: by what the request does to the TTL, and whether it made a row. -/
def Request.raised (asked : Request) (timing : Timing) (recorded : Bool)
    (raised : Option Duration) : Option Duration :=
  match timing with
  | .kept | .read => raised
  | .written _ => none
  | .changed ttl =>
    if recorded then if asked.replacesTtl then some ttl else none else raised

namespace Cache

/-- The past of a key after an action. -/
def pastAfter (c : Cache) (now : Millis) (key : Bytes) (past : Option Past) : Action → Option Past
  | .request asked =>
    let row := c.backing.row? c.config.backend key
    let row' := (c.act now (.request asked)).backing.row? c.config.backend key
    Past.after now (c.timing now key asked) (row.isNone && row'.isSome) past
  | .restart => Past.relaunched past

/-- The past of a key after a session, by its past before. -/
def pastFrom (key : Bytes) : Cache → Option Past → List (Millis × Action) → Option Past
  | _, past, [] => past
  | c, past, step :: rest =>
    pastFrom key (c.act step.1 step.2) (c.pastAfter step.1 key past step.2) rest

/-- The past of a key after a session that starts with nothing. -/
def past (c : Cache) (steps : List (Millis × Action)) (key : Bytes) : Option Past :=
  c.pastFrom key none steps

/-- The TTL of the replacement by which a key came to be recorded, after an action. -/
def raisedAfter (c : Cache) (now : Millis) (key : Bytes) (raised : Option Duration) :
    Action → Option Duration
  | .request asked =>
    let row := c.backing.row? c.config.backend key
    let row' := (c.act now (.request asked)).backing.row? c.config.backend key
    asked.raised (c.timing now key asked) (row.isNone && row'.isSome) raised
  | .restart => none

/-- The TTL of the replacement by which a key came to be recorded, after a session. -/
def raisedFrom (key : Bytes) : Cache → Option Duration → List (Millis × Action) → Option Duration
  | _, raised, [] => raised
  | c, raised, step :: rest =>
    raisedFrom key (c.act step.1 step.2) (c.raisedAfter step.1 key raised step.2) rest

/-- The TTL of the replacement by which a key came to be recorded after a session that starts with
nothing, if it was by one, since the key was last written and since the process last started. -/
def raised (c : Cache) (steps : List (Millis × Action)) (key : Bytes) : Option Duration :=
  c.raisedFrom key none steps

end Cache

end ExpiringCache
