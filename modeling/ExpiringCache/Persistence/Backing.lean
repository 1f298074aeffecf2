import ExpiringCache.Durable.Backend
import ExpiringCache.Listener.Basic
import ExpiringCache.Persistence.Message

/-!
# The durable side

The backends of a cache, the worker that may stand before them, and the journal of what was asked
of backends and listeners. Failures on this side are noted in the journal and go no further.

* `Backing.apply` and `Backing.erase` call a backend at once.
* `Backing.submit` hands a job to the worker, which keeps jobs in order until it works.
* `Backing.deliver` does the one or the other: a running worker takes the job, and without one it
  is done at once.
* `Backing.workOne` lets the worker do its oldest job, and `Backing.drain` all of them.

An outage says which calls of backends fail at present; a call that fails so leaves the table as it
is. Outages can change with every call (`Backing.ahead`). A call can also crash. It is the worker
that outlives a crash: where a backend is called at once, nothing stands between the crash and the
call of the cache, which would not come back. Here it comes back all the same, so outages with a
crash describe backends that only a worker calls.
-/

namespace ExpiringCache

/-- Something that was asked of a backend or told to a listener. -/
inductive Event where
  /-- A listener was told about an expired entry. -/
  | notified (listener : ExpirationListener) (m : Message)
  /-- A backend was asked to erase a key, and answered whether it was recorded, or failed. -/
  | erased (backend : BackendKind) (key : Bytes) (outcome : Option Bool)
  /-- A backend was asked to apply a change, and did so or failed. -/
  | applied (backend : BackendKind) (change : Change) (succeeded : Bool)
  /-- A recovery listener was shown the rows of these keys when so many entries were stored. -/
  | offered (listener : String) (keys : List Bytes) (stored : Nat)

/-- What a worker does for a cache. -/
inductive Job where
  | apply (change : Change)
  | erase (key : Bytes)
deriving DecidableEq

/-- A worker and the jobs it has taken, oldest first. -/
inductive Worker where
  /-- There is none. -/
  | absent
  /-- It takes no more jobs. -/
  | stopped
  | running (jobs : List (BackendKind × Job))
deriving DecidableEq, Inhabited

/-- Which calls of backends fail. -/
structure Outage where
  apply : Bool := false
  erase : Bool := false
  list : Bool := false
  /-- Applying a change crashes, and leaves no trace. Meant for a backend behind a worker. -/
  crashOnApply : Bool := false
  /-- Erasing a key crashes, and leaves no trace. Meant for a backend behind a worker. -/
  crashOnErase : Bool := false
deriving DecidableEq, Inhabited

/-- The durable side of a cache. -/
structure Backing where
  registry : Registry := {}
  outage : Outage := {}
  /-- The outages after the present one, one for each call to come; the last of them stays. -/
  ahead : List Outage := []
  worker : Worker := .absent
  journal : List Event := []
deriving Inhabited

namespace Backing

/-- Adds an event to the journal. -/
def note (b : Backing) (event : Event) : Backing := { b with journal := b.journal ++ [event] }

/-- Sets the backend of a kind. -/
def setBackend (b : Backing) (kind : BackendKind) (backend : Backend) : Backing :=
  { b with registry := b.registry.insert kind backend }

/-- Goes on to the next outage, if another one is ahead. -/
def advance (b : Backing) : Backing :=
  match b.ahead with
  | [] => b
  | outage :: ahead => { b with outage := outage, ahead := ahead }

/-! ## Calls of backends -/

/-- Applies a change in a backend, and answers whether it did. A crash is taken as the worker takes
it, for a job that was not done. -/
def apply (b : Backing) (now : Millis) (kind : BackendKind) (change : Change) : Bool × Backing :=
  match b.registry.find? kind with
  | none => (false, b)
  | some backend =>
    if b.outage.crashOnApply then (false, b.advance)
    else if b.outage.apply then (false, (b.note (.applied kind change false)).advance)
    else
      match backend.apply change now with
      | (.ok _, backend) =>
        (true, ((b.setBackend kind backend).note (.applied kind change true)).advance)
      | (.error _, backend) =>
        (false, ((b.setBackend kind backend).note (.applied kind change false)).advance)

/-- Erases a key in a backend, and answers whether it was recorded. A crash is taken as the worker
takes it, for a job that was not done. -/
def erase (b : Backing) (kind : BackendKind) (key : Bytes) : Bool × Backing :=
  match b.registry.find? kind with
  | none => (false, b)
  | some backend =>
    if b.outage.crashOnErase then (false, b.advance)
    else if b.outage.erase then (false, (b.note (.erased kind key none)).advance)
    else
      match backend.erase key with
      | (.ok erased, backend) =>
        (erased, ((b.setBackend kind backend).note (.erased kind key (some erased))).advance)
      | (.error _, backend) =>
        (false, ((b.setBackend kind backend).note (.erased kind key none)).advance)

/-- The rows of a backend. -/
def rows (b : Backing) (kind : BackendKind) : Except DurableError (List (Bytes × Row)) :=
  match b.registry.resolve kind with
  | .error e => .error e
  | .ok backend => if b.outage.list then .error .io else .ok backend.table.toList

/-! ## The worker -/

/-- Does a job at once, and answers what the backend answered. -/
def perform (b : Backing) (now : Millis) (kind : BackendKind) : Job → Bool × Backing
  | .apply change => b.apply now kind change
  | .erase key => b.erase kind key

/-- Hands a job to the worker. -/
def submit (b : Backing) (kind : BackendKind) (job : Job) : Except DurableError Backing :=
  match b.worker with
  | .running jobs => .ok { b with worker := .running (jobs ++ [(kind, job)]) }
  | .stopped | .absent => .error .stopped

/-- How a job was delivered. -/
inductive Delivery where
  /-- The worker took it. -/
  | queued
  /-- It was done at once, with this answer. -/
  | done (answer : Bool)
deriving DecidableEq

/-- Hands a job to the worker or, where none takes it, does it at once. -/
def deliver (b : Backing) (now : Millis) (kind : BackendKind) (job : Job) : Delivery × Backing :=
  match b.submit kind job with
  | .ok b => (.queued, b)
  | .error _ =>
    let (answer, b) := b.perform now kind job
    (.done answer, b)

/-- Lets the worker do its oldest job. -/
def workOne (b : Backing) (now : Millis) : Backing :=
  match b.worker with
  | .running ((kind, job) :: rest) => ({ b with worker := .running rest }.perform now kind job).2
  | _ => b

/-- How draining ended. -/
inductive Drained where
  | noWorker
  /-- The worker had stopped, and its jobs are lost. -/
  | wasStopped
  | drained
deriving DecidableEq

/-- Lets the worker do all of its jobs. A worker that had stopped is replaced by a new one. -/
def drain (b : Backing) (now : Millis) : Drained × Backing :=
  match b.worker with
  | .absent => (.noWorker, b)
  | .stopped => (.wasStopped, { b with worker := .running [] })
  | .running jobs => (.drained, jobs.foldl (fun b _ => b.workOne now) b)

/-- Stops the worker, whose jobs are lost, and answers whether there is a worker. -/
def stop (b : Backing) : Bool × Backing :=
  match b.worker with
  | .absent => (false, b)
  | _ => (true, { b with worker := .stopped })

/-- Replaces the worker by a new one without jobs. -/
def renewWorker (b : Backing) : Backing :=
  match b.worker with
  | .absent => b
  | _ => { b with worker := .running [] }

/-- Opens the file backend again, from what is in its folder. -/
def reopen (b : Backing) : Except DurableError Backing :=
  match b.registry.file with
  | some (.file _ folder) => (Backend.openFolder folder).map (b.setBackend .file)
  | _ => .ok b

end Backing

end ExpiringCache
