import ExpiringCache.Config.Settings
import ExpiringCache.Persistence.Backing

/-!
# What follows when an entry expires

Every listener is told about the entry, in order, whatever becomes of the calls before; then the
durable row of its key is erased, by the worker if there is one that takes the job. An entry that
cannot be decoded is not told about, but its row is erased all the same.
-/

namespace ExpiringCache

/-- How far the handling of an expired entry has come. -/
inductive Stage where
  | live
  | expiring
  | cleaned
deriving DecidableEq

/-- What was done about an expired entry. -/
structure ExpirationReport where
  stage : Stage := .live
  /-- Whether the entry could be decoded. -/
  decoded : Bool := false
  /-- How many listeners succeeded. -/
  notified : Nat := 0
  /-- How many listeners did not. -/
  failed : Nat := 0
  /-- Whether a durable row was erased at once. -/
  erased : Bool := false
  /-- Whether the worker took the erasure. -/
  queued : Bool := false
deriving DecidableEq

namespace Backing

/-- Tells one more listener. The counts are of the listeners that succeeded and of those that did
not. -/
def tellNext (m : Message) (told : (Nat × Nat) × Backing) (l : ExpirationListener) :
    (Nat × Nat) × Backing :=
  let ((notified, failed), b) := told
  let b := b.note (.notified l m)
  match l.conduct with
  | .succeeds => ((notified + 1, failed), b)
  | .fails | .crashes => ((notified, failed + 1), b)

/-- Tells listeners about an entry. -/
def tell (b : Backing) (listeners : List ExpirationListener) (m : Message) :
    (Nat × Nat) × Backing :=
  listeners.foldl (tellNext m) ((0, 0), b)

/-- Erases the durable row of an expired entry, if there is persistence. -/
def eraseExpired (b : Backing) (config : Config) (now : Millis) (key : Bytes)
    (report : ExpirationReport) : ExpirationReport × Backing :=
  if config.persistent then
    match b.deliver now config.backend (.erase key) with
    | (.queued, b) => ({ report with queued := true }, b)
    | (.done erased, b) => ({ report with erased := erased }, b)
  else (report, b)

/-- Handles an expired entry. -/
def expire (b : Backing) (config : Config) (listeners : List ExpirationListener) (now : Millis)
    (key value : Bytes) : ExpirationReport × Backing :=
  let begun : ExpirationReport := { stage := .expiring }
  let (report, b) :=
    match Message.ofBytes key value with
    | .ok m =>
      let ((notified, failed), b) := b.tell listeners m
      ({ begun with decoded := true, notified := notified, failed := failed }, b)
    | .error _ => (begun, b)
  let (report, b) := b.eraseExpired config now key report
  ({ report with stage := .cleaned }, b)

/-- Handles expired entries in order. -/
def expireAll (b : Backing) (config : Config) (listeners : List ExpirationListener) (now : Millis)
    (expired : List (Bytes × Bytes)) : Backing :=
  expired.foldl (fun b entry => (b.expire config listeners now entry.1 entry.2).2) b

end Backing

end ExpiringCache
