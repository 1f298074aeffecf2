import ExpiringCache.Proofs.Codec
import ExpiringCache.Proofs.Recovery

/-!
# Sessions

Callers make requests, commands and sweeps, each at a reading of the clock. A request is answered
from the store alone, and what it leads to is its course (`Cache.serve_eq`). A session is requests
and restarts in any order; readings may go back as well as on.
-/

namespace ExpiringCache

/-- What is asked of a cache. -/
inductive Request where
  | call (command : Command)
  | sweep

/-- What is answered to a request, a command that is. -/
abbrev Reply := Option (Except CacheError Answer)

/-- The value a command stores, if it stores one. -/
def Command.value? : Command → Option Json
  | .set _ value | .setWithTtl _ value _ | .setIfAbsent _ value _ | .replace _ value => some value
  | _ => none

/-- The value of a request, if it has one, can be stored and read back. -/
def Request.Readable : Request → Prop
  | .call command => ∀ value, command.value? = some value → value.Storable
  | .sweep => True

/-- The value of a request, if it has one. -/
def Request.value? : Request → Option Json
  | .call command => command.value?
  | .sweep => none

/-- The value of a request, if it has one, is read back as it was given. -/
def Request.Faithful (asked : Request) : Prop := ∀ v, asked.value? = some v → v.Faithful

theorem Request.Readable.faithful {asked : Request} (h : asked.Readable) : asked.Faithful := by
  intro v hv
  cases asked with
  | call command => exact (h v hv).faithful
  | sweep => cases hv

/-- Serves a request on a store without a durable side. -/
def Store.serve (config : Config) (codec : Codec) (s : Store) (now : Millis) :
    Request → Reply × Store
  | .call command =>
    let t := command.run config codec now s
    (some t.answer, t.store)
  | .sweep => (none, (s.sweep now).store)

namespace Cache

/-- Serves a request. -/
def serve (c : Cache) (now : Millis) : Request → Reply × Cache
  | .call command => (some (c.perform now command).1, (c.perform now command).2)
  | .sweep => (none, (c.sweep now).2)

/-- What a request leads to. -/
def requestCourse (c : Cache) (now : Millis) : Request → Course
  | .call command => c.course now command
  | .sweep => (c.store.sweep now).course c.config

theorem serve_eq (c : Cache) (now : Millis) (request : Request) :
    c.serve now request =
      ((c.store.serve c.config c.codec now request).1, c.take now (c.requestCourse now request)) := by
  cases request with
  | call command =>
    show (some (c.perform now command).1, (c.perform now command).2) = _
    rw [perform_eq]
    rfl
  | sweep =>
    show (none, (c.sweep now).2) = _
    rw [sweep_eq]
    rfl

/-- Serves requests in order. -/
def serveAll : Cache → List (Millis × Request) → List Reply × Cache
  | c, [] => ([], c)
  | c, first :: rest =>
    let served := c.serve first.1 first.2
    let later := served.2.serveAll rest
    (served.1 :: later.1, later.2)

/-- The jobs that requests hand to backends, in order. -/
def jobs : Cache → List (Millis × Request) → List (BackendKind × Job)
  | _, [] => []
  | c, first :: rest =>
    (c.requestCourse first.1 first.2).jobs ++ (c.serve first.1 first.2).2.jobs rest

end Cache

/-! ### Sessions -/

/-- Something that happens in a session. -/
inductive Action where
  | request (asked : Request)
  /-- The process ends, and another one starts. -/
  | restart

/-- The values of the requests of a session can be stored and read back. -/
def Action.Readable : Action → Prop
  | .request asked => asked.Readable
  | .restart => True

/-- The values of the requests of a session are read back as they were given. -/
def Action.Faithful : Action → Prop
  | .request asked => asked.Faithful
  | .restart => True

theorem Action.Readable.faithful {action : Action} (h : action.Readable) : action.Faithful := by
  cases action with
  | request asked => exact Request.Readable.faithful h
  | restart => trivial

namespace Cache

/-- The cache after an action. -/
def act (c : Cache) (now : Millis) : Action → Cache
  | .request asked => (c.serve now asked).2
  | .restart => (c.relaunch now).2

/-- The cache after a session. -/
def session (c : Cache) (steps : List (Millis × Action)) : Cache :=
  steps.foldl (fun c step => c.act step.1 step.2) c

theorem session_cons (c : Cache) (step : Millis × Action) (rest : List (Millis × Action)) :
    c.session (step :: rest) = (c.act step.1 step.2).session rest := rfl

theorem act_request (c : Cache) (now : Millis) (request : Request) :
    c.act now (.request request) = c.take now (c.requestCourse now request) :=
  congrArg Prod.snd (serve_eq c now request)

/-- To serve requests is a session without restarts. -/
theorem serveAll_session (requests : List (Millis × Request)) : ∀ c : Cache,
    (c.serveAll requests).2 = c.session (requests.map fun r => (r.1, .request r.2)) := by
  induction requests with
  | nil => exact fun _ => rfl
  | cons first rest ih => exact fun c => ih (c.serve first.1 first.2).2

theorem serveAll_append (xs ys : List (Millis × Request)) : ∀ c : Cache,
    c.serveAll (xs ++ ys) =
      ((c.serveAll xs).1 ++ ((c.serveAll xs).2.serveAll ys).1,
        ((c.serveAll xs).2.serveAll ys).2) := by
  induction xs with
  | nil => exact fun _ => rfl
  | cons first rest ih =>
    intro c
    show ((c.serve first.1 first.2).1 :: ((c.serve first.1 first.2).2.serveAll (rest ++ ys)).1,
      ((c.serve first.1 first.2).2.serveAll (rest ++ ys)).2) = _
    rw [ih]
    rfl

end Cache

end ExpiringCache
