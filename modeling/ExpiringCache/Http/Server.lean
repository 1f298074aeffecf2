import ExpiringCache.Cache
import ExpiringCache.Http.Path
import ExpiringCache.Http.Request
import ExpiringCache.Http.Response

/-!
# The server

What the server answers to a request. A path that is not served is an error before the method is
looked at, a method that the path is not served for before the key in the path is decoded, and
both before the body is read. HEAD requests are served as GET requests, without the body, and
OPTIONS requests are answered for every path.
-/

namespace ExpiringCache.Http

/-! ## Endpoints -/

/-- What a path names. Keys are segments as they are written. -/
inductive Resource where
  | set
  | setIfAbsent
  | value (segment : String)
  | ttl (segment : String)
  | ttlReset (segment : String)
  | deletion
  | key (segment : String)
  | similar (segment : String)
  | all
  | replacement
  | stats
  | health
deriving DecidableEq

namespace Resource

/-- What a path names, if it is served. A key at the end of a path has at least one character; one
before another segment may have none. -/
def ofSegments : List String → Option Resource
  | ["set"] => some .set
  | ["set-if-absent"] => some .setIfAbsent
  | ["del"] => some .deletion
  | ["all"] => some .all
  | ["replace"] => some .replacement
  | ["stats"] => some .stats
  | ["health"] => some .health
  | ["get", segment] => if segment.isEmpty then none else some (.value segment)
  | ["ttl", segment] => if segment.isEmpty then none else some (.ttl segment)
  | ["del", segment] => if segment.isEmpty then none else some (.key segment)
  | ["similar", segment] => if segment.isEmpty then none else some (.similar segment)
  | ["ttl", segment, "reset"] => some (.ttlReset segment)
  | _ => none

/-- The methods a resource is served for. -/
def verbs : Resource → List Verb
  | .set | .setIfAbsent | .replacement => [.put]
  | .value _ | .stats | .health => [.get, .head]
  | .ttl _ => [.get, .head, .put]
  | .ttlReset _ | .deletion => [.post]
  | .key _ | .similar _ | .all => [.delete]

/-- The methods as they are named in a response. -/
def allow (r : Resource) : String := ",".intercalate (r.verbs.map Verb.name)

end Resource

/-! ## Answers -/

/-- What serving a request leads to. -/
abbrev Served := Response × Cache

/-- A response without a body. -/
def bare (status : Nat) : Response := { status := status }

/-- A response with a body. -/
def ok (body : Json) : Response := { status := 200, body := some body }

/-- The response to an error. -/
def failure (e : CacheError) : Response :=
  { status := errorStatus e, body := some (errorBody e.message) }

/-- The response to a request that is refused. -/
def refused (refusal : Refusal) : Response := failure (.invalidRequest refusal)

/-- The response to a request for a key that is not live. -/
def missing (key : String) : Response := failure (.notFound key)

/-- The most bytes a body may have. -/
def maxBodySize : Nat := 2097152

/-- The body of a request, or the response if it cannot be read. -/
def readBody {σ α : Type} (form : Json.Form σ α) (request : Request) : Except Response α :=
  if !saysJson request.contentType then .error (bare 415)
  else if maxBodySize < request.body.length then .error (bare 413)
  else
    match form.read request.body with
    | .ok (body, _) => .ok body
    | .error .malformed => .error (bare 400)
    | .error .mismatched => .error (bare 422)

/-- Carries out a command and responds to its answer, or to its error. -/
def respond (c : Cache) (now : Millis) (command : Command) (answer : Answer → Response) : Served :=
  match c.perform now command with
  | (.ok a, c) => (answer a, c)
  | (.error e, c) => (failure e, c)

/-! ## Serving -/

/-- Serves a request to store a value, by the command that the body is turned into. -/
def serveSet (c : Cache) (now : Millis) (request : Request) (command : SetBody → Command) :
    Served :=
  match readBody SetBody.form request with
  | .error response => (response, c)
  | .ok body =>
    match body.refusal? with
    | some refusal => (refused refusal, c)
    | none =>
      respond c now (command body) fun
        | .flag stored => ok (storedBody body.key stored)
        | _ => bare 500

/-- The command that stores a value. -/
def setCommand (body : SetBody) : Command :=
  match body.duration? with
  | some lifetime => .setWithTtl body.key body.value lifetime
  | none => .set body.key body.value

/-- The command that stores a value under a key that is not live. -/
def setIfAbsentCommand (body : SetBody) : Command :=
  .setIfAbsent body.key body.value body.duration?

/-- Serves a request to swap a value. -/
def serveReplace (c : Cache) (now : Millis) (request : Request) : Served :=
  match readBody ReplaceBody.form request with
  | .error response => (response, c)
  | .ok body =>
    match body.refusal? with
    | some refusal => (refused refusal, c)
    | none =>
      respond c now (.replace body.key body.value) fun
        | .value (some previous) => ok (replacedBody body.key previous)
        | _ => missing body.key

/-- Serves a request to remove keys. -/
def serveDeleteMany (c : Cache) (now : Millis) (request : Request) : Served :=
  match readBody DeleteBody.form request with
  | .error response => (response, c)
  | .ok body =>
    respond c now (.delete body.keys) fun
      | .count n => ok (deletedBody n)
      | _ => bare 500

/-- Serves a request to set a TTL. -/
def serveReplaceTtl (c : Cache) (now : Millis) (request : Request) (key : String) : Served :=
  match readBody TtlBody.form request with
  | .error response => (response, c)
  | .ok body =>
    match body.refusal? with
    | some refusal => (refused refusal, c)
    | none =>
      respond c now (.replaceDuration key body.duration) fun
        | .flag true => ok (updatedBody key)
        | _ => missing key

/-- Serves a request for a resource whose key is decoded, if it is a text. -/
def withKey (c : Cache) (segment : String) (serve : String → Served) : Served :=
  match segmentText? segment with
  | some key => serve key
  | none => (bare 400, c)

/-- Serves a request for a resource, by a method it is served for. -/
def serveResource (c : Cache) (now : Millis) (request : Request) : Resource → Served
  | .set => serveSet c now request setCommand
  | .setIfAbsent => serveSet c now request setIfAbsentCommand
  | .replacement => serveReplace c now request
  | .deletion => serveDeleteMany c now request
  | .value segment =>
    withKey c segment fun key =>
      respond c now (.get key) fun
        | .value (some v) => ok (valueBody key v)
        | _ => missing key
  | .ttl segment =>
    withKey c segment fun key =>
      if request.verb = .put then serveReplaceTtl c now request key
      else
        respond c now (.ttl key) fun
          | .duration (some d) => ok (ttlBody key d)
          | _ => missing key
  | .ttlReset segment =>
    withKey c segment fun key =>
      respond c now (.resetDuration key) fun
        | .flag true => ok (updatedBody key)
        | _ => missing key
  | .key segment =>
    withKey c segment fun key =>
      respond c now (.delete [key]) fun
        | .count 0 => missing key
        | .count n => ok (deletedBody n)
        | _ => bare 500
  | .similar segment =>
    withKey c segment fun start =>
      respond c now (.deleteSimilar start) fun
        | .removed members => ok (similarBody start members)
        | _ => bare 500
  | .all =>
    respond c now .deleteAll fun
      | .flag flushed => ok (flushedBody flushed)
      | _ => bare 500
  | .stats => (ok (statsBody c.store.stats), c)
  | .health => (ok (healthBody now), c)

/-- Serves a request. -/
def serve (c : Cache) (now : Millis) (request : Request) : Served :=
  let resource? := Resource.ofSegments (segments request.target)
  if request.verb = .options then
    ({ status := 200, allow := resource?.map Resource.allow, preflight := true }, c)
  else
    match resource? with
    | none => (bare 404, c)
    | some resource =>
      if resource.verbs.contains request.verb then
        let (response, c) := serveResource c now request resource
        if request.verb = .head then ({ response with body := none }, c) else (response, c)
      else ({ status := 405, allow := some resource.allow }, c)

end ExpiringCache.Http
