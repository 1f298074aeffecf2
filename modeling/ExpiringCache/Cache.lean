import ExpiringCache.Command.Invocation
import ExpiringCache.Persistence.Expiration
import ExpiringCache.Persistence.MethodTable

/-!
# The cache

An expiring store with its durable side. A command is carried out on the store; the entries it
found expired are handled; and if it had an effect, the change is recorded durably. Callers see
the answer of the command and nothing of the durable side.

* `Cache.perform` carries out a command so, and `Cache.performPlain` without recording a change.
* `Cache.intercept` is the same for any call.
* `Cache.recover` brings durable rows back into the store, and `Cache.restart` is what a new
  process does: it starts from an empty store and what is durable.

The durable row of a key follows the TTL in force: a change that leaves the TTL below the critical
duration erases the row, and one that lifts it above records it.
-/

namespace ExpiringCache

/-- A cache: a store, its durable side, and how the two are wired. -/
structure Cache where
  config : Config
  listeners : Listeners
  methods : MethodTable
  /-- The codec of commands. -/
  codec : Codec
  /-- The codec of durable changes. -/
  changeCodec : Codec
  store : Store
  backing : Backing

namespace Cache

/-- A cache with an empty store. -/
def new (config : Config) (listeners : Listeners) (backing : Backing) : Cache where
  config := config
  listeners := listeners
  methods := MethodTable.standard config.backend
  codec := Codec.json
  changeCodec := Codec.json
  store := Store.new config.policy
  backing := backing

/-- Takes over what a turn has left: the store, and the expired entries, which are handled. -/
def settle {α : Type} (c : Cache) (now : Millis) (t : Turn α) : Cache :=
  { c with
    store := t.store
    backing := c.backing.expireAll c.config c.listeners.expiration now t.expired }

/-! ## Recording changes -/

/-- Hands a change to a backend, by way of the worker if there is one; without a change there is
nothing to do. -/
def submit (c : Cache) (now : Millis) (kind : BackendKind) (change : Option Change) : Cache :=
  match change with
  | some change => { c with backing := (c.backing.deliver now kind (.apply change)).2 }
  | none => c

/-- The change of a call that has changed a TTL, by how its key was read back. A key that is worthy
by the TTL now in force is recorded with its value; otherwise what is recorded of it is erased. -/
def durationChange? (c : Cache) (kind : ChangeKind) (call : Invocation) (key : String)
    (answer : Except CacheError Answer) : Option Change :=
  match answer with
  | .ok (.view (some view)) =>
    if c.config.isWorthy (some view.ttl) then
      match c.changeCodec.encodeValue view.value with
      | .ok value =>
        some
          { kind := kind
            keys := [Codec.encodeKey key]
            value := some value
            ttl := some view.ttl }
      | .error _ => none
    else some call.erasure
  | _ => none

/-- The change of any other call. A write that is not worthy erases what is recorded instead. -/
def callChange? (c : Cache) (kind : ChangeKind) (call : Invocation) (outcome : Outcome) :
    Option Change :=
  if kind = .write ∧ !c.config.isWorthy call.ttl then some call.erasure
  else
    match call.change kind outcome c.changeCodec c.config.defaultTtl with
    | .ok change => some change
    | .error _ => none

/-- Records a change of TTL. The entry is read back for that, which may find it expired; then there
is nothing to record. -/
def recordDuration (c : Cache) (now : Millis) (rule : Rule) (call : Invocation) : Cache :=
  match call.keys with
  | [] => c
  | key :: _ =>
    let t := Command.run c.config c.codec now c.store (.peek key)
    (c.settle now t).submit now rule.backend (c.durationChange? rule.kind call key t.answer)

/-- Records the change a call has made, whose outcome was as expected. -/
def recordChange (c : Cache) (now : Millis) (rule : Rule) (call : Invocation) (outcome : Outcome) :
    Cache :=
  match rule.kind with
  | .replaceDuration | .resetDuration => c.recordDuration now rule call
  | kind => c.submit now rule.backend (c.callChange? kind call outcome)

/-- Records what a call that succeeded has changed, if its method is persisted and its outcome tells
that it has changed something. -/
def record (c : Cache) (now : Millis) (call : Invocation) (outcome : Outcome) : Cache :=
  if c.config.persistent then
    match c.methods.rule? call.method with
    | some rule =>
      if rule.expectation.isMet outcome then c.recordChange now rule call outcome else c
    | none => c
  else c

/-! ## Calls -/

/-- Makes a call on the store, and records what it has changed. -/
def intercept (c : Cache) (now : Millis) (call : Invocation) (run : Store → Run) :
    Except CacheError Answer × Cache :=
  let t := run c.store
  let c := c.settle now t
  match t.answer with
  | .ok answer => (.ok answer, c.record now call answer.outcome)
  | .error e => (.error e, c)

/-- Carries out a command without recording what it changes. -/
def performPlain (c : Cache) (now : Millis) (command : Command) :
    Except CacheError Answer × Cache :=
  let t := command.run c.config c.codec now c.store
  (t.answer, c.settle now t)

/-- Carries out a command. -/
def perform (c : Cache) (now : Millis) (command : Command) : Except CacheError Answer × Cache :=
  match command.invocation? with
  | some call => c.intercept now call fun store => command.run c.config c.codec now store
  | none => c.performPlain now command

/-- Removes everything that is expired, and answers how many entries were. -/
def sweep (c : Cache) (now : Millis) : Nat × Cache :=
  let t := c.store.sweep now
  (t.answer, c.settle now t)

end Cache

end ExpiringCache
