import ExpiringCache.Config.Property
import ExpiringCache.Durable.Kind
import ExpiringCache.Entry
import ExpiringCache.TimeUnit

/-!
# The configuration of a cache

A configuration fixes the TTL of writes that do not carry one, whether and how entries are
persisted, and from which TTL on (the critical duration). It is sealed from explicit choices,
properties and defaults, in this order of precedence.

* `Config.isWorthy` says whether a write with a given TTL deserves a durable record. Writes
  without a TTL of their own are judged by the configured amounts, both in whole milliseconds.
-/

namespace ExpiringCache

/-- The sealed configuration of a cache. -/
structure Config where
  /-- The TTL of writes that carry none, in `defaultUnit`. -/
  defaultAmount : Nat := 10
  defaultUnit : TimeUnit := .seconds
  /-- Whether entries are persisted at all. -/
  persistent : Bool := false
  /-- Whether a worker applies the changes. -/
  async : Bool := false
  /-- The TTL from which on an entry is persisted, in `criticalUnit`. -/
  criticalAmount : Nat := 60
  criticalUnit : TimeUnit := .seconds
  policy : ExpiryPolicy := .sinceCreation
  /-- The kind of backend that changes go to. -/
  backend : BackendKind := .memory
deriving DecidableEq, Inhabited

namespace Config

/-- The TTL of writes that carry none. -/
def defaultTtl (c : Config) : Duration := c.defaultUnit.toDuration c.defaultAmount

/-- The default TTL in whole milliseconds. -/
def defaultMillis (c : Config) : Millis := c.defaultUnit.toMillis c.defaultAmount

/-- The critical duration in whole milliseconds. -/
def criticalMillis (c : Config) : Millis := c.criticalUnit.toMillis c.criticalAmount

/-- Whether writes with the default TTL are persisted. -/
def isDefaultWorthy (c : Config) : Bool := c.criticalMillis ≤ c.defaultMillis

/-- Whether a write with this TTL, or with the default one, deserves a durable record. -/
def isWorthy (c : Config) (ttl : Option Duration) : Bool :=
  match ttl with
  | none => c.isDefaultWorthy
  | some ttl => c.criticalMillis ≤ ttl.millis

/-- Whether changes are applied by a worker: because the configuration says so, or because the
backend waits for a disk. -/
def isOffThread (c : Config) : Bool := c.async || c.backend.blocks

end Config

/-- The choices made explicitly before a configuration is sealed. -/
structure ConfigChoices where
  defaultAmount : Option Nat := none
  defaultUnit : Option TimeUnit := none
  persistent : Option Bool := none
  async : Option Bool := none
  criticalAmount : Option Nat := none
  criticalUnit : Option TimeUnit := none
  policy : Option ExpiryPolicy := none
  backend : Option BackendKind := none
deriving Inhabited

namespace ConfigChoices

/-- A choice, else a property, else the default. -/
def resolve {α : Type} (properties : Properties) (choice : Option α) (name : String)
    (read : String → Option α) (fallback : α) : α :=
  ((choice <|> properties.read? read name)).getD fallback

/-- The configuration of the choices, the properties and the defaults. -/
def sealWith (c : ConfigChoices) (p : Properties) : Config :=
  let standard : Config := {}
  let amount := Text.natural? UInt64.size
  let unit := fun text => Text.chosen? (TimeUnit.ofText text)
  { defaultAmount := resolve p c.defaultAmount "DEFAULT_DURATION" amount standard.defaultAmount
    defaultUnit := resolve p c.defaultUnit "DEFAULT_DURATION_UNIT" unit standard.defaultUnit
    persistent := resolve p c.persistent "ENABLE_PERSISTENCE" Text.bool? standard.persistent
    async := resolve p c.async "ENABLE_PERSISTENCE_ASYNC" Text.bool? standard.async
    criticalAmount := resolve p c.criticalAmount "CRITICAL_DURATION" amount standard.criticalAmount
    criticalUnit := resolve p c.criticalUnit "CRITICAL_DURATION_UNIT" unit standard.criticalUnit
    policy := resolve p c.policy "EXPIRY_POLICY" (fun text => Text.chosen? (ExpiryPolicy.ofText text))
      standard.policy
    backend := resolve p c.backend "SOLVER" (fun text => Text.chosen? (BackendKind.ofText text))
      standard.backend }

end ConfigChoices

end ExpiringCache
