import ExpiringCache.Text.Utf8
import ExpiringCache.Durable.Kind

/-!
# Errors

What can go wrong, by cause. Commands fail with a `CacheError`. What goes wrong on the durable side
is a `DurableError`, which no command ever answers. The wording is in the `message` functions and
nowhere else.
-/

namespace ExpiringCache

/-- The most bytes a key may have. -/
def maxKeyLength : Nat := 256

/-- The most bytes a value may have. -/
def maxValueSize : Nat := 1048576

/-- Why a request is refused. -/
inductive Refusal where
  | emptyKey
  /-- The key has more bytes than the store takes. -/
  | longKey
  /-- The value has more bytes than the store takes. -/
  | largeValue
  /-- The key of a request body is longer than the store takes. -/
  | longBodyKey
  | zeroTtl
  | other (reason : String)
deriving DecidableEq

/-- The text of a refusal. -/
def Refusal.message : Refusal → String
  | .emptyKey => "Key cannot be empty"
  | .longKey => "Key exceeds maximum length of " ++ toString maxKeyLength ++ " bytes"
  | .largeValue => "Value exceeds maximum size of " ++ toString maxValueSize ++ " bytes"
  | .longBodyKey => "Key exceeds maximum length of " ++ toString maxKeyLength ++ " characters"
  | .zeroTtl => "TTL must be positive"
  | .other reason => reason

/-- Why bytes are no key or no value. -/
inductive CodecError where
  | key (fault : Utf8.Fault)
  | value
deriving DecidableEq

/-- The text of a codec error. -/
def CodecError.message : CodecError → String
  | .key fault => "key is not valid UTF-8: " ++ fault.message
  | .value => "malformed value"

/-- What a listener listens to. -/
inductive Occasion where
  | expiration
  | recovery
deriving DecidableEq

/-- The name of an occasion. -/
def Occasion.name : Occasion → String
  | .expiration => "expiration"
  | .recovery => "recovery"

/-- Why a command failed. -/
inductive CacheError where
  | notFound (key : String)
  | invalidRequest (refusal : Refusal)
  | codec (error : CodecError)
  /-- A listener's name is not in the catalog. -/
  | unbound (occasion : Occasion) (name : String)
  | config (reason : String)
  | internal (reason : String)
deriving DecidableEq

/-- The text of an error. -/
def CacheError.message : CacheError → String
  | .notFound key => "Key not found: " ++ key
  | .invalidRequest refusal => "Invalid request: " ++ refusal.message
  | .codec error => error.message
  | .unbound occasion name => "Cannot bind " ++ occasion.name ++ " listener '" ++ name ++ "'"
  | .config reason => "Invalid configuration: " ++ reason
  | .internal reason => "Internal error: " ++ reason

/-- Why the durable side failed. -/
inductive DurableError where
  /-- There is no backend of the kind. -/
  | noBackend (kind : BackendKind)
  /-- Reading or writing failed. -/
  | io
  /-- The snapshot is malformed. -/
  | snapshot
  /-- The worker has stopped. -/
  | stopped
deriving DecidableEq

/-- The text of an error of the durable side. -/
def DurableError.message : DurableError → String
  | .noBackend kind => "no persistence solver registered for " ++ kind.title
  | .io => "persistence I/O failed"
  | .snapshot => "persistence snapshot is malformed"
  | .stopped => "persistence worker is not running"

end ExpiringCache
