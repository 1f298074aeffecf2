import ExpiringCache.Clock
import ExpiringCache.Error
import ExpiringCache.Http.MediaType
import ExpiringCache.Json.Form

/-!
# Requests

A request as a server sees it, and the bodies that requests have. A body is looked at only as far
as its first value, which has to say it is JSON, has to be JSON, and has to be what the endpoint
asks for; what follows the value does not matter.
-/

namespace ExpiringCache.Http

/-- The method of a request. -/
inductive Verb where
  | get
  | head
  | put
  | post
  | delete
  | options
  | other (name : String)
deriving DecidableEq

namespace Verb

/-- The name of a method. -/
def name : Verb → String
  | .get => "GET"
  | .head => "HEAD"
  | .put => "PUT"
  | .post => "POST"
  | .delete => "DELETE"
  | .options => "OPTIONS"
  | .other name => name

/-- The method of this name. -/
def ofName (text : String) : Verb :=
  ([.get, .head, .put, .post, .delete, .options].find? (·.name == text)).getD (.other text)

end Verb

/-- A request. -/
structure Request where
  verb : Verb
  target : String
  contentType : Option String := none
  body : Bytes := []

/-! ## Bodies -/

/-- A natural number of 64 bits. -/
def bound64 : Nat := UInt64.size

/-- Reads a value that is part of a body, which is one level of nesting itself. -/
def partValue (s : Bytes) : Json.Reading Json := Json.value (Json.maxDepth - 1) s

/-- Why the key of a body is refused, if so. -/
def keyRefusal? (key : String) : Option Refusal :=
  if key.isEmpty then some .emptyKey
  else if maxKeyLength < key.utf8ByteSize then some .longBodyKey
  else none

/-- The body of a request to store a value. -/
structure SetBody where
  key : String
  value : Json
  /-- The TTL in seconds; none for the default TTL. -/
  ttl : Option Nat

namespace SetBody

/-- The fields as far as they have been read. -/
structure Fields where
  key : Option String := none
  value : Option Json := none
  ttl : Option (Option Nat) := none

/-- How the body is read. -/
def form : Json.Form Fields SetBody where
  fields :=
    [Json.Field.make "key" false (·.key) (fun f x => { f with key := some x }) Json.text,
      Json.Field.make "value" false (·.value) (fun f x => { f with value := some x }) partValue,
      Json.Field.make "ttl" true (·.ttl) (fun f x => { f with ttl := some x })
        (Json.optional (Json.natural bound64))]
  blank := {}
  build f := do
    let key ← f.key
    let value ← f.value
    pure ⟨key, value, f.ttl.getD none⟩

/-- The TTL as a duration. -/
def duration? (body : SetBody) : Option Duration := body.ttl.map Duration.ofSeconds

/-- Why the body is refused, if so. -/
def refusal? (body : SetBody) : Option Refusal :=
  if body.ttl = some 0 then some .zeroTtl else keyRefusal? body.key

end SetBody

/-- The body of a request to swap a value. -/
structure ReplaceBody where
  key : String
  value : Json

namespace ReplaceBody

/-- The fields as far as they have been read. -/
structure Fields where
  key : Option String := none
  value : Option Json := none

/-- How the body is read. -/
def form : Json.Form Fields ReplaceBody where
  fields :=
    [Json.Field.make "key" false (·.key) (fun f x => { f with key := some x }) Json.text,
      Json.Field.make "value" false (·.value) (fun f x => { f with value := some x }) partValue]
  blank := {}
  build f := do
    let key ← f.key
    let value ← f.value
    pure ⟨key, value⟩

/-- Why the body is refused, if so. -/
def refusal? (body : ReplaceBody) : Option Refusal := keyRefusal? body.key

end ReplaceBody

/-- The body of a request to remove keys. -/
structure DeleteBody where
  keys : List String

/-- How the body is read. -/
def DeleteBody.form : Json.Form (Option (List String)) DeleteBody where
  fields := [Json.Field.make "keys" false id (fun _ x => some x) (Json.list Json.text)]
  blank := none
  build f := f.map DeleteBody.mk

/-- The body of a request to set a TTL. -/
structure TtlBody where
  /-- The TTL in seconds. -/
  ttl : Nat

namespace TtlBody

/-- How the body is read. -/
def form : Json.Form (Option Nat) TtlBody where
  fields := [Json.Field.make "ttl" false id (fun _ x => some x) (Json.natural bound64)]
  blank := none
  build f := f.map TtlBody.mk

/-- The TTL as a duration. -/
def duration (body : TtlBody) : Duration := Duration.ofSeconds body.ttl

/-- Why the body is refused, if so. -/
def refusal? (body : TtlBody) : Option Refusal := if body.ttl = 0 then some .zeroTtl else none

end TtlBody

end ExpiringCache.Http
