import ExpiringCache.Error
import ExpiringCache.Http.Timestamp
import ExpiringCache.Json.Basic
import ExpiringCache.Stats

/-!
# Responses

A response has a status and perhaps a JSON body. Every response may be read by any origin; the
answer to an OPTIONS request says so for every method, and a response for a path that is served
names the methods it is served for, where the method was not one of them.
-/

namespace ExpiringCache.Http

/-- A response. -/
structure Response where
  status : Nat
  body : Option Json := none
  /-- The methods the path is served for, where the response names them. -/
  allow : Option String := none
  /-- Whether the response names the methods that other origins may use: all of them. -/
  preflight : Bool := false

/-- The status of an error. -/
def errorStatus : CacheError → Nat
  | .notFound _ => 404
  | .invalidRequest _ | .codec _ => 400
  | .unbound _ _ | .config _ | .internal _ => 500

/-! ## Bodies -/

/-- The body of an error. -/
def errorBody (message : String) : Json := Json.object [("error", .str message)]

/-- The body with a value. -/
def valueBody (key : String) (value : Json) : Json :=
  Json.object [("key", .str key), ("value", value)]

/-- The body that says whether a value was stored. -/
def storedBody (key : String) (stored : Bool) : Json :=
  Json.object [("key", .str key), ("stored", .bool stored)]

/-- The body with the time a key has left, in milliseconds of 64 bits. -/
def ttlBody (key : String) (remaining : Duration) : Json :=
  Json.object [("key", .str key), ("ttl_ms", Json.nat (remaining.millis % UInt64.size))]

/-- The body that says that a TTL was set. -/
def updatedBody (key : String) : Json := Json.object [("key", .str key), ("updated", .bool true)]

/-- The body that says how many keys were removed. -/
def deletedBody (count : Nat) : Json := Json.object [("deleted", Json.nat count)]

/-- The body with what was removed. -/
def similarBody (start : String) (removed : List (String × Json)) : Json :=
  Json.object [("prefix", .str start), ("removed", .obj removed)]

/-- The body that says whether anything was removed. -/
def flushedBody (flushed : Bool) : Json := Json.object [("flushed", .bool flushed)]

/-- The body with the value that was there before. -/
def replacedBody (key : String) (previous : Json) : Json :=
  Json.object [("key", .str key), ("previous", previous)]

/-- The counters of a store. -/
def statsMembers (s : Stats) : List (String × Json) :=
  [("hits", Json.nat s.hits), ("misses", Json.nat s.misses),
    ("expirations", Json.nat s.expirations), ("total_entries", Json.nat s.totalEntries)]

/-- The body with the counters of a store and their rate. -/
def statsBody (s : Stats) : Json :=
  Json.object (statsMembers s ++ [("hit_rate", .float s.hitRate)])

/-- The body that says that the server is well. -/
def healthBody (now : Millis) : Json :=
  Json.object [("status", .str "healthy"), ("timestamp", .str (timestamp now))]

end ExpiringCache.Http
