import ExpiringCache.Error
import ExpiringCache.Json.Printer
import ExpiringCache.Json.Parser

/-!
# Keys and values as bytes

Keys are stored as their UTF-8 bytes and values as their JSON text. No bytes at all stand for an
absent value, which is not the same as bytes that are no value. A codec may refuse to write some
values; reading is the same for all codecs.
-/

namespace ExpiringCache

/-- A way of writing values: which of them it writes. -/
structure Codec where
  writes : Json → Bool

namespace Codec

/-- The codec that writes every value. -/
def json : Codec := ⟨fun _ => true⟩

/-- The bytes of a key. -/
def encodeKey (key : String) : Bytes := Utf8.encode key

/-- The key that bytes stand for. -/
def decodeKey (bytes : Bytes) : Except CodecError String :=
  match Utf8.decode bytes with
  | .ok key => .ok key
  | .error fault => .error (.key fault)

/-- The bytes of a value. -/
def encodeValue (codec : Codec) (value : Json) : Except CodecError Bytes :=
  if codec.writes value then .ok (Utf8.encode value.render) else .error .value

/-- The value that bytes stand for; none for no bytes. -/
def decodeValue (bytes : Bytes) : Except CodecError (Option Json) :=
  if bytes.isEmpty then .ok none
  else
    match Json.parse bytes with
    | .ok value => .ok (some value)
    | .error _ => .error .value

end Codec

end ExpiringCache
