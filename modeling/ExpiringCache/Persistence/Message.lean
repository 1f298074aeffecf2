import ExpiringCache.Codec

/-!
# Messages

What listeners are told about an expired entry: its key and value, as bytes and decoded. There is
no message unless both can be decoded.
-/

namespace ExpiringCache

/-- An expired entry as listeners are told about it. -/
structure Message where
  byteKey : Bytes
  byteValue : Bytes
  key : String
  /-- The value; none if the entry had none. -/
  value : Option Json

/-- The message about an entry; of two faults that of the key is the answer. -/
def Message.ofBytes (key value : Bytes) : Except CodecError Message :=
  match Codec.decodeKey key with
  | .error e => .error e
  | .ok text =>
    match Codec.decodeValue value with
    | .error e => .error e
    | .ok decoded => .ok ⟨key, value, text, decoded⟩

end ExpiringCache
