import ExpiringCache.Bytes
import ExpiringCache.Json.Token
import ExpiringCache.Text.Split
import ExpiringCache.Text.Utf8

/-!
# Paths

The target of a request is a path and perhaps a query, which is not looked at. A path is cut into
segments before escapes are resolved, so an escaped slash belongs to its segment. A percent sign
that two hexadecimal digits do not follow stands for itself.
-/

namespace ExpiringCache.Http

/-- The segments of a target's path, as they are written. A path starts with a slash; what stands
before it is the empty first segment, which is left out. -/
def segments (target : String) : List String :=
  let path := target.toList.takeWhile fun c => c ≠ '?' && c ≠ '#'
  (Text.split '/' (String.ofList path)).tail

/-- Bytes with percent escapes resolved. -/
def resolveEscapes : Bytes → Bytes
  | b :: high :: low :: rest =>
    match Json.Token.hexDigit? high, Json.Token.hexDigit? low with
    | some h, some l =>
      if b = Json.Token.byte '%' then UInt8.ofNat (h * 16 + l) :: resolveEscapes rest
      else b :: resolveEscapes (high :: low :: rest)
    | _, _ => b :: resolveEscapes (high :: low :: rest)
  | rest => rest

/-- The text a segment stands for, if it is one. -/
def segmentText? (segment : String) : Option String :=
  Utf8.decode? (resolveEscapes (Utf8.encode segment))

end ExpiringCache.Http
