/-!
# Media types

Whether a content type says that a body is JSON: its type is `application`, and its subtype, or the
suffix of its subtype, is `json`, whatever its parameters are. The subtype ends at its last plus
sign, and the suffix starts there. A text that is no media type says nothing.
-/

namespace ExpiringCache.Http

/-- Whether a character may stand in a token. -/
def isTokenChar (c : Char) : Bool :=
  c.isAlphanum ||
    ['!', '#', '$', '%', '&', '\'', '*', '+', '-', '.', '^', '_', '\x60', '|', '~'].contains c

/-- A media type without its parameters. -/
structure MediaType where
  type : String
  subtype : String
  suffix : Option String
deriving DecidableEq

namespace MediaType

/-- What is being read of the parameters. -/
inductive Reading where
  /-- The name of a parameter, of which so many characters have been read. -/
  | name (length : Nat)
  /-- The value of a parameter, likewise. -/
  | value (length : Nat)
  /-- A value between quotes, likewise. -/
  | quoted (length : Nat)
  /-- What follows a closing quote. -/
  | afterQuote

/-- Whether characters are parameters, as they follow a semicolon. Blanks may stand before a name
and after a closing quote, and the last value may be empty. -/
def areParameters : Reading → List Char → Bool
  | .name length, [] => length == 0
  | .value _, [] | .afterQuote, [] => true
  | .quoted _, [] => false
  | .name length, c :: rest =>
    if c = ' ' ∧ length = 0 then areParameters (.name 0) rest
    else if isTokenChar c then areParameters (.name (length + 1)) rest
    else if c = '=' ∧ 0 < length then areParameters (.value 0) rest
    else false
  | .value length, c :: rest =>
    if c = '"' ∧ length = 0 then areParameters (.quoted 0) rest
    else if isTokenChar c then areParameters (.value (length + 1)) rest
    else if c = ';' ∧ 0 < length then areParameters (.name 0) rest
    else false
  | .quoted length, c :: rest =>
    if c = '"' ∧ 0 < length then areParameters .afterQuote rest
    else if ' ' ≤ c ∧ c ≤ '~' then areParameters (.quoted (length + 1)) rest
    else false
  | .afterQuote, c :: rest =>
    if c = ';' then areParameters (.name 0) rest
    else if c = ' ' then areParameters .afterQuote rest
    else false

/-- The subtype and the suffix of what stands between the slash and the parameters. A plus sign at
the front belongs to the subtype. -/
def splitSuffix (subtype : List Char) : List Char × Option (List Char) :=
  let after := (subtype.reverse.takeWhile (· ≠ '+')).reverse
  let before := subtype.take (subtype.length - after.length - 1)
  if after.length < subtype.length ∧ before ≠ [] then (before, some after) else (subtype, none)

/-- The media type a text stands for. -/
def ofText? (text : String) : Option MediaType :=
  let chars := text.toList
  let type := chars.takeWhile isTokenChar
  match chars.drop type.length with
  | '/' :: rest =>
    let subtype := rest.takeWhile isTokenChar
    let after := rest.drop subtype.length
    let closed :=
      match after with
      | [] => true
      | ';' :: parameters => !subtype.isEmpty && areParameters (.name 0) parameters
      | _ => false
    if type.isEmpty || !closed then none
    else
      let (subtype, suffix) := splitSuffix subtype
      let lower := fun (cs : List Char) => String.ofList (cs.map Char.toLower)
      some ⟨lower type, lower subtype, suffix.map lower⟩
  | _ => none

/-- Whether the media type is one of JSON. -/
def isJson (m : MediaType) : Bool :=
  m.type == "application" && (m.subtype == "json" || m.suffix == some "json")

end MediaType

/-- Whether a content type says that a body is JSON. -/
def saysJson (contentType : Option String) : Bool :=
  match contentType.bind MediaType.ofText? with
  | some m => m.isJson
  | none => false

end ExpiringCache.Http
