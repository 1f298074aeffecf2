import ExpiringCache.Decimal.Binary64

/-!
# JSON values

The values that commands store. Numbers are integers where their text is one and small enough, and
binary64 numbers otherwise. The members of an object are in ascending order of their names, each
name once; `Json.object` brings any list of members into that form, the last of several members of
one name staying.
-/

namespace ExpiringCache

/-- A JSON value. -/
inductive Json where
  | null
  | bool (b : Bool)
  | int (n : Int)
  | float (x : Binary64)
  | str (text : String)
  | arr (items : List Json)
  | obj (members : List (String × Json))
deriving Inhabited

namespace Json

/-- Adds a member in its place, unless its name is there already. -/
def addMember (member : String × Json) : List (String × Json) → List (String × Json)
  | [] => [member]
  | first :: rest =>
    if member.1 < first.1 then member :: first :: rest
    else if member.1 = first.1 then first :: rest
    else first :: addMember member rest

/-- The object with these members; of several members of one name the last stays. -/
def object (members : List (String × Json)) : Json := .obj (members.foldr addMember [])

/-- The integers that stay integers: what fits in 64 bits, with a sign or without one. -/
def isIntegral (n : Int) : Bool := -0x8000_0000_0000_0000 ≤ n && n < UInt64.size

/-- A natural number as a value. -/
def nat (n : Nat) : Json := .int n

mutual

/-- How deep arrays and objects are nested: one for an empty array. -/
def depth : Json → Nat
  | .arr items => depthItems items + 1
  | .obj members => depthMembers members + 1
  | _ => 0

/-- The greatest depth among items. -/
def depthItems : List Json → Nat
  | [] => 0
  | item :: rest => max (depth item) (depthItems rest)

/-- The greatest depth among members. -/
def depthMembers : List (String × Json) → Nat
  | [] => 0
  | member :: rest => max (depth member.2) (depthMembers rest)

end

end Json

end ExpiringCache
