import ExpiringCache.Listener.Basic

/-!
# Catalogs of listeners

A catalog says which listener a name in a configuration stands for. Names are bound all at once:
if one of them is not in the catalog, nothing is bound.
-/

namespace ExpiringCache

/-- The listeners that names stand for; the first entry of a name counts. -/
structure Catalog where
  expiration : List (String × ExpirationListener) := []
  recovery : List (String × RecoveryListener) := []
deriving Inhabited

namespace Catalog

/-- The catalog without names. -/
def empty : Catalog := {}

/-- The catalog of the listeners that come with the library. -/
def builtIn : Catalog :=
  { expiration := [("logging", .logging)], recovery := [("replay", .replay)] }

/-- Gives a name to an expiration listener, whatever it stood for before. -/
def registerExpiration (c : Catalog) (name : String) (l : ExpirationListener) : Catalog :=
  { c with expiration := (name, l) :: c.expiration }

/-- Gives a name to a recovery listener, whatever it stood for before. -/
def registerRecovery (c : Catalog) (name : String) (l : RecoveryListener) : Catalog :=
  { c with recovery := (name, l) :: c.recovery }

/-- What names stand for in a list, or the first name that stands for nothing. -/
def resolve {α : Type} (known : List (String × α)) : List String → Except String (List α)
  | [] => .ok []
  | name :: names =>
    match known.lookup name with
    | none => .error name
    | some l => (resolve known names).map (l :: ·)

/-- Adds the listeners that names stand for. Expiration names are looked up first, and nothing is
added before every name is. -/
def bind (c : Catalog) (ls : Listeners) (expirationNames recoveryNames : List String) :
    Except CacheError Unit × Listeners :=
  match resolve c.expiration expirationNames with
  | .error name => (.error (.unbound .expiration name), ls)
  | .ok expiration =>
    match resolve c.recovery recoveryNames with
    | .error name => (.error (.unbound .recovery name), ls)
    | .ok recovery =>
      (.ok (), recovery.foldl Listeners.addRecovery (expiration.foldl Listeners.addExpiration ls))

end Catalog

end ExpiringCache
