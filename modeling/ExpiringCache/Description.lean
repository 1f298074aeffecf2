import ExpiringCache.Config.Settings
import ExpiringCache.Listener.Basic
import ExpiringCache.Store
import ExpiringCache.Text.Quoted

/-!
# Descriptions

Byte strings, stores and configurations in one line each, for logs: a title, and after it what is
in them.
-/

namespace ExpiringCache

/-- A byte string in one line. -/
def Bytes.describe (bytes : Bytes) : String := "ByteIdentity(" ++ Text.shownBytes bytes ++ ")"

/-- Parts in braces after a title. -/
def titled (title : String) (parts : List String) : String :=
  title ++ " \x7b " ++ ", ".intercalate parts ++ " \x7d"

/-- A named part. -/
def labelled (label text : String) : String := label ++ ": " ++ text

/-- A store in one line, of which only the policy and the number of entries are told. -/
def Store.describe (s : Store) : String :=
  titled "CacheStore"
    [labelled "policy" s.policy.title, labelled "len" (toString s.entries.size), ".."]

/-- A configuration in one line, with the number of the listeners bound to it. -/
def Config.describe (c : Config) (ls : Listeners) : String :=
  titled "CacheConfiguration"
    [labelled "default_cache_duration" (toString c.defaultAmount),
      labelled "default_cache_duration_unit" c.defaultUnit.title,
      labelled "enable_persistence" (toString c.persistent),
      labelled "enable_persistence_async" (toString c.async),
      labelled "critical_duration" (toString c.criticalAmount),
      labelled "critical_duration_unit" c.criticalUnit.title,
      labelled "expiry_policy" c.policy.title,
      labelled "solver" c.backend.title,
      labelled "expiration_listeners" (toString ls.expiration.length),
      labelled "recovery_listeners" (toString ls.recovery.length)]

end ExpiringCache
