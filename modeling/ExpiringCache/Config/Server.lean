import ExpiringCache.Config.Property
import ExpiringCache.Text.Split

/-!
# The configuration of a server

Where a server listens, how often it sweeps, where its snapshot is, and which listeners it binds,
as the environment gives them.
-/

namespace ExpiringCache

/-- The configuration of a server. -/
structure ServerConfig where
  listenPort : Nat := 3000
  /-- The time between sweeps, in seconds. -/
  sweepInterval : Nat := 1
  /-- The folder of the snapshot. -/
  dataFolder : String := "./data"
  /-- The names of the expiration listeners. -/
  expirationListeners : List String := ["logging"]
  /-- The names of the recovery listeners. -/
  recoveryListeners : List String := ["replay"]
deriving DecidableEq

namespace ServerConfig

/-- The names in a text that separates them by commas, without blanks around them; empty names do
not count. -/
def splitNames (text : String) : List String :=
  ((Text.split ',' text).map Text.trim).filter (· ≠ "")

/-- The configuration that an environment gives. -/
def ofEnvironment (env : Properties) : ServerConfig :=
  let standard : ServerConfig := {}
  { listenPort := (env.read? (Text.natural? UInt16.size) "SERVER_PORT").getD standard.listenPort
    sweepInterval := (env.read? (Text.natural? UInt64.size) "CLEANUP_INTERVAL").getD
      standard.sweepInterval
    dataFolder := (env.find? "DATA_DIR").getD standard.dataFolder
    expirationListeners := ((env.find? "EXPIRATION_LISTENERS").map splitNames).getD
      standard.expirationListeners
    recoveryListeners := ((env.find? "RECOVERY_LISTENERS").map splitNames).getD
      standard.recoveryListeners }

end ServerConfig

end ExpiringCache
