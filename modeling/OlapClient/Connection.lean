import OlapClient.Cache.Recorder
import OlapClient.Statement.Basic

/-!
# Connections

A connection holds the settings that its statements share, and the id of its session at a
response cache, if it has one. Requests are built from the settings as they are at that moment.
-/

namespace OlapClient

/-- A connection to one server. -/
structure Connection where
  config : Config
  /-- The session at the response cache. -/
  session : Option String := none
  deriving DecidableEq, Repr

namespace Connection

/-- A connection whose cache issued a session id. -/
def attached (config : Config) (session : String) : Logged Connection :=
  ([.cacheAttached], { config := config, session := some session })

/-- Changes the catalog of later requests. -/
def setCatalog (c : Connection) (catalog : String) : Logged Connection :=
  ([.catalogChanged], { c with config := { c.config with catalog := some catalog } })

/-- Changes or clears the role of later requests. -/
def setRole (c : Connection) (role : Option String) : Connection :=
  { c with config := { c.config with role := role } }

/-- Changes or clears the locale of later requests. -/
def setLocale (c : Connection) (locale : Option Nat) : Connection :=
  { c with config := { c.config with locale := locale } }

/-- A new statement. -/
def newStatement (c : Connection) : Statement := .ofConfig c.config

/-- The connection as messages show it. -/
def shown (c : Connection) : String :=
  Text.record "Connection"
    [("config", c.config.shown), ("session_id", Text.optional Text.quote c.session)] true

end Connection

end OlapClient
