import OlapClient.Duration
import OlapClient.Text.Quoted

/-!
# Connection settings

What all statements of a connection share: the address of the server, the properties that go
into each request, and the time a new statement waits.
-/

namespace OlapClient

/-- Names and values, in the order in which they are visited. -/
abbrev Properties := List (String × String)

/-- The settings of a connection; absent ones are left to the server. -/
structure Config where
  url : String := ""
  dataSourceInfo : Option String := none
  catalog : Option String := none
  role : Option String := none
  /-- The number of a locale. -/
  locale : Option Nat := none
  /-- How long new statements wait for a response. -/
  timeout : Option Duration := none
  deriving DecidableEq, Repr

namespace Config

/-- The properties that requests carry, in their fixed order. -/
def requestProperties (c : Config) : Properties :=
  (c.dataSourceInfo.map fun v => ("DataSourceInfo", v)).toList ++
    (c.catalog.map fun v => ("Catalog", v)).toList ++
    (c.role.map fun v => ("Roles", v)).toList ++
    (c.locale.map fun v => ("LocaleIdentifier", toString v)).toList

/-- All properties, as a response cache sees them. -/
def properties (c : Config) : Properties := ("Url", c.url) :: c.requestProperties

/-- The settings as messages show them. -/
def shown (c : Config) : String :=
  Text.record "ConnectionConfig"
    [("url", Text.quote c.url),
      ("data_source_info", Text.optional Text.quote c.dataSourceInfo),
      ("catalog", Text.optional Text.quote c.catalog),
      ("role", Text.optional Text.quote c.role),
      ("locale", Text.optional toString c.locale),
      ("timeout", Text.optional Duration.text c.timeout)]
    false

end Config

end OlapClient
