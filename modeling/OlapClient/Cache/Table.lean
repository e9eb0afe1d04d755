import OlapClient.Cache.Memory
import OlapClient.Cache.Settings
import OlapClient.Cache.SqlLibrary
import OlapClient.Log

/-!
# Exchanges in a table

A table store has a database library run the statements of its templates. Exchanges are stored by
key alone, since the statements have no parameter for the address.
-/

namespace OlapClient

/-- Exchanges kept in a table. -/
structure TableStore (κ : Type) where
  connection : κ
  selectSql : String
  insertSql : String
  deriving DecidableEq, Repr

namespace TableStore

variable {κ : Type} [SqlLibrary κ]

/-- The result of a call on the database. -/
def result {α : Type} : Option α → Except CacheError α
  | some a => .ok a
  | none => .error .database

/-! ### Opening -/

/-- The location of the database that an address names. -/
def location (url : String) : String :=
  if url.startsWith "sqlite:" then String.ofList (url.toList.drop 7) else url

/-- Whether a location names no file. -/
def isPrivate (location : String) : Bool := location == "" || location == ":memory:"

/-- Connects to the database that an address names. -/
def connect (files : Files) (now : Moment) (url : String) : Files × Option κ :=
  if isPrivate (location url) then SqlLibrary.openInMemory files now
  else SqlLibrary.openAt files now (location url)

/-- Drops the table on demand and makes it. -/
def prepare (connection : κ) (files : Files) (now : Moment) (s : TableSettings) (init : Bool) :
    Logged (Files × Option κ) :=
  let (files, connection, dropped) :=
    if init then SqlLibrary.executeBatch connection files now s.dropSql
    else (files, connection, some ())
  match dropped with
  | none => ([], files, none)
  | some () =>
    let (files, connection, made) := SqlLibrary.executeBatch connection files now s.createSql
    (if init then [.tableDropped] else [], files, made.map fun _ => connection)

/-- Opens a table store. Credentials are ignored. -/
def openTable (files : Files) (now : Moment) (s : TableSettings) (init : Bool) :
    Logged (Files × Except CacheError (TableStore κ)) :=
  if s.driver ≠ "sqlite" then ([], files, .error (.unsupported (.tableDriver s.driver)))
  else
    let warnings :=
      if s.user.isSome || s.password.isSome then [LogEvent.credentialsIgnored] else []
    match connect files now s.url with
    | (files, none) => (warnings, files, .error .database)
    | (files, some connection) =>
      let (events, files, prepared) := prepare connection files now s init
      (warnings ++ events, files, result (prepared.map (⟨·, s.selectSql, s.insertSql⟩)))

/-! ### Calls -/

/-- Looks up a response. -/
def lookup (t : TableStore κ) (files : Files) (now : Moment) (key : ExchangeKey) :
    Files × TableStore κ × Except CacheError (Option Bytes) :=
  let (files, connection, found) :=
    SqlLibrary.queryRow t.connection files now t.selectSql key.2
  (files, { t with connection := connection }, result found)

/-- Stores a response. -/
def store (t : TableStore κ) (files : Files) (now : Moment) (key : ExchangeKey)
    (response : Bytes) : Files × TableStore κ × Except CacheError Unit :=
  let (files, connection, stored) :=
    SqlLibrary.execute t.connection files now t.insertSql key.2 response
  (files, { t with connection := connection }, result stored)

end TableStore

end OlapClient
