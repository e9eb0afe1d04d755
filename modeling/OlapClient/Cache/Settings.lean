import OlapClient.Cache.Error
import OlapClient.Config
import OlapClient.Dictionary
import OlapClient.Text.Blank
import OlapClient.Text.Number

/-!
# Settings of a response cache

A cache is set up by properties. Keys count in any case, and blanks around keys and values do
not; a property that is blank is as good as absent, and unknown ones are ignored.
-/

namespace OlapClient

/-- Where a cache keeps its exchanges. -/
inductive BackendKind where
  | memory
  | file
  | table
  deriving DecidableEq, Repr

/-- The word for a kind of storage. -/
def BackendKind.word : BackendKind → String
  | memory => "memory"
  | file => "file"
  | table => "table"

/-- Settings of storage in memory. -/
structure MemorySettings where
  capacity : Nat := 1000
  /-- How long an exchange stays valid. -/
  lifetime : Duration := .ofSeconds 3600
  deriving DecidableEq, Repr

/-- Settings of storage in files. -/
structure FileSettings where
  /-- The file that is replayed. -/
  input : Option String := none
  /-- The file that is recorded to; without it, nothing can be recorded. -/
  output : Option String := none
  deriving DecidableEq, Repr

/-- The parts of a path. Repeated and closing slashes count for nothing, and neither do points
that stand for the directory itself, except at the front. -/
def pathParts (path : String) : List String :=
  match path.splitOn "/" with
  | first :: rest => first :: rest.filter fun name => !name.isEmpty && name != "."
  | [] => []

/-- Whether two settings name the same files. -/
def FileSettings.agree (a b : FileSettings) : Bool :=
  a.input.map pathParts == b.input.map pathParts && a.output.map pathParts == b.output.map pathParts

/-- Settings of storage in a table. -/
structure TableSettings where
  driver : String := "sqlite"
  url : String := ":memory:"
  user : Option String := none
  password : Option String := none
  createSql : String :=
    "CREATE TABLE IF NOT EXISTS xmla_cache (request BLOB PRIMARY KEY, response BLOB NOT NULL)"
  dropSql : String := "DROP TABLE IF EXISTS xmla_cache"
  /-- The query for a response; its parameter is the key. -/
  selectSql : String := "SELECT response FROM xmla_cache WHERE request = ?1"
  /-- The statement that stores an exchange; its parameters are key and response. -/
  insertSql : String := "INSERT OR REPLACE INTO xmla_cache (request, response) VALUES (?1, ?2)"
  deriving DecidableEq, Repr

/-- Settings of a response cache. -/
structure CacheSettings where
  /-- Whether exchanges are stored. -/
  record : Bool := false
  /-- Whether requests are answered from stored exchanges. -/
  play : Bool := false
  /-- Whether storage starts empty. -/
  init : Bool := false
  /-- Whether requests are named by their digest. -/
  digestKeys : Bool := false
  backend : BackendKind := .memory
  memory : MemorySettings := {}
  file : FileSettings := {}
  table : TableSettings := {}
  deriving DecidableEq, Repr

namespace CacheSettings

/-- Whether two settings mean the same. -/
def agree (a b : CacheSettings) : Bool := a.file.agree b.file && { a with file := b.file } == b

/-- A cache that stores or answers. -/
def isEnabled (s : CacheSettings) : Bool := s.record || s.play

/-! ### Properties -/

/-- A text with its ASCII letters in upper case. -/
def upperCase (s : String) : String := String.ofList (s.toList.map Char.toUpper)

/-- A text with its ASCII letters in lower case. -/
def lowerCase (s : String) : String := String.ofList (s.toList.map Char.toLower)

/-- The properties by their plain keys. -/
abbrev Normalized := Dictionary String String

/-- Properties in the order in which they are visited, by their plain keys. -/
def normalize (properties : Properties) : Normalized :=
  .ofList (properties.map fun entry => (upperCase (Text.trim entry.1), Text.trim entry.2))

/-- The value of a property that is not blank. -/
def text? (p : Normalized) (key : String) : Option String :=
  (p.find? key).filter fun value => !value.isEmpty

/-- A property that is true or false; it is false if it is absent. -/
def flag (p : Normalized) (key : String) : Except SettingsFault Bool :=
  match (p.find? key).map lowerCase with
  | none => .ok false
  | some value =>
    if ["", "false", "no", "0"].contains value then .ok false
    else if ["true", "yes", "1"].contains value then .ok true
    else .error (.notBoolean key value)

/-- A property that is a number, if it is present. -/
def number? (p : Normalized) (key : String) : Except SettingsFault (Option Nat) :=
  match text? p key with
  | none => .ok none
  | some value =>
    match Text.count? value with
    | some n => .ok (some n)
    | none => .error (.notNumber key value)

/-- The storage that a property names. -/
def namedBackend (name : String) : Except SettingsFault BackendKind :=
  let name := lowerCase name
  if name = "memory" then .ok .memory
  else if name = "file" then .ok .file
  else if name = "table" then .ok .table
  else .error (.unknownBackend name)

/-- The storage that the other properties suggest. -/
def impliedBackend (p : Normalized) : BackendKind :=
  if (text? p "FILE_INPUT").isSome || (text? p "FILE_OUTPUT").isSome then .file
  else if (text? p "TABLE_URL").isSome then .table
  else .memory

/-- The settings of a table. -/
def tableSettings (p : Normalized) : TableSettings :=
  let default : TableSettings := {}
  { driver := ((text? p "TABLE_DRIVER").map lowerCase).getD default.driver
    url := (text? p "TABLE_URL").getD default.url
    user := text? p "TABLE_USER"
    password := text? p "TABLE_PASSWORD"
    createSql := (text? p "TABLE_CREATE_SQL").getD default.createSql
    dropSql := (text? p "TABLE_DROP_SQL").getD default.dropSql
    selectSql := (text? p "TABLE_SELECT_SQL").getD default.selectSql
    insertSql := (text? p "TABLE_INSERT_SQL").getD default.insertSql }

/-- The settings of normalized properties. -/
def ofNormalized (p : Normalized) : Except SettingsFault CacheSettings := do
  let record ← flag p "RECORD"
  let play ← flag p "PLAY"
  let init ← flag p "INIT"
  let digestKeys ← flag p "DIGEST_KEYS"
  let capacity ← number? p "MEMORY_SIZE"
  let lifetime ← number? p "MEMORY_TTL_SECS"
  let backend ← match text? p "BACKEND" with
    | some name => namedBackend name
    | none => pure (impliedBackend p)
  let memory : MemorySettings := {}
  return {
    record := record
    play := play
    init := init
    digestKeys := digestKeys
    backend := backend
    memory :=
      { capacity := capacity.getD memory.capacity
        lifetime := (lifetime.map Duration.ofSeconds).getD memory.lifetime }
    file := { input := text? p "FILE_INPUT", output := text? p "FILE_OUTPUT" }
    table := tableSettings p }

/-- The settings of properties in the order in which they are visited. -/
def ofProperties (properties : Properties) : Except SettingsFault CacheSettings :=
  ofNormalized (normalize properties)

/-! ### Display -/

/-- The settings of storage in memory as messages show them. -/
def shownMemory (s : MemorySettings) : String :=
  Text.record "MemorySettings"
    [("max_entries", toString s.capacity), ("ttl", s.lifetime.text)] false

/-- The settings of storage in files as messages show them. -/
def shownFile (s : FileSettings) : String :=
  Text.record "FileSettings"
    [("input", Text.optional Text.quote s.input), ("output", Text.optional Text.quote s.output)]
    false

/-- The settings of storage in a table as messages show them. -/
def shownTable (s : TableSettings) : String :=
  Text.record "TableSettings"
    [("driver", Text.quote s.driver), ("url", Text.quote s.url),
      ("user", Text.optional Text.quote s.user), ("password", Text.optional Text.quote s.password),
      ("create_sql", Text.quote s.createSql), ("drop_sql", Text.quote s.dropSql),
      ("select_sql", Text.quote s.selectSql), ("insert_sql", Text.quote s.insertSql)]
    false

/-- The kind of storage as messages show it. -/
def shownBackend : BackendKind → String
  | .memory => "Memory"
  | .file => "File"
  | .table => "Table"

/-- The settings as messages show them. -/
def shown (s : CacheSettings) : String :=
  Text.record "CacheSettings"
    [("record", toString s.record), ("play", toString s.play), ("init", toString s.init),
      ("digest_keys", toString s.digestKeys), ("backend", shownBackend s.backend),
      ("memory", shownMemory s.memory), ("file", shownFile s.file), ("table", shownTable s.table)]
    false

end CacheSettings

end OlapClient
