import OlapClient.Cache.Location
import OlapClient.Cache.Sql
import OlapClient.Cache.SqlLibrary

/-!
# A small database library

A library that runs the statements of `Sql`, on databases that nobody else sees and on databases in
files. A table store can be run with it; what is known of table stores does not depend on it.
-/

namespace OlapClient.Sql

/-! ### Databases as bytes -/

/-- A way to write values as bytes, and to read one from the front of some bytes. -/
structure Codec (α : Type) where
  encode : α → Bytes
  decode? : Bytes → Option (α × Bytes)

namespace Codec

variable {α β : Type}

/-- The number of bytes in front of the first zero. -/
def decodeCount? : Bytes → Option (Nat × Bytes)
  | [] => none
  | b :: rest =>
    if b = 0 then some (0, rest) else (decodeCount? rest).map fun (n, left) => (n + 1, left)

/-- So many values. -/
def decodeMany? (c : Codec α) : Nat → Bytes → Option (List α × Bytes)
  | 0, bytes => some ([], bytes)
  | n + 1, bytes => do
    let (first, bytes) ← c.decode? bytes
    let (others, bytes) ← decodeMany? c n bytes
    return (first :: others, bytes)

/-- A byte stands for itself. -/
def byte : Codec UInt8 where
  encode b := [b]
  decode?
    | b :: rest => some (b, rest)
    | [] => none

/-- A number is counted out. -/
def count : Codec Nat := ⟨fun n => List.replicate n 1 ++ [0], decodeCount?⟩

/-- Two values, one behind the other. -/
def pair (c : Codec α) (d : Codec β) : Codec (α × β) where
  encode ab := c.encode ab.1 ++ d.encode ab.2
  decode? bytes := do
    let (a, bytes) ← c.decode? bytes
    let (b, bytes) ← d.decode? bytes
    return ((a, b), bytes)

/-- Any number of values, behind their number. -/
def list (c : Codec α) : Codec (List α) where
  encode values := count.encode values.length ++ values.flatMap c.encode
  decode? bytes := do
    let (n, bytes) ← count.decode? bytes
    decodeMany? c n bytes

/-- Values that others stand for. -/
def via (c : Codec α) (put : β → α) (get : α → Option β) : Codec β where
  encode b := c.encode (put b)
  decode? bytes := do
    let (a, bytes) ← c.decode? bytes
    return (← get a, bytes)

def flag : Codec Bool := byte.via (fun isSet => if isSet then 1 else 0) fun b => some (b != 0)

def text : Codec String := (list byte).via Utf8.encode Utf8.decode?

def column : Codec Column :=
  (text.pair (flag.pair flag)).via (fun c => (c.name, c.isKey, c.isRequired))
    fun (name, isKey, isRequired) => some ⟨name, isKey, isRequired⟩

def row : Codec Row := list (text.pair (list byte))

def table : Codec Table :=
  ((list column).pair (list row)).via (fun t => (t.columns, t.rows))
    fun (columns, rows) => some ⟨columns, rows⟩

def database : Codec Database :=
  (list (text.pair table)).via (·.entries) fun entries => some ⟨entries⟩

end Codec

/-- The bytes at the front of a file that holds a database. They are no text. -/
def fileHeader : Bytes := Text.ascii "SQLite format 3" ++ [0, 0xFF]

/-- The file of a database. -/
def fileOf (db : Database) : FileEntry := .file (fileHeader ++ Codec.database.encode db)

/-- What a file holds as a database. A file without content is an empty database, and a single
byte does not count as content. Nothing behind the database is read. -/
def contentOf : FileEntry → Option Database
  | .file bytes =>
    if bytes.length ≤ 1 then some {}
    else if fileHeader.isPrefixOf bytes then
      (Codec.database.decode? (bytes.drop fileHeader.length)).map (·.1)
    else none
  | .directory => none

/-! ### Connections -/

/-- Where a database is. -/
inductive DatabasePlace where
  /-- A database that nobody else sees. -/
  | own (content : Database)
  | file (place : Place)
  deriving DecidableEq, Repr

/-- A connection to a database. -/
structure Connection where
  place : DatabasePlace
  /-- Whether the database may be changed. -/
  mayChange : Bool
  deriving DecidableEq, Repr

namespace Connection

/-- A connection to the database at a location. -/
def openAt? (files : Files) (location : String) : Option (Files × Connection) := do
  let location ← DatabaseLocation.parse? location
  match location.path with
  | none => return (files, ⟨.own {}, location.mayChange⟩)
  | some path =>
    let (files, place) ← location.openFile? files path
    return (files, ⟨.file place, location.mayChange && DatabaseLocation.allowsJournal place &&
      (files.guard place).writing.isNone⟩)

/-- The database as it is now. -/
def content? (c : Connection) (files : Files) : Option Database :=
  match c.place with
  | .own db => some db
  | .file place => (files.find? place).bind contentOf

/-- The files and the connection after the database was written. -/
def write (c : Connection) (files : Files) (db : Database) : Files × Connection :=
  match c.place with
  | .own _ => (files, { c with place := .own db })
  | .file place => (files.insert place (fileOf db), c)

/-- Runs the statements of a text. Without a statement the database is not even read. -/
def executeBatch (c : Connection) (files : Files) (text : String) :
    Files × Connection × Option Unit :=
  match statements text with
  | [] => (files, c, some ())
  | statements =>
    match c.content? files with
    | none => (files, c, none)
    | some db =>
      let outcome := db.perform c.mayChange statements
      let (files, c) := if outcome.isWritten then c.write files outcome.content else (files, c)
      (files, c, if outcome.isDone then some () else none)

/-- Runs a query, or deletes what it finds. -/
def queryRow (c : Connection) (files : Files) (text : String) (key : Bytes) :
    Files × Connection × Option (Option Bytes) :=
  match c.content? files, first? text with
  | some db, some (.select column table keyColumn) =>
    (files, c, db.select column table keyColumn key)
  | some db, some (.take column table keyColumn) =>
    match db.delete column table keyColumn key with
    | none => (files, c, none)
    | some changed =>
      if c.mayChange then
        let (files, c) := c.write files changed
        (files, c, db.select column table keyColumn key)
      else (files, c, none)
  | _, _ => (files, c, none)

/-- Inserts a row. -/
def execute (c : Connection) (files : Files) (text : String) (key value : Bytes) :
    Files × Connection × Option Unit :=
  match (c.content? files).bind fun db => db.insertRow text key value with
  | none => (files, c, none)
  | some changed =>
    if c.mayChange then
      let (files, c) := c.write files changed
      (files, c, some ())
    else (files, c, none)

end Connection

instance : SqlLibrary Connection where
  openInMemory files _ := (files, some ⟨.own {}, true⟩)
  openAt files _ location :=
    match Connection.openAt? files location with
    | some (files, c) => (files, some c)
    | none => (files, none)
  executeBatch c files _ text := c.executeBatch files text
  queryRow c files _ text key := c.queryRow files text key
  execute c files _ text key value := c.execute files text key value

end OlapClient.Sql
