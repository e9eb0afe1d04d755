import OlapClient.Dictionary
import OlapClient.Text.Blank
import OlapClient.Text.Utf8

/-!
# Tables of keys and values

A small part of SQL: making and dropping a table, looking up a column by another one, perhaps with
the row taken out, and inserting a row of two parameters. All values are bytes. A row of a key that
is there already is refused or replaces the old one.
-/

namespace OlapClient.Sql

/-! ### Words -/

/-- The characters of names and parameters. -/
def isWordChar (c : Char) : Bool := c.isAlphanum || c == '_' || c == '?'

/-- The word under way, whose last character stands first, if there is one. -/
def finished (current : List Char) : List String :=
  if current.isEmpty then [] else [String.ofList (current.reverse.map Char.toLower)]

/-- The words of a text in lower case; every other character that is not blank is a word. -/
def wordsFrom (current : List Char) : List Char → List String
  | [] => finished current
  | c :: cs =>
    if isWordChar c then wordsFrom (c :: current) cs
    else finished current ++ (if Text.isBlank c then [] else [c.toString]) ++ wordsFrom [] cs

/-- The words of a text. -/
def words (s : String) : List String := wordsFrom [] s.toList

/-- Words that can be names. -/
def isName (word : String) : Bool :=
  match word.toList with
  | c :: cs => (c.isAlpha || c == '_') && cs.all fun c => isWordChar c && c != '?'
  | [] => false

/-! ### Statements -/

/-- A column of a table. -/
structure Column where
  name : String
  isKey : Bool
  /-- Whether every row has to have a value for it. -/
  isRequired : Bool
  deriving DecidableEq, Repr

/-- A statement. -/
inductive Statement where
  | createTable (table : String) (ifMissing : Bool) (columns : List Column)
  | dropTable (table : String) (ifPresent : Bool)
  /-- A column of the row whose key column equals the parameter. -/
  | select (column table keyColumn : String)
  /-- The same, and all such rows are deleted. -/
  | take (column table keyColumn : String)
  /-- A row with the first parameter in one column and the second in another. -/
  | insert (table : String) (replace : Bool) (keyColumn valueColumn : String)
  deriving DecidableEq, Repr

/-- A column from its definition: a name, and whether it is the primary key or required. -/
def column? : List String → Option Column
  | name :: constraints =>
    if isName name then some ⟨name, constraints.contains "primary", constraints.contains "not"⟩
    else none
  | [] => none

/-- The parts of a list between commas, up to the parenthesis that ends the words. -/
def parts (current : List String) : List String → Option (List (List String))
  | [")"] => some [current.reverse]
  | "," :: rest => (parts [] rest).map (current.reverse :: ·)
  | word :: rest => parts (word :: current) rest
  | [] => none

/-- A statement that makes a table. -/
def createTable? (table : String) (ifMissing : Bool) (definitions : List String) :
    Option Statement := do
  let columns ← (← parts [] definitions).mapM column?
  if isName table then return .createTable table ifMissing columns else none

/-- A statement, if all its names can be names. -/
def named (names : List String) (s : Statement) : Option Statement :=
  if names.all isName then some s else none

/-- The statement of a list of words. -/
def statement? : List String → Option Statement
  | "create" :: "table" :: "if" :: "not" :: "exists" :: table :: "(" :: rest =>
    createTable? table true rest
  | "create" :: "table" :: table :: "(" :: rest => createTable? table false rest
  | ["drop", "table", "if", "exists", table] => named [table] (.dropTable table true)
  | ["drop", "table", table] => named [table] (.dropTable table false)
  | ["select", column, "from", table, "where", key, "=", "?1"] =>
    named [column, table, key] (.select column table key)
  | ["delete", "from", table, "where", key, "=", "?1", "returning", column] =>
    named [column, table, key] (.take column table key)
  | ["insert", "or", "replace", "into", table, "(", key, ",", value, ")", "values", "(", "?1", ",",
      "?2", ")"] =>
    named [table, key, value] (.insert table true key value)
  | ["insert", "into", table, "(", key, ",", value, ")", "values", "(", "?1", ",", "?2", ")"] =>
    named [table, key, value] (.insert table false key value)
  | _ => none

/-- The statements of a text, one after each semicolon. -/
def statements (text : String) : List (List String) :=
  ((words text).splitOn ";").filter fun ws => !ws.isEmpty

/-- The first statement of a text. Nothing after it is read. -/
def first? (text : String) : Option Statement := (statements text).head?.bind statement?

/-! ### Databases -/

/-- A row: the values of its columns. A column without a value is empty. -/
abbrev Row := List (String × Bytes)

/-- A table. -/
structure Table where
  columns : List Column
  rows : List Row := []
  deriving DecidableEq, Repr

namespace Table

/-- Whether there is a column of this name. -/
def hasColumn (t : Table) (name : String) : Bool := t.columns.any fun c => c.name == name

/-- Whether the columns differ in their names and no two are the primary key. -/
def isDefined (t : Table) : Bool :=
  decide (t.columns.map Column.name).Nodup && (t.columns.filter Column.isKey).length ≤ 1

/-- The name of the primary key. -/
def keyColumn? (t : Table) : Option String := (t.columns.find? Column.isKey).map Column.name

/-- Whether two rows have the same primary key. -/
def sameKey (t : Table) (r s : Row) : Bool :=
  match t.keyColumn? with
  | none => false
  | some key => (r.lookup key).isSome && r.lookup key == s.lookup key

/-- Whether a row has this value in a column. -/
def holds (keyColumn : String) (key : Bytes) (row : Row) : Bool := row.lookup keyColumn == some key

/-- One more row, unless it lacks a required value. -/
def insert (t : Table) (replace : Bool) (row : Row) : Option Table :=
  if t.columns.any fun c => c.isRequired && (row.lookup c.name).isNone then none
  else if t.rows.any (t.sameKey row) then
    if replace then some { t with rows := t.rows.filter (fun r => !t.sameKey row r) ++ [row] }
    else none
  else some { t with rows := t.rows ++ [row] }

end Table

end OlapClient.Sql

namespace OlapClient

/-- Tables by name. -/
abbrev Database := Dictionary String Sql.Table

namespace Database

open Sql

/-- Makes or drops a table. -/
def define (db : Database) : Statement → Option Database
  | .createTable table ifMissing columns =>
    match db.find? table with
    | some _ => if ifMissing then some db else none
    | none =>
      let made : Table := { columns := columns }
      if made.isDefined then some (db.insert table made) else none
  | .dropTable table ifPresent =>
    match db.find? table with
    | some _ => some ⟨db.entries.filter fun entry => entry.1 != table⟩
    | none => if ifPresent then some db else none
  | _ => none

/-- What a run of statements leaves. -/
structure Outcome where
  content : Database
  /-- Whether something was written, be it taken back later. -/
  isWritten : Bool := false
  /-- Whether no statement failed. -/
  isDone : Bool := true

/-- Performs statements, which make and drop tables, up to the first that fails. What was done
before stays done. -/
def perform (db : Database) (mayChange : Bool) : List (List String) → Outcome
  | [] => { content := db }
  | ws :: rest =>
    match (statement? ws).bind db.define with
    | none => { content := db, isDone := false }
    | some after =>
      if after = db then perform db mayChange rest
      else if mayChange then { perform after mayChange rest with isWritten := true }
      else { content := db, isDone := false }

/-- The value in a column of a row; none if the row lacks it. -/
def valueIn (column : String) : Option Row → Option (Option Bytes)
  | none => some none
  | some row => (row.lookup column).map some

/-- The value that a query finds for a parameter, if it finds one. -/
def select (db : Database) (column table keyColumn : String) (key : Bytes) :
    Option (Option Bytes) := do
  let t ← db.find? table
  if t.hasColumn column && t.hasColumn keyColumn then
    valueIn column (t.rows.find? (Table.holds keyColumn key))
  else none

/-- What is left when the rows are deleted that a query finds for a parameter. -/
def delete (db : Database) (column table keyColumn : String) (key : Bytes) : Option Database := do
  let t ← db.find? table
  if t.hasColumn column && t.hasColumn keyColumn then
    let rows := t.rows.filter fun row => !Table.holds keyColumn key row
    return Dictionary.insert db table { t with rows := rows }
  else none

/-- Inserts a row of two parameters. The first counts if both are for one column. -/
def insertRow (db : Database) (text : String) (key value : Bytes) : Option Database :=
  match first? text with
  | some (.insert table replace keyColumn valueColumn) => do
    let t ← db.find? table
    if t.hasColumn keyColumn && t.hasColumn valueColumn then
      let t ← t.insert replace [(keyColumn, key), (valueColumn, value)]
      return Dictionary.insert db table t
    else none
  | _ => none

end Database

end OlapClient
