import OlapClient.Response

/-!
# Rowsets

A flat result: columns, and rows with one entry for each column. The columns come from the
schema of the result if it has one, else from the fields of its rows. A field that occurs
twice in a row counts with its last text.
-/

namespace OlapClient

/-- What is known about an execution besides its result. -/
structure Statistics where
  /-- Whether the response came from the response cache. -/
  cacheHit : Bool := false
  /-- The size of the response. -/
  responseBytes : Nat := 0
  deriving DecidableEq, Repr

/-- A column of a rowset. -/
structure Column where
  /-- The name of the fields of the column. -/
  name : String
  /-- The name to display. -/
  label : String
  /-- The declared type. -/
  type : Option String
  deriving DecidableEq, Repr

/-- A flat result. -/
structure Rowset where
  columns : List Column
  /-- Rows with an entry for each column, absent where the row lacks the field. -/
  rows : List (List (Option String))
  statistics : Statistics := {}
  deriving DecidableEq, Repr

namespace Rowset

open Markup

/-! ### Access -/

/-- The number of rows. -/
def size (r : Rowset) : Nat := r.rows.length

/-- A rowset without rows. -/
def isEmpty (r : Rowset) : Bool := r.rows.isEmpty

/-- The index of the first column with this label or name. -/
def columnIndex? (r : Rowset) (name : String) : Option Nat :=
  r.columns.findIdx? fun c => c.label == name || c.name == name

/-- The entry of a column in a row. -/
def value? (r : Rowset) (row : Nat) (column : String) : Option String := do
  let index ← r.columnIndex? column
  let entries ← r.rows[row]?
  let entry ← entries[index]?
  entry

/-! ### Columns -/

/-- The declared row type of a result. -/
def rowType? (root : Element) : Option Element := do
  let schema ← root.child? "schema"
  (schema.childrenNamed "complexType").find? fun t => t.attribute? "name" == some "row"

/-- The column that a declaration describes, if it has a name. -/
def declaredColumn? (e : Element) : Option Column :=
  (e.attribute? "name").map fun name =>
    { name := name
      label := (e.attribute? "field").getD (Response.decodeName name)
      type := e.attribute? "type" }

/-- The columns that a row type declares. -/
def declaredColumns (rowType : Element) : List Column :=
  match rowType.descendant? "sequence" with
  | some sequence => (sequence.childrenNamed "element").filterMap declaredColumn?
  | none => []

/-- The column of fields that no schema declares. -/
def plainColumn (name : String) : Column := ⟨name, Response.decodeName name, none⟩

/-- The columns with that of one more field, unless it is there already. -/
def addField (columns : List Column) (field : Element) : List Column :=
  if columns.any fun c => c.name == field.name then columns else columns ++ [plainColumn field.name]

/-- The columns of the fields of all rows, in the order of their first appearance. -/
def inferredColumns (rows : List Element) : List Column :=
  (rows.flatMap (·.children)).foldl addField []

/-- The columns of a result. -/
def columnsOf (root : Element) : List Column :=
  match rowType? root with
  | some rowType => declaredColumns rowType
  | none => inferredColumns (root.childrenNamed "row")

/-! ### Rows -/

/-- A row with the text of one more field. -/
def setField (columns : List Column) (row : List (Option String)) (field : Element) :
    Except ClientError (List (Option String)) :=
  match columns.findIdx? fun c => c.name == field.name with
  | some index => .ok (row.set index (some field.text))
  | none => .error (.response (.undeclaredField field.name))

/-- The entries of a row. -/
def rowOf (columns : List Column) (row : Element) : Except ClientError (List (Option String)) :=
  row.children.foldlM (setField columns) (List.replicate columns.length none)

/-- The rowset that a result holds. -/
def ofRoot (root : Element) : Except ClientError Rowset := do
  let columns := columnsOf root
  let rows ← (root.childrenNamed "row").mapM (rowOf columns)
  return { columns := columns, rows := rows }

/-- The rowset that a response holds. -/
def ofResponse (bytes : Bytes) : Except ClientError Rowset := do
  let root ← Response.payload bytes
  ofRoot root

end Rowset

end OlapClient
