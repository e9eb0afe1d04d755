import OlapClient.CellSet.Basic
import OlapClient.Interchange.Query

/-!
# Structured results

Rowsets, axes and cells as structured values. A double is written as the sixteen hexadecimal
digits of its bits, so that nothing is lost.
-/

namespace OlapClient.Interchange

open Value

/-- Statistics as a structured value. -/
def ofStatistics (s : Statistics) : Value :=
  object [("cache_hit", boolean s.cacheHit), ("response_bytes", natural s.responseBytes)]

/-! ### Rows -/

/-- A column as a structured value. -/
def ofColumn (c : Column) : Value :=
  object [("name", text c.name), ("label", text c.label), ("data_type", optional text c.type)]

/-- A rowset as a structured value. -/
def ofRowset (r : Rowset) : Value :=
  object [("columns", listOf ofColumn r.columns), ("rows", listOf (listOf (optional text)) r.rows),
    ("len", natural r.size), ("is_empty", boolean r.isEmpty), ("stats", ofStatistics r.statistics)]

/-! ### Axes -/

/-- A property map as a structured value. -/
def ofProperties (d : Dictionary String String) : Value :=
  object (d.entries.map fun entry => (entry.1, text entry.2))

/-- A member as a structured value. -/
def ofMember (m : Member) : Value :=
  object [("unique_name", text m.uniqueName), ("identifier", ofIdentifier m.identifier),
    ("caption", text m.caption), ("hierarchy", text m.hierarchy),
    ("level_unique_name", optional text m.levelUniqueName),
    ("level_depth", optional natural m.levelDepth),
    ("parent_unique_name", optional text m.parentUniqueName),
    ("display_info", optional number m.displayInfo), ("properties", ofProperties m.properties)]

/-- A position as a structured value. -/
def ofPosition (p : Position) : Value :=
  object [("ordinal", natural p.ordinal), ("members", listOf ofMember p.members)]

/-- The place of an axis as a structured value. -/
def ofAxisOrdinal : AxisOrdinal → Value
  | .filter => text "Filter"
  | .index n => variant "Index" (natural n)

/-- An axis as a structured value. -/
def ofAxis (a : Axis) : Value :=
  object [("ordinal", ofAxisOrdinal a.ordinal), ("hierarchies", listOf text a.hierarchies),
    ("positions", listOf ofPosition a.positions)]

/-! ### Cells -/

/-- A double as a structured value. -/
def ofDouble (x : Float) : Value :=
  text (if x.isNaN then "NaN"
    else
      let digits := Nat.toDigits 16 x.toBits.toNat
      String.ofList (List.replicate (16 - digits.length) '0' ++ digits))

/-- The value of a cell as a structured value. -/
def ofCellValue : CellValue → Value
  | .null => null
  | .integer n => variant "int" (number n)
  | .double x => variant "double" (ofDouble x)
  | .boolean b => variant "bool" (boolean b)
  | .text s => variant "string" (text s)

/-- A cell as a structured value. -/
def ofCell (c : Cell) : Value :=
  object [("ordinal", natural c.ordinal), ("coordinates", listOf natural c.coordinates),
    ("value", ofCellValue c.value), ("as_f64", optional ofDouble c.value.toDouble?),
    ("is_null", boolean c.value.isNull), ("is_empty", boolean c.isEmpty),
    ("formatted", optional text c.formatted), ("properties", ofProperties c.properties)]

end OlapClient.Interchange
