import OlapClient.CellSet.Basic
import OlapClient.Identifier.Parser

/-!
# Cell sets from responses

A result describes its axes twice: by the hierarchies that they cross, and by the positions
that they hold. Both are joined by the number in the name of the axis. Numbers have to run from
zero without a gap. Of two descriptions of one axis, or two cells of one ordinal, the last counts.
-/

namespace OlapClient

instance : Ord AxisOrdinal where
  compare a b := if a.before b then .lt else if b.before a then .gt else .eq

namespace Dataset

open Markup

/-- Refuses a response. -/
def refuse {α : Type} (cause : ResponseError) : Except ClientError α := .error (.response cause)

/-! ### Axes -/

/-- The number in the name of an axis. -/
def axisNumber? (name : String) : Option Nat :=
  match name.toList with
  | 'A' :: 'x' :: 'i' :: 's' :: digits => Text.count? (String.ofList digits)
  | _ => none

/-- The axis that an element describes. -/
def axisOrdinal (e : Element) : Except ClientError AxisOrdinal :=
  let name := (e.attribute? "name").getD ""
  if name = "SlicerAxis" then .ok .filter
  else match axisNumber? name with
    | some n => .ok (.index n)
    | none => refuse (.unknownAxis name)

/-- The children that are fields of a member; all others are properties. -/
def memberFields : List String :=
  ["UName", "Caption", "LName", "LNum", "DisplayInfo", "PARENT_UNIQUE_NAME"]

/-- The texts of the children whose name is none of these. -/
def otherProperties (fields : List String) (e : Element) : Dictionary String String :=
  .ofList ((e.children.filter fun c => !fields.contains c.name).map fun c => (c.name, c.text))

/-- A numeric field of a member, if it is present. -/
def memberNumber {α : Type} (read : String → Option α) (field member : String) (e : Element) :
    Except ClientError (Option α) :=
  match e.childText? field with
  | none => .ok none
  | some text =>
    match read (Text.trim text) with
    | some n => .ok (some n)
    | none => refuse (.memberNumber field text member)

/-- The unique name of a member, which may not be blank. -/
def memberName (e : Element) : Except ClientError String :=
  match (e.childText? "UName").bind Response.trimmedNonempty with
  | some name => .ok name
  | none => refuse .namelessMember

/-- The member that an element describes. -/
def member (e : Element) : Except ClientError Member := do
  let uniqueName ← memberName e
  let identifier ← (Identifier.parse uniqueName).mapError .identifier
  let levelDepth ← memberNumber Text.word? "LNum" uniqueName e
  let displayInfo ← memberNumber Text.integer? "DisplayInfo" uniqueName e
  return {
    uniqueName := uniqueName
    identifier := identifier
    caption := (e.childText? "Caption").getD ((identifier.last?.map Segment.label).getD "")
    hierarchy := (e.attribute? "Hierarchy").getD ""
    levelUniqueName := e.childText? "LName"
    levelDepth := levelDepth
    parentUniqueName := e.childText? "PARENT_UNIQUE_NAME"
    displayInfo := displayInfo
    properties := otherProperties memberFields e }

/-- The position of the given ordinal that an element describes. -/
def position (ordinal : Nat) (e : Element) : Except ClientError Position := do
  let members ← (e.childrenNamed "Member").mapM member
  return ⟨ordinal, members⟩

/-- The positions that elements describe, numbered on from `ordinal`. -/
def positionsFrom (ordinal : Nat) : List Element → Except ClientError (List Position)
  | [] => .ok []
  | e :: rest => do
    let first ← position ordinal e
    let others ← positionsFrom (ordinal + 1) rest
    return first :: others

/-- The positions of an axis. -/
def positions (axis : Element) : Except ClientError (List Position) :=
  if (axis.child? "CrossProduct").isSome then .error (.unsupported .crossedAxes)
  else match axis.child? "Tuples" with
    | none => .ok []
    | some tuples => positionsFrom 0 (tuples.childrenNamed "Tuple")

/-- The axes by ordinal. -/
abbrev Axes := Dictionary AxisOrdinal Axis

/-- The axes with the hierarchies of one more. -/
def addHierarchies (axes : Axes) (info : Element) : Except ClientError Axes := do
  let ordinal ← axisOrdinal info
  let names := (info.childrenNamed "HierarchyInfo").filterMap fun h => h.attribute? "name"
  return axes.insert ordinal { ordinal := ordinal, hierarchies := names }

/-- The axes with the positions of one more. -/
def addPositions (axes : Axes) (e : Element) : Except ClientError Axes := do
  let ordinal ← axisOrdinal e
  let axis := (axes.find? ordinal).getD { ordinal := ordinal }
  let positions ← positions e
  return axes.insert ordinal { axis with positions := positions }

/-- The children of the element at the end of a path of first children, by name. -/
def childrenAt (path : List String) (name : String) (e : Element) : List Element :=
  match path.foldlM (fun e step => e.child? step) e with
  | some parent => parent.childrenNamed name
  | none => []

/-- All axes of a result. -/
def axesOf (root : Element) : Except ClientError Axes := do
  let described ← (childrenAt ["OlapInfo", "AxesInfo"] "AxisInfo" root).foldlM addHierarchies {}
  (childrenAt ["Axes"] "Axis" root).foldlM addPositions described

/-- Refuses axes that do not bear the numbers from `expected` on. -/
def checkContiguous (expected : Nat) : List Axis → Except ClientError Unit
  | [] => .ok ()
  | axis :: rest =>
    if axis.ordinal = .index expected then checkContiguous (expected + 1) rest
    else refuse (.axesNotContiguous expected axis.ordinal)

/-! ### Cells -/

/-- The types of whole numbers. -/
def integerTypes : List String :=
  ["int", "integer", "long", "short", "byte", "unsignedInt", "unsignedShort", "unsignedByte"]

/-- The types of numbers with a fraction. -/
def doubleTypes : List String := ["double", "float", "decimal"]

/-- A double, with the spelling of infinities that schemas use. -/
def schemaDouble? (text : String) : Option Float :=
  if text = "INF" then some (1.0 / 0.0)
  else if text = "-INF" then some (-1.0 / 0.0)
  else Text.double? text

/-- A truth value. -/
def schemaBoolean? (text : String) : Option Bool :=
  if text = "true" || text = "1" then some true
  else if text = "false" || text = "0" then some false
  else none

/-- The value of a cell by its declared type; without a known type it is a text. -/
def typedValue (e : Element) : Except ClientError CellValue :=
  if e.attribute? "nil" = some "true" then .ok .null
  else
    let text := Text.trim e.text
    let valid (kind : String) (value? : Option CellValue) : Except ClientError CellValue :=
      match value? with
      | some value => .ok value
      | none => refuse (.cellValue text kind)
    match (e.attribute? "type").map fun t => Markup.afterColon t with
    | none => .ok (.text e.text)
    | some type =>
      if integerTypes.contains type then valid "integer" ((Text.integer? text).map .integer)
      else if doubleTypes.contains type then valid "double" ((schemaDouble? text).map .double)
      else if type = "boolean" then valid "boolean" ((schemaBoolean? text).map .boolean)
      else .ok (.text e.text)

/-- The ordinal of a cell and what was sent for it. -/
def cellEntry (e : Element) : Except ClientError (Nat × CellData) := do
  let ordinal ← match (e.attribute? "CellOrdinal").bind fun o => Text.count? (Text.trim o) with
    | some ordinal => pure ordinal
    | none => refuse .cellWithoutOrdinal
  let value ← match e.child? "Value" with
    | some value => typedValue value
    | none => pure .null
  return (ordinal,
    { value := value
      formatted := e.childText? "FmtValue"
      properties := otherProperties ["Value", "FmtValue"] e })

/-- The cells of a result. -/
def cellsOf (root : Element) : Except ClientError (Dictionary Nat CellData) := do
  let entries ← (childrenAt ["CellData"] "Cell" root).mapM cellEntry
  return .ofList entries

/-- The name of the cube of a result. -/
def cubeName? (root : Element) : Option String := do
  let info ← root.child? "OlapInfo"
  let cubes ← info.child? "CubeInfo"
  let cube ← cubes.child? "Cube"
  let name ← cube.childText? "CubeName"
  return Text.trim name

end Dataset

namespace CellSet

open Markup

/-- The cell set that a result holds. -/
def ofRoot (root : Element) : Except ClientError CellSet := do
  let axes ← Dataset.axesOf root
  let filter := (axes.find? .filter).getD { ordinal := .filter }
  let numbered := axes.values.filter fun axis => axis.ordinal ≠ .filter
  Dataset.checkContiguous 0 numbered
  let cells ← Dataset.cellsOf root
  make (Dataset.cubeName? root) numbered filter cells

/-- The cell set that a response holds. -/
def ofResponse (bytes : Bytes) : Except ClientError CellSet := do
  let root ← Response.payload bytes
  ofRoot root

end CellSet

end OlapClient
