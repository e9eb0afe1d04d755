import OlapClient.Dictionary
import OlapClient.Identifier.Basic
import OlapClient.Rowset

/-!
# Cell sets

A multidimensional result: axes of positions, and cells where the positions cross. Cells are
addressed by ordinal or by one coordinate for each axis; those that the server did not send are
empty. Once a cell set is closed, every access to its axes and cells is refused.
-/

namespace OlapClient

/-- A member of a hierarchy. -/
structure Member where
  /-- The unique name as the server sent it. -/
  uniqueName : String
  /-- The segments of the unique name. -/
  identifier : Identifier
  caption : String
  hierarchy : String
  levelUniqueName : Option String
  /-- The depth of the level, the root being at zero. -/
  levelDepth : Option Nat
  parentUniqueName : Option String
  displayInfo : Option Int
  /-- All other properties, by name. -/
  properties : Dictionary String String
  deriving DecidableEq, Repr

/-- A coordinate on an axis: one member for each hierarchy. -/
structure Position where
  ordinal : Nat
  members : List Member
  deriving DecidableEq, Repr

/-- An axis of a cell set. -/
structure Axis where
  ordinal : AxisOrdinal
  hierarchies : List String := []
  positions : List Position := []
  deriving DecidableEq, Repr

namespace Axis

/-- The number of positions. -/
def size (a : Axis) : Nat := a.positions.length

/-- An axis without positions. -/
def isEmpty (a : Axis) : Bool := a.positions.isEmpty

end Axis

/-- The value of a cell. -/
inductive CellValue where
  | null
  | integer (n : Int)
  | double (x : Float)
  | boolean (b : Bool)
  | text (s : String)
  deriving Repr

namespace CellValue

/-- A cell without a value. -/
def isNull : CellValue → Bool
  | null => true
  | _ => false

/-- The value as a double, if it is a number. -/
def toDouble? : CellValue → Option Float
  | integer n => some (Float.ofInt n)
  | double x => some x
  | _ => none

end CellValue

/-- What the server sent for a cell. -/
structure CellData where
  value : CellValue := .null
  formatted : Option String := none
  /-- All other properties, by name. -/
  properties : Dictionary String String := {}
  deriving Repr

/-- A cell. -/
structure Cell where
  ordinal : Nat
  /-- One position for each axis. -/
  coordinates : List Nat
  value : CellValue
  formatted : Option String
  properties : Dictionary String String
  deriving Repr

/-- A cell that the server sent neither value nor text for. -/
def Cell.isEmpty (c : Cell) : Bool := c.value.isNull && c.formatted.isNone

/-- A multidimensional result. -/
structure CellSet where
  cube : Option String
  /-- The axes, columns first. -/
  axes : List Axis
  filter : Axis
  /-- The cells that the server sent, by ordinal. -/
  cells : Dictionary Nat CellData
  statistics : Statistics := {}
  isClosed : Bool := false
  deriving Repr

namespace CellSet

/-- The number of positions on each axis. -/
def lengths (s : CellSet) : List Nat := s.axes.map Axis.size

/-- A cell set of these axes and cells, unless there are too many cells or one is outside. -/
def make (cube : Option String) (axes : List Axis) (filter : Axis)
    (cells : Dictionary Nat CellData) : Except ClientError CellSet := do
  let total ← (Coordinate.cellCount (axes.map Axis.size)).mapError .coordinate
  match cells.keys.find? (total ≤ ·) with
  | some ordinal => throw (.response (.cellOutside ordinal total))
  | none => return { cube := cube, axes := axes, filter := filter, cells := cells }

/-- The number of cells. -/
def cellCount (s : CellSet) : Nat := s.lengths.foldr (· * ·) 1

/-- The cell set, closed. -/
def close (s : CellSet) : CellSet := { s with isClosed := true }

/-- Refuses a closed cell set. -/
def checkOpen (s : CellSet) : Except ClientError Unit :=
  if s.isClosed then .error (.closed .cellSet) else .ok ()

/-- The axes of an open cell set. -/
def openAxes (s : CellSet) : Except ClientError (List Axis) := do
  s.checkOpen
  return s.axes

/-- One axis of an open cell set. -/
def axis (s : CellSet) (index : Nat) : Except ClientError Axis := do
  s.checkOpen
  match s.axes[index]? with
  | some axis => return axis
  | none => throw (.coordinate (.axisOutOfRange index s.axes.length))

/-- The filter axis of an open cell set. -/
def filterAxis (s : CellSet) : Except ClientError Axis := do
  s.checkOpen
  return s.filter

/-- The cell with this ordinal and these coordinates. -/
def cellOf (s : CellSet) (ordinal : Nat) (coordinates : List Nat) : Cell :=
  let data := (s.cells.find? ordinal).getD {}
  ⟨ordinal, coordinates, data.value, data.formatted, data.properties⟩

/-- The cell with this ordinal. -/
def cell (s : CellSet) (ordinal : Nat) : Except ClientError Cell := do
  s.checkOpen
  let coordinates ← (Coordinate.ofOrdinal s.lengths ordinal).mapError .coordinate
  return s.cellOf ordinal coordinates

/-- The cell at these coordinates. -/
def cellAt (s : CellSet) (coordinates : List Nat) : Except ClientError Cell := do
  s.checkOpen
  let ordinal ← (Coordinate.toOrdinal s.lengths coordinates).mapError .coordinate
  return s.cellOf ordinal coordinates

/-- Every cell in the order of the ordinals, empty ones included. -/
def allCells (s : CellSet) : Except ClientError (List Cell) := do
  s.checkOpen
  return (List.range s.cellCount).filterMap fun ordinal =>
    (Coordinate.ofOrdinal s.lengths ordinal).toOption.map (s.cellOf ordinal)

end CellSet

end OlapClient
