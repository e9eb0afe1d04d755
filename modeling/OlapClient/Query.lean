import OlapClient.Axis
import OlapClient.Identifier.Basic

/-!
# Queries

A query selects from a cube: a set on each axis, and a slicer tuple that filters. It is sent as
the text of an MDX statement.
-/

namespace OlapClient

/-- The set on one axis of a query. -/
inductive AxisSet where
  | members (members : List Identifier)
  | tuples (tuples : List Tuple)
  /-- Any set expression, taken as it is. -/
  | expression (text : String)
  deriving DecidableEq, Repr

/-- The set as it is written. -/
def AxisSet.text : AxisSet → String
  | members ms => memberListText ms
  | tuples ts => tupleListText ts
  | expression text => text

/-- One axis of a query. -/
structure QueryAxis where
  set : AxisSet
  /-- Whether empty positions are left out. -/
  nonEmpty : Bool
  deriving DecidableEq, Repr

/-- The axis of the given number as it is written. -/
def QueryAxis.text (index : Nat) (axis : QueryAxis) : String :=
  (if axis.nonEmpty then "NON EMPTY " else "") ++ axis.set.text ++ " ON " ++
    (AxisOrdinal.index index).name

/-- A query of a cube. -/
structure SelectQuery where
  cube : Identifier
  /-- The axes, columns first. -/
  axes : List QueryAxis
  slicer : Option Tuple
  deriving DecidableEq, Repr

namespace SelectQuery

/-- The axes as they are written, numbered from zero. -/
def axesText (q : SelectQuery) : String :=
  String.intercalate ", " (q.axes.mapIdx QueryAxis.text)

/-- The MDX statement of a query. -/
def mdx (q : SelectQuery) : String :=
  let axes := q.axesText
  "SELECT" ++ (if axes.isEmpty then "" else " " ++ axes) ++ " FROM " ++ q.cube.uniqueName ++
    match q.slicer with
    | some slicer => " WHERE " ++ slicer.text
    | none => ""

end SelectQuery

end OlapClient
