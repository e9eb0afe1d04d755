/-!
# Axes by number

The axes of a query and of its result are numbered from zero; the filter axis stands apart and
before them all. The first five numbers have names of their own.
-/

namespace OlapClient

/-- Which axis is meant. -/
inductive AxisOrdinal where
  /-- The axis of the slicer. -/
  | filter
  | index (n : Nat)
  deriving DecidableEq, Repr

namespace AxisOrdinal

/-- The name of an axis in queries. -/
def name : AxisOrdinal → String
  | filter => "FILTER"
  | index 0 => "COLUMNS"
  | index 1 => "ROWS"
  | index 2 => "PAGES"
  | index 3 => "CHAPTERS"
  | index 4 => "SECTIONS"
  | index n => "AXIS(" ++ toString n ++ ")"

/-- The order of axes: the filter axis first, then by number. -/
def before : AxisOrdinal → AxisOrdinal → Bool
  | filter, index _ => true
  | filter, filter => false
  | index _, filter => false
  | index m, index n => m < n

end AxisOrdinal

end OlapClient
