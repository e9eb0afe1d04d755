import OlapClient.Text.Number
import OlapClient.Text.Quoted

/-!
# Cell ordinals and coordinates

The cells of a cube of axes are numbered with axis 0 fastest: over the lengths `L`, the cell at
the coordinates `c` has the ordinal `∑ c i * (L 0 * ⋯ * L (i - 1))`. Counts are kept in 64 bits;
a count that does not fit is refused, and a weight that does not fit stays at the largest one.
-/

namespace OlapClient

/-- Why an ordinal or a vector of coordinates names no cell. -/
inductive CoordinateError where
  /-- The number of cells does not fit in 64 bits. -/
  | tooManyCells (lengths : List Nat)
  | ordinalOutOfRange (ordinal total : Nat)
  | wrongArity (expected found : Nat)
  | coordinateOutOfRange (coordinate axis length : Nat)
  | axisOutOfRange (axis total : Nat)
  deriving DecidableEq, Repr

namespace CoordinateError

/-- The wording of an error. -/
def message : CoordinateError → String
  | tooManyCells lengths => "axis lengths " ++ Text.listedNumbers lengths ++ " overflow"
  | ordinalOutOfRange ordinal total =>
    "ordinal " ++ toString ordinal ++ " out of range for " ++ toString total ++ " cells"
  | wrongArity expected found =>
    "expected " ++ toString expected ++ " coordinates, got " ++ toString found
  | coordinateOutOfRange coordinate axis length =>
    "coordinate " ++ toString coordinate ++ " on axis " ++ toString axis ++ " out of range 0.." ++
      toString length
  | axisOutOfRange axis total =>
    "axis " ++ toString axis ++ " out of range, cell set has " ++ toString total ++ " axes"

end CoordinateError

namespace Coordinate

/-- The product of `product` and the lengths, if no product on the way exceeds 64 bits. -/
def productWithin (product : Nat) : List Nat → Option Nat
  | [] => some product
  | length :: lengths =>
    if product * length ≤ Text.maxCount then productWithin (product * length) lengths else none

/-- The number of cells over axes of the given lengths; no axes describe one cell. -/
def cellCount (lengths : List Nat) : Except CoordinateError Nat :=
  match productWithin 1 lengths with
  | some total => .ok total
  | none => .error (.tooManyCells lengths)

/-- The digits of a number in the mixed radix of the lengths, least significant first. -/
def digits (n : Nat) : List Nat → List Nat
  | [] => []
  | length :: lengths => n % length :: digits (n / length) lengths

/-- The coordinates of the cell with this ordinal. -/
def ofOrdinal (lengths : List Nat) (ordinal : Nat) : Except CoordinateError (List Nat) := do
  let total ← cellCount lengths
  if ordinal < total then return digits ordinal lengths
  else throw (.ordinalOutOfRange ordinal total)

/-- A product of two counts, at most the largest count of 64 bits. -/
def saturatingProduct (a b : Nat) : Nat := min (a * b) Text.maxCount

/-- The weighted sum of the coordinates from `axis` on, added to `sum`; the first has the given
weight. -/
def weightedSum (axis weight sum : Nat) : List (Nat × Nat) → Except CoordinateError Nat
  | [] => .ok sum
  | (coordinate, length) :: rest =>
    if coordinate < length then
      weightedSum (axis + 1) (saturatingProduct weight length) (sum + coordinate * weight) rest
    else .error (.coordinateOutOfRange coordinate axis length)

/-- The ordinal of the cell at these coordinates. -/
def toOrdinal (lengths coordinates : List Nat) : Except CoordinateError Nat :=
  if coordinates.length = lengths.length then weightedSum 0 1 0 (coordinates.zip lengths)
  else .error (.wrongArity lengths.length coordinates.length)

end Coordinate

end OlapClient
