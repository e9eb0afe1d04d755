import OlapClient.Coordinate.Basic

/-!
# Spaces of coordinates

A space is a box of coordinates over dimensions that a server reports; a dimension of zero or
less makes it empty. Its points are enumerated one after the other, each from the one before,
with the first or the last axis fastest.
-/

namespace OlapClient.Coordinate

/-- Which axis advances first. -/
inductive Order where
  /-- Axis 0 advances first: points come in the order of their ordinals. -/
  | little
  /-- The last axis advances first. -/
  | big
  deriving DecidableEq, Repr

/-- A box of coordinates and the order of its points. -/
structure Space where
  dimensions : List Int
  order : Order := .little
  deriving DecidableEq, Repr

namespace Space

/-- Dimensions of zero or less leave no points. -/
def isVoid (s : Space) : Bool := s.dimensions.any (· ≤ 0)

/-- The lengths of the axes, none of them negative. -/
def lengths (s : Space) : List Nat := s.dimensions.map Int.toNat

/-- The number of axes. -/
def arity (s : Space) : Nat := s.dimensions.length

/-- The number of points, at most the largest count of 64 bits. -/
def size (s : Space) : Nat :=
  if s.isVoid then 0 else s.lengths.foldl saturatingProduct 1

/-- A space without points. -/
def isEmpty (s : Space) : Bool := s.size == 0

end Space

/-- A place in the enumeration of a space. -/
structure Cursor where
  /-- The point that comes next. -/
  next : Option (List Nat)
  /-- The number of points from there on, as far as 64 bits count it. -/
  remaining : Nat
  deriving DecidableEq, Repr

/-- The successor of a point, first axis fastest; none after the last point. -/
def successor : List Nat → List Nat → Option (List Nat)
  | length :: lengths, c :: cs =>
    if c + 1 < length then some ((c + 1) :: cs) else (successor lengths cs).map (0 :: ·)
  | _, _ => none

namespace Space

/-- The successor of a point in the order of the space. -/
def successorOf (s : Space) (point : List Nat) : Option (List Nat) :=
  match s.order with
  | .little => successor s.lengths point
  | .big => (successor s.lengths.reverse point.reverse).map List.reverse

/-- The start of the enumeration. -/
def start (s : Space) : Cursor where
  next := if s.isVoid then none else some (List.replicate s.arity 0)
  remaining := s.size

/-- Takes the next point. -/
def advance (s : Space) (c : Cursor) : Option (List Nat) × Cursor :=
  match c.next with
  | none => (none, c)
  | some point => (some point, ⟨s.successorOf point, c.remaining - 1⟩)

/-- The next `n` points, as far as there are so many. -/
def take (s : Space) (c : Cursor) : Nat → List (List Nat)
  | 0 => []
  | n + 1 =>
    match s.advance c with
    | (none, _) => []
    | (some point, c) => point :: s.take c n

/-- Every point of the space, in order. -/
def points (s : Space) : List (List Nat) :=
  s.take s.start (if s.isVoid then 0 else s.lengths.foldr (· * ·) 1)

end Space

namespace Cursor

/-- The least and the greatest number of points that are left. -/
def sizeHint (c : Cursor) : Nat × Nat :=
  if c.next.isNone then (0, 0) else (c.remaining, c.remaining)

end Cursor

end OlapClient.Coordinate
