import OlapClient.Identifier.Basic

/-!
# Reading events

Reading a text yields a sequence of events: a segment is complete, the identifier is complete,
the tuple is complete. An assembly collects them into identifiers and tuples. A tuple takes all
identifiers completed since the last one.
-/

namespace OlapClient

/-- What reading a text reports, in the order of the text. -/
inductive Event where
  /-- A segment of the current identifier is complete. -/
  | segment (segment : Segment)
  /-- The current identifier is complete. -/
  | member
  /-- The current tuple is complete. -/
  | tuple
  deriving DecidableEq, Repr

/-- What a sequence of events has completed so far. -/
structure Assembly where
  /-- Segments of the identifier that is not complete yet. -/
  segments : List Segment := []
  /-- Identifiers that no tuple has taken. -/
  members : List Identifier := []
  /-- Tuples, in order. -/
  tuples : List Tuple := []
  deriving DecidableEq, Repr

namespace Assembly

/-- One more event. -/
def add (a : Assembly) : Event → Assembly
  | .segment s => { a with segments := a.segments ++ [s] }
  | .member => { a with segments := [], members := a.members ++ [⟨a.segments⟩] }
  | .tuple => { a with members := [], tuples := a.tuples ++ [⟨a.members⟩] }

/-- The assembly of a sequence of events. -/
def ofEvents (events : List Event) : Assembly := events.foldl add {}

end Assembly

end OlapClient
