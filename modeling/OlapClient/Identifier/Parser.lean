import OlapClient.Identifier.Scan

/-!
# Identifiers, tuples and lists from text

A text is scanned in the wanted shape and its events are assembled. Blank text is no
identifier; a blank list is empty.
-/

namespace OlapClient

/-- The assembly of a text of the given shape. -/
def Assembly.parse (shape : Shape) (input : String) : Except IdentifierError Assembly :=
  match Event.scan shape input with
  | (events, .ok _) => .ok (.ofEvents events)
  | (_, .error refusal) => .error (.refused refusal input)

/-- The identifier that a text holds. -/
def Identifier.parse (input : String) : Except IdentifierError Identifier :=
  if Text.isBlankText input then .error .empty
  else do
    let assembly ← Assembly.parse .identifier input
    match assembly.members with
    | member :: _ => .ok member
    | [] => .error .empty

/-- The identifiers of a list, which braces may enclose. -/
def Identifier.parseList (input : String) : Except IdentifierError (List Identifier) :=
  (Assembly.parse .memberList input).map (·.members)

/-- The tuple that a text holds. -/
def Tuple.parse (input : String) : Except IdentifierError Tuple := do
  let assembly ← Assembly.parse .tuple input
  match assembly.tuples with
  | tuple :: _ => .ok tuple
  | [] => .error .empty

/-- The tuples of a list, which braces may enclose. -/
def Tuple.parseList (input : String) : Except IdentifierError (List Tuple) :=
  (Assembly.parse .tupleList input).map (·.tuples)

end OlapClient
