import OlapClient.Text.Blank
import OlapClient.Identifier.Event
import OlapClient.Identifier.Error

/-!
# Reading one character at a time

A scan stands between two characters of the text. It knows the shape of what is read, where
the brace and the parenthesis around it opened, and the stage it has reached; each character
moves it on, reports events, or is refused. Nothing is read twice, so a scan of `s ++ t` is a
scan of `s` followed by one of `t`, and what is reported before a refusal stays reported.

The parts of a key are held back and reported as one segment when the next name or key is
complete, or at the end of the identifier.
-/

namespace OlapClient

/-- What a text is read as. -/
inductive Shape where
  /-- One identifier: `[Time].[1997].[Q3]`. -/
  | identifier
  /-- Identifiers between commas, with or without braces around them. -/
  | memberList
  /-- One tuple: `([Time].[1997], [Store].[USA])`. -/
  | tuple
  /-- Tuples between commas, with or without braces around them. -/
  | tupleList
  deriving DecidableEq, Repr

namespace Shape

/-- Shapes made of elements between commas. -/
def isList : Shape → Bool
  | memberList | tupleList => true
  | identifier | tuple => false

/-- Shapes whose elements are tuples. -/
def ofTuples : Shape → Bool
  | tuple | tupleList => true
  | identifier | memberList => false

end Shape

/-- How the part that is read now was introduced. -/
inductive Lead where
  /-- By nothing or a point: it is a name. -/
  | name
  /-- By a key mark: it opens a key. -/
  | firstKey
  /-- By a key mark directly after a key part: it belongs to the same key. -/
  | nextKey
  deriving DecidableEq, Repr

/-- What a scan expects next. Bodies are kept with their last character first. -/
inductive ScanStage where
  /-- An opening brace, an element or nothing. -/
  | listStart
  /-- An element or the closing brace. -/
  | braceOpened
  /-- An element; a comma stands before it. -/
  | afterComma
  /-- The parenthesis that opens a tuple. -/
  | tupleStart
  /-- A part of an identifier, or the mark that makes it a key. -/
  | beforePart (lead : Lead) (key : List Name)
  /-- The body of a bracketed name. -/
  | inBrackets (opened : Nat) (lead : Lead) (key : List Name) (body : List Char)
  /-- A closing bracket was read: the name ends here unless a second one follows. -/
  | closingBracket (opened : Nat) (lead : Lead) (key : List Name) (body : List Char)
  /-- The body of a bare name. -/
  | inBare (lead : Lead) (key : List Name) (body : List Char)
  /-- A point, a key mark or the end of the identifier. -/
  | afterPart (lead : Lead) (key : List Name)
  /-- A comma or the end of the list. -/
  | afterElement
  /-- Only blanks. -/
  | ended
  deriving DecidableEq, Repr

/-- A place between two characters. -/
structure Scan where
  shape : Shape
  /-- Where the brace around the list opened. -/
  brace : Option Nat := none
  /-- Where the parenthesis around the tuple opened. -/
  paren : Option Nat := none
  stage : ScanStage
  deriving DecidableEq, Repr

/-- The events that a step reports, and where it leads. -/
abbrev Reading (α : Type) := List Event × Except Refusal α

/-- A step that reports nothing. -/
def Reading.quiet {α : Type} (a : α) : Reading α := ([], .ok a)

/-- A step that is refused. -/
def Reading.refuse {α : Type} (reason : Reason) (position : Nat) : Reading α :=
  ([], .error ⟨reason, position⟩)

/-- A step with events reported before it. -/
def Reading.after {α : Type} (events : List Event) (r : Reading α) : Reading α :=
  (events ++ r.1, r.2)

/-- The characters that end a bare name. -/
def endsBareName (c : Char) : Bool :=
  c == '.' || c == ',' || c == ')' || c == '}' || c == '&'

/-- The characters that no segment starts with. -/
def startsNoSegment (c : Char) : Bool :=
  endsBareName c || c == '(' || c == '{' || c == ']'

/-- The segment held back, if there is one. -/
def heldKey (key : List Name) : List Event :=
  if key.isEmpty then [] else [.segment (.key key)]

/-- A part is complete: what is reported, and the key parts held back from now on. -/
def completePart (lead : Lead) (key : List Name) (part : Name) : List Event × List Name :=
  match lead with
  | .name => (heldKey key ++ [.segment (.name part)], [])
  | .firstKey => (heldKey key, [part])
  | .nextKey => ([], key ++ [part])

namespace Scan

/-- The start of a text of the given shape. -/
def start (shape : Shape) : Scan where
  shape := shape
  stage := match shape with
    | .identifier => .beforePart .name []
    | .tuple => .tupleStart
    | .memberList | .tupleList => .listStart

/-- The same scan at another stage. -/
def goTo (s : Scan) (stage : ScanStage) : Scan := { s with stage := stage }

/-- Where a complete element leaves the scan. -/
def elementDone (s : Scan) : Scan :=
  { s with paren := none, stage := if s.shape.isList then .afterElement else .ended }

/-! ### One character -/

/-- A character where a part of an identifier is expected. -/
def partStart (s : Scan) (position : Nat) (lead : Lead) (key : List Name) (c : Char) :
    Reading Scan :=
  if Text.isBlank c then .quiet (s.goTo (.beforePart lead key))
  else if c = '[' then .quiet (s.goTo (.inBrackets position lead key []))
  else if c = '&' then
    if lead = .name then .quiet (s.goTo (.beforePart .firstKey key))
    else .refuse .repeatedKeyMark position
  else if startsNoSegment c then .refuse (.notASegment c) position
  else .quiet (s.goTo (.inBare lead key [c]))

/-- A character where an element is expected. -/
def elementStart (s : Scan) (position : Nat) (c : Char) : Reading Scan :=
  if s.shape.ofTuples then
    if c = '(' then .quiet { s with paren := some position, stage := .beforePart .name [] }
    else .refuse (.notATuple (some c)) position
  else s.partStart position .name [] c

/-- A character after a complete element. -/
def separator (s : Scan) (position : Nat) (c : Char) : Reading Scan :=
  if Text.isBlank c then .quiet s
  else if s.shape.isList && s.stage ≠ .ended then
    if c = ',' then .quiet (s.goTo .afterComma)
    else if c = '}' then
      if s.brace.isSome then .quiet (s.goTo .ended) else .refuse .unopenedBrace position
    else .refuse (.strayInList c) position
  else .refuse (.strayAtEnd c) position

/-- A character after a complete identifier, blanks passed over. -/
def afterMember (s : Scan) (position : Nat) (c : Char) : Reading Scan :=
  if s.paren.isSome then
    if c = ',' then .quiet (s.goTo (.beforePart .name []))
    else if c = ')' then .after [.tuple] (.quiet s.elementDone)
    else .refuse (.strayInTuple c) position
  else s.elementDone.separator position c

/-- A character after a complete part. -/
def partEnd (s : Scan) (position : Nat) (lead : Lead) (key : List Name) (c : Char) :
    Reading Scan :=
  if Text.isBlank c then .quiet (s.goTo (.afterPart lead key))
  else if c = '.' then .quiet (s.goTo (.beforePart .name key))
  else if c = '&' then
    .quiet (s.goTo (.beforePart (if lead = .name then .firstKey else .nextKey) key))
  else .after (heldKey key ++ [.member]) (s.afterMember position c)

/-- A part is complete before the character `c`. -/
def partDone (s : Scan) (position : Nat) (lead : Lead) (key : List Name) (part : Name) (c : Char) :
    Reading Scan :=
  let (events, key) := completePart lead key part
  .after events (s.partEnd position lead key c)

/-- The bracketed name with the given body. -/
def quotedPart (body : List Char) : Name := .quoted (String.ofList body.reverse)

/-- The bare name with the given body; the blanks around it do not belong to it. -/
def barePart (body : List Char) : Name := .unquoted (String.ofList (Text.trimChars body.reverse))

/-- One character at the given offset. -/
def step (s : Scan) (position : Nat) (c : Char) : Reading Scan :=
  match s.stage with
  | .listStart =>
    if Text.isBlank c then .quiet s
    else if c = '{' then .quiet { s with brace := some position, stage := .braceOpened }
    else s.elementStart position c
  | .braceOpened =>
    if Text.isBlank c then .quiet s
    else if c = '}' then .quiet (s.goTo .ended)
    else s.elementStart position c
  | .afterComma =>
    if Text.isBlank c then .quiet s
    else if c = '}' then .refuse .trailingComma position
    else s.elementStart position c
  | .tupleStart => if Text.isBlank c then .quiet s else s.elementStart position c
  | .beforePart lead key => s.partStart position lead key c
  | .inBrackets opened lead key body =>
    if c = ']' then .quiet (s.goTo (.closingBracket opened lead key body))
    else .quiet (s.goTo (.inBrackets opened lead key (c :: body)))
  | .closingBracket opened lead key body =>
    if c = ']' then .quiet (s.goTo (.inBrackets opened lead key (c :: body)))
    else s.partDone position lead key (quotedPart body) c
  | .inBare lead key body =>
    if endsBareName c then s.partDone position lead key (barePart body) c
    else .quiet (s.goTo (.inBare lead key (c :: body)))
  | .afterPart lead key => s.partEnd position lead key c
  | .afterElement | .ended => s.separator position c

/-! ### The end of the text -/

/-- The text ends after a complete element. -/
def endOfList (s : Scan) : Reading Unit :=
  match s.brace with
  | some opened => .refuse .unclosedBrace opened
  | none => .quiet ()

/-- The text ends after a complete identifier. -/
def endOfMember (s : Scan) : Reading Unit :=
  match s.paren with
  | some opened => .refuse .unclosedTuple opened
  | none => s.endOfList

/-- The text ends after a complete part. -/
def endOfPart (s : Scan) (lead : Lead) (key : List Name) (part : Name) : Reading Unit :=
  let (events, key) := completePart lead key part
  .after (events ++ heldKey key ++ [.member]) s.endOfMember

/-- The text ends at the given offset. -/
def finish (s : Scan) (position : Nat) : Reading Unit :=
  match s.stage with
  | .listStart | .ended => .quiet ()
  | .braceOpened | .afterElement => s.endOfList
  | .afterComma => .refuse .trailingComma position
  | .tupleStart => .refuse (.notATuple none) position
  | .beforePart _ _ => .refuse .missingSegment position
  | .inBrackets opened _ _ _ => .refuse .unclosedBracket opened
  | .closingBracket _ lead key body => s.endOfPart lead key (quotedPart body)
  | .inBare lead key body => s.endOfPart lead key (barePart body)
  | .afterPart _ key => .after (heldKey key ++ [.member]) s.endOfMember

/-! ### A whole text -/

/-- The characters of a text that starts at the given offset, and then its end. -/
def run (s : Scan) (position : Nat) : List Char → Reading Unit
  | [] => s.finish position
  | c :: cs =>
    match s.step position c with
    | (events, .ok next) => .after events (next.run (position + 1) cs)
    | (events, .error refusal) => (events, .error refusal)

end Scan

/-- Reads a text of the given shape: the events reported, and whether it was read to its end. -/
def Event.scan (shape : Shape) (input : String) : Reading Unit :=
  (Scan.start shape).run 0 input.toList

end OlapClient
