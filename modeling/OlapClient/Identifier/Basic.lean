/-!
# Identifiers and tuples

A member of a cube is addressed by a path of segments such as `[Time].1997.[Q3]`. A segment
is a display name or a business key, `&[SF]&CA`; a name remembers whether it stood in
brackets, so a path can be written again as it was read. A tuple holds one identifier for
each hierarchy that is crossed on an axis.

Texts are built as lists of characters (`chars`) and packed at the end (`text`).
-/

namespace OlapClient

/-- Whether a name stands in brackets. -/
inductive Quoting where
  | quoted
  | unquoted
  deriving DecidableEq, Repr

/-- A display name, free of bracket escapes, and the way it is written. -/
structure Name where
  value : String
  quoting : Quoting
  deriving DecidableEq, Repr

/-- One step of a member path: a display name, or the parts of a compound key. -/
inductive Segment where
  | name (name : Name)
  | key (parts : List Name)
  deriving DecidableEq, Repr

/-- A member path, outermost segment first. -/
structure Identifier where
  segments : List Segment
  deriving DecidableEq, Repr

/-- One identifier for each crossed hierarchy. -/
structure Tuple where
  members : List Identifier
  deriving DecidableEq, Repr

/-! ### Names -/

namespace Name

/-- A name in brackets. -/
def quoted (value : String) : Name := ⟨value, .quoted⟩

/-- A bare name. -/
def unquoted (value : String) : Name := ⟨value, .unquoted⟩

/-- The body of a bracketed name: each closing bracket is written twice. -/
def escape : List Char → List Char
  | [] => []
  | c :: cs => if c = ']' then ']' :: ']' :: escape cs else c :: escape cs

/-- A name between brackets. -/
def bracket (cs : List Char) : List Char := '[' :: (escape cs ++ [']'])

/-- The name as it is written. -/
def chars (n : Name) : List Char :=
  match n.quoting with
  | .quoted => bracket n.value.toList
  | .unquoted => n.value.toList

/-- The name as it is written, as a text. -/
def text (n : Name) : String := String.ofList n.chars

/-- The same name in brackets. -/
def requote (n : Name) : Name := quoted n.value

end Name

/-- A text between brackets, closing brackets doubled. -/
def quoteName (s : String) : String := String.ofList (Name.bracket s.toList)

/-! ### Segments -/

namespace Segment

/-- A bracketed name. -/
def quoted (value : String) : Segment := .name (.quoted value)

/-- A bare name. -/
def unquoted (value : String) : Segment := .name (.unquoted value)

/-- Business keys, as against display names. -/
def isKey : Segment → Bool
  | .name _ => false
  | .key _ => true

/-- The display name, of a segment that has one. -/
def name? : Segment → Option String
  | .name n => some n.value
  | .key _ => none

/-- The parts of a key. -/
def keyParts? : Segment → Option (List Name)
  | .name _ => none
  | .key parts => some parts

/-- One label for the segment: the name, or the parts of the key joined by `&`. -/
def label : Segment → String
  | .name n => n.value
  | .key parts => String.intercalate "&" (parts.map (·.value))

/-- The segment as it is written; every part of a key is led in by `&`. -/
def chars : Segment → List Char
  | .name n => n.chars
  | .key parts => parts.flatMap fun part => '&' :: part.chars

/-- The segment as it is written, as a text. -/
def text (s : Segment) : String := String.ofList s.chars

/-- The same segment with every name in brackets. -/
def requote : Segment → Segment
  | .name n => .name n.requote
  | .key parts => .key (parts.map Name.requote)

end Segment

/-! ### Identifiers -/

namespace Identifier

/-- An identifier of bracketed names. -/
def ofNames (names : List String) : Identifier := ⟨names.map Segment.quoted⟩

/-- The number of segments. -/
def size (i : Identifier) : Nat := i.segments.length

/-- An identifier without segments. -/
def isEmpty (i : Identifier) : Bool := i.segments.isEmpty

/-- The last segment, which names the member itself. -/
def last? (i : Identifier) : Option Segment := i.segments.getLast?

/-- The identifier as it is written: the segments, points between them. -/
def chars (i : Identifier) : List Char := ['.'].intercalate (i.segments.map Segment.chars)

/-- The identifier as it is written, as a text. -/
def text (i : Identifier) : String := String.ofList i.chars

/-- The same identifier with every name in brackets. -/
def requote (i : Identifier) : Identifier := ⟨i.segments.map Segment.requote⟩

/-- The canonical text: every name in brackets, keys kept as keys. -/
def uniqueName (i : Identifier) : String := i.requote.text

end Identifier

/-! ### Tuples -/

/-- Texts one after the other, a comma and a space between them. -/
def commaSeparated (items : List (List Char)) : List Char := [',', ' '].intercalate items

namespace Tuple

/-- The tuple of one member. -/
def single (member : Identifier) : Tuple := ⟨[member]⟩

/-- The number of members. -/
def size (t : Tuple) : Nat := t.members.length

/-- A tuple without members. -/
def isEmpty (t : Tuple) : Bool := t.members.isEmpty

/-- The tuple as it is written, in parentheses. -/
def chars (t : Tuple) : List Char :=
  '(' :: (commaSeparated (t.members.map Identifier.chars) ++ [')'])

/-- The tuple as it is written, as a text. -/
def text (t : Tuple) : String := String.ofList t.chars

/-- The tuple as an element of a list: one member alone needs no parentheses. -/
def elementChars (t : Tuple) : List Char :=
  match t.members with
  | [member] => member.chars
  | _ => t.chars

end Tuple

/-! ### Lists in braces -/

/-- Texts in braces, a comma and a space between them. -/
def braced (items : List (List Char)) : List Char := '{' :: (commaSeparated items ++ ['}'])

/-- A list of members in braces. -/
def memberListText (members : List Identifier) : String :=
  String.ofList (braced (members.map Identifier.chars))

/-- A list of tuples in braces. -/
def tupleListText (tuples : List Tuple) : String :=
  String.ofList (braced (tuples.map Tuple.elementChars))

end OlapClient
