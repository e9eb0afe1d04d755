import OlapClient.Markup.Element
import OlapClient.Markup.Reference
import OlapClient.Markup.Token

/-!
# Documents

The tokens of a document build its tree on a stack of open elements. Character data outside
all elements is ignored and not decoded. The document is the last element that was completed
with no other open.
-/

namespace OlapClient.Markup

/-- Why bytes are not a document. -/
inductive DocumentError where
  | malformed (fault : ReadFault)
  | attributes (fault : AttributeFault)
  | encoding (fault : Utf8Fault)
  | reference (fault : ReferenceFault)
  /-- An end tag while no element is open. -/
  | unbalanced
  /-- The input ends while elements are open. -/
  | unfinished
  /-- There is no element. -/
  | empty
  deriving DecidableEq, Repr

namespace DocumentError

/-- The wording of an error. -/
def message : DocumentError → String
  | malformed f => "malformed XML at byte " ++ toString f.position ++ ": " ++ f.fault.message
  | attributes f => f.message
  | encoding f => "cannot decode input using UTF-8: " ++ f.message
  | reference f => f.message
  | unbalanced => "unbalanced end tag"
  | unfinished => "document ended inside an element"
  | empty => "empty document"

end DocumentError

/-! ### Elements from tags -/

/-- What follows the last colon of a text, or all of it. -/
def afterColon (s : String) : String :=
  String.ofList (s.toList.reverse.takeWhile (· ≠ ':')).reverse

/-- A name without its prefix. -/
def localName (name : Bytes) : String := afterColon (Utf8.decodeLossy name)

/-- Keys that declare a namespace. -/
def declaresNamespace (key : Bytes) : Bool :=
  key == Text.ascii "xmlns" || (Text.ascii "xmlns:").isPrefixOf key

/-- Bytes as a text with its references resolved. -/
def decodeText (raw : Bytes) : Except DocumentError String := do
  let text ← (Utf8.decode raw).mapError .encoding
  (resolve text).mapError .reference

/-- The attributes that belong to the element, decoded; the first problem is reported. -/
def attributesOf : List RawAttribute → Option AttributeFault →
    Except DocumentError (List (String × String))
  | [], none => .ok []
  | [], some fault => .error (.attributes fault)
  | a :: rest, fault? =>
    if declaresNamespace a.key then attributesOf rest fault?
    else do
      let value ← decodeText a.value
      let rest ← attributesOf rest fault?
      return (localName a.key, value) :: rest

/-- The element that a tag opens. -/
def Element.ofTag (content : Bytes) : Except DocumentError Element := do
  let (raw, fault?) := rawAttributes content
  let attributes ← attributesOf raw fault?
  return { name := localName (tagName content), attributes := attributes }

/-! ### The tree under construction -/

/-- The elements that are open, innermost first, and the last one completed outside all others. -/
structure Builder where
  stack : List Element := []
  root : Option Element := none
  deriving Repr

namespace Builder

/-- A complete element takes its place. -/
def place (b : Builder) (e : Element) : Builder :=
  match b.stack with
  | [] => { b with root := some e }
  | parent :: outer => { b with stack := parent.addChild e :: outer }

/-- One more token. -/
def add (b : Builder) : Token → Except DocumentError Builder
  | .opening content => do
    let e ← Element.ofTag content
    return { b with stack := e :: b.stack }
  | .empty content => do
    let e ← Element.ofTag content
    return b.place e
  | .closing =>
    match b.stack with
    | [] => .error .unbalanced
    | e :: outer => .ok ({ b with stack := outer }.place e)
  | .text raw =>
    match b.stack with
    | [] => .ok b
    | e :: outer => do
      let text ← decodeText raw
      return { b with stack := e.addText text :: outer }
  | .characterData raw =>
    match b.stack with
    | [] => .ok b
    | e :: outer => .ok { b with stack := e.addText (Utf8.decodeLossy raw) :: outer }
  | .aside => .ok b

/-- One more token, if there is one. -/
def add? (b : Builder) : Option Token → Except DocumentError Builder
  | some token => b.add token
  | none => .ok b

/-- The document, at the end of the input. -/
def finish (b : Builder) : Except DocumentError Element :=
  match b.stack, b.root with
  | _ :: _, _ => .error .unfinished
  | [], none => .error .empty
  | [], some root => .ok root

end Builder

/-! ### Whole documents -/

/-- The document in the bytes that follow the first `before`. -/
def readFrom (before : Nat) (r : Reader) (b : Builder) : Bytes → Except DocumentError Element
  | [] => do
    let last ← (r.finish before).mapError .malformed
    let b ← b.add? last
    b.finish
  | byte :: bytes => do
    let (token?, r) ← (r.step before byte).mapError .malformed
    let b ← b.add? token?
    readFrom (before + 1) r b bytes

/-- The bytes without a byte order mark at their start. -/
def dropByteOrderMark : Bytes → Bytes
  | 0xEF :: 0xBB :: 0xBF :: rest => rest
  | bytes => bytes

/-- The tree of a document. -/
def readDocument (bytes : Bytes) : Except DocumentError Element :=
  readFrom 0 {} {} (dropByteOrderMark bytes)

end OlapClient.Markup
