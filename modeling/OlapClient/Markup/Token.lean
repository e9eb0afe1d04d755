import OlapClient.Markup.Attribute

/-!
# Tokens of a document

A document is read one byte at a time into tokens: character data, character data sections,
tags, and the markup that says nothing about the tree. The reader keeps the names of the open
elements; an end tag has to bear the innermost of them.

Comments, character data sections, declarations and instructions end at their own terminator,
tags at the first `>` outside quotes. Positions count the bytes before, the byte order mark
excluded.
-/

namespace OlapClient.Markup

/-- Why a document cannot be read on. -/
inductive SyntaxFault where
  | unknownMarkup
  | unclosedInstruction
  | unclosedComment
  | unclosedDoctype
  | unclosedCharacterData
  | unclosedTag
  /-- An end tag that is not that of the innermost open element. -/
  | mismatchedEnd (expected found : String)
  /-- An end tag where no element is open. -/
  | unmatchedEnd (found : String)
  | namelessDoctype
  deriving DecidableEq, Repr

namespace SyntaxFault

/-- The wording of a fault. -/
def message : SyntaxFault → String
  | unknownMarkup => "syntax error: unknown or missed symbol in markup"
  | unclosedInstruction =>
    "syntax error: processing instruction or xml declaration not closed: " ++
      "\x60?>\x60 not found before end of input"
  | unclosedComment => "syntax error: comment not closed: \x60-->\x60 not found before end of input"
  | unclosedDoctype => "syntax error: DOCTYPE not closed: \x60>\x60 not found before end of input"
  | unclosedCharacterData =>
    "syntax error: CDATA not closed: \x60]]>\x60 not found before end of input"
  | unclosedTag => "syntax error: tag not closed: \x60>\x60 not found before end of input"
  | mismatchedEnd expected found =>
    "ill-formed document: expected \x60</" ++ expected ++ ">\x60, but \x60</" ++ found ++
      ">\x60 was found"
  | unmatchedEnd found =>
    "ill-formed document: close tag \x60</" ++ found ++ ">\x60 does not match any open tag"
  | namelessDoctype =>
    "ill-formed document: \x60<!DOCTYPE>\x60 declaration does not contain a name of a document type"

end SyntaxFault

/-- A fault and the number of bytes read before it was noticed. -/
structure ReadFault where
  fault : SyntaxFault
  position : Nat
  deriving DecidableEq, Repr

/-- A piece of a document. -/
inductive Token where
  /-- Character data with references. -/
  | text (raw : Bytes)
  /-- Character data without references. -/
  | characterData (raw : Bytes)
  /-- A start tag: name and attributes. -/
  | opening (content : Bytes)
  /-- A tag that opens and closes at once: name and attributes. -/
  | empty (content : Bytes)
  | closing
  /-- A comment, an instruction or a declaration. -/
  | aside
  deriving DecidableEq, Repr

/-- What a reader is inside of. Contents have their last byte first and leave out the `<`. -/
inductive Mode where
  /-- Character data. -/
  | text (raw : Bytes)
  /-- Directly after `<`. -/
  | markup
  /-- Directly after `<!`. -/
  | declaration
  | comment (content : Bytes)
  | characterData (content : Bytes)
  /-- A document type, with the number of `<` in it that are open. -/
  | doctype (content : Bytes) (depth : Nat)
  | instruction (content : Bytes)
  /-- A start tag, with the quote that is open. -/
  | tag (content : Bytes) (quote : Option UInt8)
  /-- An end tag, with the quote that is open; the content leaves out the `/`. -/
  | endTag (content : Bytes) (quote : Option UInt8)
  deriving DecidableEq, Repr

/-- A place in a document. -/
structure Reader where
  mode : Mode := .text []
  /-- The names of the open elements, innermost first. -/
  openNames : List Bytes := []
  deriving DecidableEq, Repr

/-- A step of a reader: refused, or the token that it completes and where it leads. -/
abbrev ReadStep := Except ReadFault (Option Token × Reader)

/-- A name as messages show it: nothing if it is not UTF-8. -/
def shownName (name : Bytes) : String := (Utf8.decode? name).getD ""

/-- The name of an end tag: blanks at its end do not belong to it. -/
def endTagName (content : Bytes) : Bytes :=
  if content.all isSpace then content else (content.reverse.dropWhile isSpace).reverse

/-- The quote that is open after one more byte of a tag. -/
def quoteAfter (quote : Option UInt8) (b : UInt8) : Option UInt8 :=
  match quote with
  | some q => if b = q then none else some q
  | none => if b = Text.byte '"' || b = Text.byte '\'' then some b else none

/-- An ASCII letter in lower case. -/
def lowerByte (b : UInt8) : UInt8 := if 0x41 ≤ b && b ≤ 0x5A then b + 0x20 else b

namespace Reader

/-- The same reader in another mode, with no token complete. -/
def enter (r : Reader) (mode : Mode) : ReadStep := .ok (none, { r with mode := mode })

/-- A token is complete; character data follows. -/
def complete (r : Reader) (token : Token) : ReadStep :=
  .ok (some token, { r with mode := .text [] })

/-! ### Complete markup, `after` bytes into the document -/

/-- A start tag is complete. One that ends in `/` closes at once. -/
def tagDone (r : Reader) (content : Bytes) : ReadStep :=
  match content with
  | b :: rest =>
    if b = Text.byte '/' then r.complete (.empty rest.reverse)
    else
      let content := content.reverse
      { r with openNames := tagName content :: r.openNames }.complete (.opening content)
  | [] => { r with openNames := [] :: r.openNames }.complete (.opening [])

/-- An end tag is complete. -/
def endTagDone (r : Reader) (after : Nat) (content : Bytes) : ReadStep :=
  let name := endTagName content.reverse
  match r.openNames with
  | [] => .error ⟨.unmatchedEnd (shownName name), after⟩
  | expected :: outer =>
    if name = expected then { r with openNames := outer }.complete .closing
    else .error ⟨.mismatchedEnd (shownName expected) (shownName name), after⟩

/-- A comment is complete. -/
def commentDone (r : Reader) (after : Nat) (content : Bytes) : ReadStep :=
  if (Text.ascii "!--").isPrefixOf content.reverse then r.complete .aside
  else .error ⟨.unclosedComment, after⟩

/-- A character data section is complete. -/
def characterDataDone (r : Reader) (after : Nat) (content : Bytes) : ReadStep :=
  let opening := Text.ascii "![CDATA["
  if opening.isPrefixOf content.reverse then
    r.complete (.characterData ((content.drop 2).reverse.drop opening.length))
  else .error ⟨.unclosedCharacterData, after⟩

/-- A document type is complete. -/
def doctypeDone (r : Reader) (after : Nat) (content : Bytes) : ReadStep :=
  let opening := Text.ascii "!doctype"
  if opening.isPrefixOf (content.reverse.map lowerByte) then
    if (content.reverse.drop opening.length).all isSpace then .error ⟨.namelessDoctype, after⟩
    else r.complete .aside
  else .error ⟨.unclosedDoctype, after⟩

/-! ### One byte -/

/-- One more byte of a start tag. -/
def tagByte (r : Reader) (content : Bytes) (quote : Option UInt8) (b : UInt8) : ReadStep :=
  if quote.isNone && b = Text.byte '>' then r.tagDone content
  else r.enter (.tag (b :: content) (quoteAfter quote b))

/-- The byte `b` after `before` others. -/
def step (r : Reader) (before : Nat) (b : UInt8) : ReadStep :=
  match r.mode with
  | .text raw =>
    if b = Text.byte '<' then
      .ok (if raw.isEmpty then none else some (.text raw.reverse), { r with mode := .markup })
    else r.enter (.text (b :: raw))
  | .markup =>
    if b = Text.byte '!' then r.enter .declaration
    else if b = Text.byte '?' then r.enter (.instruction [b])
    else if b = Text.byte '/' then r.enter (.endTag [] none)
    else r.tagByte [] none b
  | .declaration =>
    if b = Text.byte '[' then r.enter (.characterData [b, Text.byte '!'])
    else if b = Text.byte '-' then r.enter (.comment [b, Text.byte '!'])
    else if lowerByte b = Text.byte 'd' then r.enter (.doctype [b, Text.byte '!'] 0)
    else .error ⟨.unknownMarkup, before - 1⟩
  | .comment content =>
    if b = Text.byte '>' && 4 < content.length && (Text.ascii "--").isPrefixOf content then
      r.commentDone (before + 1) content
    else r.enter (.comment (b :: content))
  | .characterData content =>
    if b = Text.byte '>' && (Text.ascii "]]").isPrefixOf content then
      r.characterDataDone (before + 1) content
    else r.enter (.characterData (b :: content))
  | .doctype content depth =>
    if b = Text.byte '<' then r.enter (.doctype (b :: content) (depth + 1))
    else if b = Text.byte '>' then
      match depth with
      | 0 => r.doctypeDone (before + 1) content
      | depth + 1 => r.enter (.doctype (b :: content) depth)
    else r.enter (.doctype (b :: content) depth)
  | .instruction content =>
    if b = Text.byte '>' && content.head? = some (Text.byte '?') then
      if 1 < content.length then r.complete .aside
      else .error ⟨.unclosedInstruction, before + 1⟩
    else r.enter (.instruction (b :: content))
  | .tag content quote => r.tagByte content quote b
  | .endTag content quote =>
    if quote.isNone && b = Text.byte '>' then r.endTagDone (before + 1) content
    else r.enter (.endTag (b :: content) (quoteAfter quote b))

/-- The end of the document after `total` bytes: the last token, if text is left. -/
def finish (r : Reader) (total : Nat) : Except ReadFault (Option Token) :=
  match r.mode with
  | .text raw => .ok (if raw.isEmpty then none else some (.text raw.reverse))
  | .markup | .tag _ _ | .endTag _ _ => .error ⟨.unclosedTag, total⟩
  | .declaration => .error ⟨.unknownMarkup, total - 1⟩
  | .comment _ => .error ⟨.unclosedComment, total⟩
  | .characterData _ => .error ⟨.unclosedCharacterData, total⟩
  | .doctype _ _ => .error ⟨.unclosedDoctype, total⟩
  | .instruction _ => .error ⟨.unclosedInstruction, total⟩

end Reader

end OlapClient.Markup
