import OlapClient.Text.Utf8

/-!
# Attributes of a tag

The attributes stand between the name of a tag and its end: keys, equals signs and quoted
values. They are read one byte at a time; offsets count from the first byte of the name. A key
may not occur twice, prefix included, and that is noticed at its second equals sign.
-/

namespace OlapClient.Markup

/-- The blanks of markup: space, tab, line feed, carriage return. -/
def isSpace (b : UInt8) : Bool := b == 0x20 || b == 0x09 || b == 0x0A || b == 0x0D

/-- Why the attributes of a tag cannot be read on. -/
inductive AttributeFault where
  | missingEquals (position : Nat)
  | duplicate (position previous : Nat)
  | missingValue (position : Nat)
  | unquotedValue (position : Nat)
  | unclosedQuote (position : Nat) (quote : Char)
  deriving DecidableEq, Repr

namespace AttributeFault

/-- The wording of a fault. -/
def message : AttributeFault → String
  | missingEquals p =>
    located p "attribute key must be directly followed by \x60=\x60 or space"
  | duplicate p previous =>
    located p ("duplicated attribute, previous declaration at position " ++ toString previous)
  | missingValue p => located p "\x60=\x60 must be followed by an attribute value"
  | unquotedValue p => located p "attribute value must be enclosed in \x60\"\x60 or \x60'\x60"
  | unclosedQuote p quote =>
    located p ("missing closing quote \x60" ++ quote.toString ++ "\x60 in attribute value")
where
  /-- A text that names the byte offset it is about. -/
  located (position : Nat) (text : String) : String :=
    "position " ++ toString position ++ ": " ++ text

end AttributeFault

/-- An attribute as it is written, its value not yet decoded. -/
structure RawAttribute where
  key : Bytes
  value : Bytes
  deriving DecidableEq, Repr

/-- A place among the attributes. Sequences under way have their last byte first. -/
inductive AttributeState where
  /-- Between attributes. -/
  | between
  | inKey (start : Nat) (key : Bytes)
  /-- After a key; an equals sign has to follow. -/
  | afterKey (start : Nat) (key : Bytes)
  /-- After an equals sign; a quote has to follow. -/
  | beforeValue (key : Bytes)
  | inValue (key : Bytes) (quote : UInt8) (value : Bytes)
  deriving DecidableEq, Repr

/-- The keys that were read, and where they start. -/
abbrev KeyPositions := List (Bytes × Nat)

/-- An equals sign after the key that starts at `start`. -/
def keyRead (seen : KeyPositions) (start : Nat) (key : Bytes) :
    Except AttributeFault (KeyPositions × AttributeState) :=
  match seen.find? fun entry => entry.1 == key with
  | some entry => .error (.duplicate start entry.2)
  | none => .ok (seen ++ [(key, start)], .beforeValue key)

/-- The attributes in the bytes from `offset` on, and what ended them if it was a fault. -/
def attributesFrom (offset : Nat) (seen : KeyPositions) (state : AttributeState) :
    Bytes → List RawAttribute × Option AttributeFault
  | [] =>
    ([], match state with
      | .between => none
      | .inKey _ _ | .afterKey _ _ => some (.missingEquals offset)
      | .beforeValue _ => some (.missingValue offset)
      | .inValue _ quote _ => some (.unclosedQuote offset (Char.ofNat quote.toNat)))
  | b :: bs =>
    match state with
    | .between =>
      attributesFrom (offset + 1) seen (if isSpace b then .between else .inKey offset [b]) bs
    | .inKey start key =>
      if b = Text.byte '=' then
        match keyRead seen start key.reverse with
        | .ok (seen, state) => attributesFrom (offset + 1) seen state bs
        | .error fault => ([], some fault)
      else attributesFrom (offset + 1) seen
        (if isSpace b then .afterKey start key else .inKey start (b :: key)) bs
    | .afterKey start key =>
      if isSpace b then attributesFrom (offset + 1) seen state bs
      else if b = Text.byte '=' then
        match keyRead seen start key.reverse with
        | .ok (seen, state) => attributesFrom (offset + 1) seen state bs
        | .error fault => ([], some fault)
      else ([], some (.missingEquals offset))
    | .beforeValue key =>
      if isSpace b then attributesFrom (offset + 1) seen state bs
      else if b = Text.byte '"' || b = Text.byte '\'' then
        attributesFrom (offset + 1) seen (.inValue key b []) bs
      else ([], some (.unquotedValue offset))
    | .inValue key quote value =>
      if b = quote then
        let (rest, fault?) := attributesFrom (offset + 1) seen .between bs
        (⟨key, value.reverse⟩ :: rest, fault?)
      else attributesFrom (offset + 1) seen (.inValue key quote (b :: value)) bs

/-- The name of a tag: what stands before the first blank. -/
def tagName (content : Bytes) : Bytes := content.takeWhile fun b => !isSpace b

/-- The attributes of a tag with the given content. -/
def rawAttributes (content : Bytes) : List RawAttribute × Option AttributeFault :=
  let name := tagName content
  attributesFrom name.length [] .between (content.drop name.length)

end OlapClient.Markup
