import OlapClient.Text.Blank

/-!
# Element trees

A document is a tree of elements. Names and attribute keys are local: their prefix is gone,
because servers disagree on the prefixes they bind. An element keeps the character data that
stands directly inside it as one text.
-/

namespace OlapClient.Markup

/-- An element of a document. -/
structure Element where
  /-- The name without its prefix. -/
  name : String
  /-- Keys without their prefix, and values, in document order. -/
  attributes : List (String × String) := []
  children : List Element := []
  /-- The character data directly inside the element. -/
  text : String := ""
  deriving Repr, Inhabited

namespace Element

/-- The value of the first attribute of this key. -/
def attribute? (e : Element) (key : String) : Option String :=
  (e.attributes.find? fun a => a.1 == key).map (·.2)

/-- The children of this name, in order. -/
def childrenNamed (e : Element) (name : String) : List Element :=
  e.children.filter fun c => c.name == name

/-- The first child of this name. -/
def child? (e : Element) (name : String) : Option Element :=
  e.children.find? fun c => c.name == name

/-- The text of the first child of this name. -/
def childText? (e : Element) (name : String) : Option String :=
  (e.child? name).map (·.text)

mutual

/-- The first element of this name in document order, the element itself included. -/
def descendant? (name : String) (e : Element) : Option Element :=
  match e with
  | ⟨own, attributes, children, text⟩ =>
    if own = name then some ⟨own, attributes, children, text⟩ else descendantIn? name children

/-- The first element of this name in the trees of a list. -/
def descendantIn? (name : String) (es : List Element) : Option Element :=
  match es with
  | [] => none
  | e :: rest =>
    match descendant? name e with
    | some found => some found
    | none => descendantIn? name rest

end

mutual

/-- The texts in document order, each trimmed, without the blank ones. -/
def texts (e : Element) : List String :=
  match e with
  | ⟨_, _, children, text⟩ =>
    let own := Text.trim text
    if own.isEmpty then textsIn children else own :: textsIn children

/-- The texts of the trees of a list. -/
def textsIn (es : List Element) : List String :=
  match es with
  | [] => []
  | e :: rest => texts e ++ textsIn rest

end

/-- All character data below the element, single spaces between the texts. -/
def textContent (e : Element) : String := String.intercalate " " e.texts

/-- One more child at the end. -/
def addChild (e child : Element) : Element := { e with children := e.children ++ [child] }

/-- More character data. -/
def addText (e : Element) (text : String) : Element := { e with text := e.text ++ text }

end Element

end OlapClient.Markup
