/-!
# Structured values

The neutral form in which data is handed to other programs: texts, truth values, whole numbers,
lists, and objects with named fields. A record is an object with a field for each of its parts;
it is also read from the list of its parts in their order. A choice between variants is an object
whose only field names the variant.
-/

namespace OlapClient.Interchange

/-- A structured value. -/
inductive Value where
  | null
  | boolean (b : Bool)
  | number (n : Int)
  | text (s : String)
  | list (items : List Value)
  | object (fields : List (String × Value))
  deriving Repr, Inhabited

namespace Value

/-! ### Writing -/

/-- A choice of a variant. -/
def variant (name : String) (content : Value) : Value := object [(name, content)]

/-- A list of items, each written by the same function. -/
def listOf {α : Type} (write : α → Value) (items : List α) : Value := list (items.map write)

/-- Something that may be absent. -/
def optional {α : Type} (write : α → Value) : Option α → Value
  | some a => write a
  | none => null

/-- A natural number. -/
def natural (n : Nat) : Value := number n

/-! ### Reading -/

/-- The text of a value. -/
def text? : Value → Option String
  | text s => some s
  | _ => none

/-- The truth value of a value. -/
def boolean? : Value → Option Bool
  | boolean b => some b
  | _ => none

/-- The items of a list, each read by the same function. -/
def listOf? {α : Type} (read : Value → Option α) : Value → Option (List α)
  | list items => items.mapM read
  | _ => none

/-- The parts of a record, absent ones as none. Fields of other names are ignored. -/
def record? (names : List String) : Value → Option (List (Option Value))
  | object fields => some (names.map fun name => fields.lookup name)
  | list items => if items.length = names.length then some (items.map some) else none
  | _ => none

/-- The variant that is chosen, and its content. -/
def variant? : Value → Option (String × Value)
  | object [(name, content)] => some (name, content)
  | _ => none

/-- The chosen variant of a choice without contents, which may also be written as a text. -/
def word? : Value → Option String
  | text s => some s
  | object [(name, null)] => some name
  | _ => none

/-- What an optional part holds; absence and null are the same. -/
def optional? {α : Type} (read : Value → Option α) : Option Value → Option (Option α)
  | none | some null => some none
  | some v => (read v).map some

end Value

end OlapClient.Interchange
