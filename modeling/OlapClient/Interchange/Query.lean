import OlapClient.Identifier.Event
import OlapClient.Interchange.Value
import OlapClient.Query

/-!
# Structured identifiers and queries

Identifiers, tuples and queries as structured values, and back.
-/

namespace OlapClient.Interchange

open Value

/-! ### Writing -/

/-- A quoting as a structured value. -/
def ofQuoting : Quoting → Value
  | .quoted => text "quoted"
  | .unquoted => text "unquoted"

/-- A name as a structured value. -/
def ofName (n : Name) : Value := object [("name", text n.value), ("quoting", ofQuoting n.quoting)]

/-- A segment as a structured value. -/
def ofSegment : Segment → Value
  | .name n => variant "Name" (ofName n)
  | .key parts => variant "Key" (listOf ofName parts)

/-- An identifier as a structured value. -/
def ofIdentifier (i : Identifier) : Value := object [("segments", listOf ofSegment i.segments)]

/-- A tuple as a structured value. -/
def ofTuple (t : Tuple) : Value := object [("members", listOf ofIdentifier t.members)]

/-- The set on an axis as a structured value. -/
def ofAxisSet : AxisSet → Value
  | .members ms => variant "Members" (listOf ofIdentifier ms)
  | .tuples ts => variant "Tuples" (listOf ofTuple ts)
  | .expression s => variant "Expression" (text s)

/-- An axis of a query as a structured value. -/
def ofQueryAxis (a : QueryAxis) : Value :=
  object [("set", ofAxisSet a.set), ("non_empty", boolean a.nonEmpty)]

/-- A query as a structured value. -/
def ofSelect (q : SelectQuery) : Value :=
  object [("cube", ofIdentifier q.cube), ("axes", listOf ofQueryAxis q.axes),
    ("slicer", optional ofTuple q.slicer)]

/-! ### Reading -/

/-- The quoting that a value holds. -/
def quoting? (v : Value) : Option Quoting :=
  match v.word? with
  | some "quoted" => some .quoted
  | some "unquoted" => some .unquoted
  | _ => none

/-- The name that a value holds. -/
def name? (v : Value) : Option Name := do
  match ← v.record? ["name", "quoting"] with
  | [some n, some q] => return ⟨← n.text?, ← quoting? q⟩
  | _ => none

/-- The segment that a value holds. -/
def segment? (v : Value) : Option Segment := do
  match ← v.variant? with
  | ("Name", v) => return .name (← name? v)
  | ("Key", v) => return .key (← v.listOf? name?)
  | _ => none

/-- The identifier that a value holds. -/
def identifier? (v : Value) : Option Identifier := do
  match ← v.record? ["segments"] with
  | [some v] => return ⟨← v.listOf? segment?⟩
  | _ => none

/-- The tuple that a value holds. -/
def tuple? (v : Value) : Option Tuple := do
  match ← v.record? ["members"] with
  | [some v] => return ⟨← v.listOf? identifier?⟩
  | _ => none

/-- The set on an axis that a value holds. -/
def axisSet? (v : Value) : Option AxisSet := do
  match ← v.variant? with
  | ("Members", v) => return .members (← v.listOf? identifier?)
  | ("Tuples", v) => return .tuples (← v.listOf? tuple?)
  | ("Expression", v) => return .expression (← v.text?)
  | _ => none

/-- The axis of a query that a value holds. -/
def queryAxis? (v : Value) : Option QueryAxis := do
  match ← v.record? ["set", "non_empty"] with
  | [some s, some b] => return ⟨← axisSet? s, ← b.boolean?⟩
  | _ => none

/-- The query that a value holds. -/
def select? (v : Value) : Option SelectQuery := do
  match ← v.record? ["cube", "axes", "slicer"] with
  | [some c, some a, s] =>
    return ⟨← identifier? c, ← a.listOf? queryAxis?, ← optional? tuple? s⟩
  | _ => none

/-- The event of a scan that a value holds. -/
def event? : Value → Option Event
  | text "member" => some .member
  | text "tuple" => some .tuple
  | v => (segment? v).map .segment

end OlapClient.Interchange
