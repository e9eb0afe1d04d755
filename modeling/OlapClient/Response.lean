import OlapClient.Error

/-!
# Responses

A response is a document that holds either a fault or a result. A fault is an element `Fault`
at any depth, or the error of the first list of messages. A result is the first element `root`
in document order; it is looked for with a list of the trees still to be searched.
-/

namespace OlapClient.Response

open Markup

/-! ### Faults -/

/-- A text without blanks at its ends, unless nothing is left. -/
def trimmedNonempty (s : String) : Option String :=
  let trimmed := Text.trim s
  if trimmed.isEmpty then none else some trimmed

/-- The description of the first error below a detail element. -/
def detailDescription? (detail : Element) : Option String :=
  (detail.descendant? "Error").bind fun e => e.attribute? "Description"

/-- The fault that an element `Fault` describes. -/
def protocolFault (e : Element) : Fault where
  code := (e.childText? "faultcode").bind trimmedNonempty
  description :=
    match (e.childText? "faultstring").bind trimmedNonempty with
    | some text => text
    | none => ((e.child? "detail").bind detailDescription?).getD "unknown server fault"
  detail :=
    ((e.child? "detail").map fun detail =>
      (detailDescription? detail).getD detail.textContent).filter fun text => !text.isEmpty

/-- The fault that an element `Error` describes. -/
def messageFault (e : Element) : Fault where
  code := e.attribute? "ErrorCode"
  description := (e.attribute? "Description").getD "unknown server error"
  detail := e.attribute? "Source"

/-- The fault that a document reports. -/
def fault? (document : Element) : Option Fault :=
  match document.descendant? "Fault" with
  | some e => some (protocolFault e)
  | none =>
    ((document.descendant? "Messages").bind fun messages =>
      messages.child? "Error").map messageFault

/-! ### The result -/

mutual

/-- The number of elements of a tree. -/
def nodes (e : Element) : Nat :=
  match e with
  | ⟨_, _, children, _⟩ => nodesIn children + 1

/-- The number of elements of the trees of a list. -/
def nodesIn (es : List Element) : Nat :=
  match es with
  | [] => 0
  | e :: rest => nodes e + nodesIn rest

end

theorem nodesIn_append (es fs : List Element) : nodesIn (es ++ fs) = nodesIn es + nodesIn fs := by
  induction es with
  | nil => simp [nodesIn]
  | cons e es ih => simp [nodesIn, ih, Nat.add_assoc]

theorem nodes_eq (e : Element) : nodes e = nodesIn e.children + 1 := by
  cases e; simp [nodes]

/-- The first element of this name in the trees still to be searched. -/
def search (name : String) : List Element → Option Element
  | [] => none
  | e :: pending => if e.name = name then some e else search name (e.children ++ pending)
termination_by pending => nodesIn pending
decreasing_by simp [nodesIn_append, nodesIn, nodes_eq]

/-- The element that holds the result of a document. -/
def root (document : Element) : Except ClientError Element :=
  match search "root" [document] with
  | some e => .ok e
  | none => .error (.response .noRoot)

/-- The element that holds the result of a response. -/
def payload (bytes : Bytes) : Except ClientError Element :=
  match readDocument bytes with
  | .error cause => .error (.response (.document cause))
  | .ok document =>
    match fault? document with
    | some fault => .error (.serverFault fault)
    | none => root document

/-! ### Encoded names -/

/-- The character of the hexadecimal digits of an escape. A plus sign may lead them. -/
def escapedChar? (digits : List Char) : Option Char :=
  match Text.unsigned 16 0xFFFFFFFF digits with
  | .ok code => if code.isValidChar then some (Char.ofNat code) else none
  | .error _ => none

/-- The character of the escape that a text starts with: `_x`, four digits and `_`. -/
def escapeAt? : List Char → Option Char
  | '_' :: 'x' :: a :: b :: c :: d :: '_' :: _ => escapedChar? [a, b, c, d]
  | _ => none

/-- The characters after the first `skip`, each escape replaced by its character. -/
def unescapeFrom (skip : Nat) : List Char → List Char
  | [] => []
  | c :: cs =>
    match skip with
    | skip + 1 => unescapeFrom skip cs
    | 0 =>
      match escapeAt? (c :: cs) with
      | some decoded => decoded :: unescapeFrom 6 cs
      | none => c :: unescapeFrom 0 cs

/-- A name with its escapes, such as `_x005B_`, replaced by their characters. -/
def decodeName (name : String) : String := String.ofList (unescapeFrom 0 name.toList)

end OlapClient.Response
