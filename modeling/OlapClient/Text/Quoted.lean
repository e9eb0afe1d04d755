import OlapClient.Text.Unprintable

/-!
# Values as messages show them

A text stands between double quotes with its quotes, backslashes and controls escaped. Lists
stand in square brackets, and a value that may be absent says so.
-/

namespace OlapClient.Text

/-- The hexadecimal digits of a number, in lower case. -/
def hexDigits (n : Nat) : String := String.ofList (Nat.toDigits 16 n)

/-- A character inside a quoted text. -/
def quotedChar (c : Char) : String :=
  if c = '"' then "\\\""
  else if c = '\\' then "\\\\"
  else if c = '\n' then "\\n"
  else if c = '\r' then "\\r"
  else if c = '\t' then "\\t"
  else if c.toNat = 0 then "\\0"
  else if isUnprintable c then "\\u\x7b" ++ hexDigits c.toNat ++ "\x7d"
  else c.toString

/-- A text between double quotes. -/
def quote (s : String) : String := "\"" ++ String.join (s.toList.map quotedChar) ++ "\""

/-- A list between square brackets. -/
def listed (items : List String) : String := "[" ++ String.intercalate ", " items ++ "]"

/-- A list of numbers. -/
def listedNumbers (ns : List Nat) : String := listed (ns.map toString)

/-- A value that may be absent. -/
def optional {α : Type} (shown : α → String) : Option α → String
  | none => "None"
  | some a => "Some(" ++ shown a ++ ")"

/-- A record: its name, its fields in order, and whether some fields are left out. -/
def record (name : String) (fields : List (String × String)) (partially : Bool) : String :=
  let shown := fields.map fun field => field.1 ++ ": " ++ field.2
  let shown := if partially then shown ++ [".."] else shown
  name ++ " \x7b " ++ String.intercalate ", " shown ++ " \x7d"

end OlapClient.Text
