import OlapClient.Cache.Error
import OlapClient.Text.Base64
import OlapClient.Time.Stamp

/-!
# Records

A line of a cache file holds one exchange: when it was recorded, and the address, the key and
the response in Base64, with a bar between the fields. Neither a bar nor a line end occurs
inside a field, so nothing else has to be escaped.
-/

namespace OlapClient

/-- A recorded exchange. -/
structure Record where
  recordedAt : Stamp
  url : String
  /-- The request, or its digest. -/
  key : Bytes
  response : Bytes
  deriving DecidableEq, Repr

namespace Record

/-- The character between two fields. -/
def separator : Char := '|'

/-- The characters of a record. -/
def chars (r : Record) : List Char :=
  r.recordedAt.millisecondChars ++
    separator :: Base64.encodeChars (Utf8.encode r.url) ++
    separator :: Base64.encodeChars r.key ++
    separator :: Base64.encodeChars r.response

/-- The record as a line, without its end. -/
def encode (r : Record) : String := String.ofList r.chars

/-! ### Reading -/

/-- The number of bytes of characters. -/
def byteLength (cs : List Char) : Nat := cs.foldr (fun c n => c.utf8Size + n) 0

/-- A field and what follows it, or the number of bytes left where it fails. -/
abbrev FieldReader (α : Type) := List Char → Except Nat (α × List Char)

/-- The time stamp: all up to the first separator, one character at least. -/
def stampField : FieldReader Stamp := fun cs =>
  match Stamp.parseChars (cs.takeWhile (· ≠ separator)) with
  | some stamp => .ok (stamp, cs.dropWhile (· ≠ separator))
  | none => .error (byteLength cs)

/-- A field in Base64: all characters that such a field is made of. -/
def bytesField : FieldReader Bytes := fun cs =>
  match Base64.decodeChars (cs.takeWhile Base64.isFieldChar) with
  | some bytes => .ok (bytes, cs.dropWhile Base64.isFieldChar)
  | none => .error (byteLength cs)

/-- A separator. -/
def separatorField : FieldReader Unit := fun cs =>
  match cs with
  | c :: rest => if c = separator then .ok ((), rest) else .error (byteLength cs)
  | [] => .error 0

/-- The fields of a line, or the number of bytes left where reading fails. -/
def fields (cs : List Char) : Except Nat (Stamp × Bytes × Bytes × Bytes) := do
  let (stamp, cs) ← stampField cs
  let (_, cs) ← separatorField cs
  let (url, cs) ← bytesField cs
  let (_, cs) ← separatorField cs
  let (key, cs) ← bytesField cs
  let (_, cs) ← separatorField cs
  let (response, cs) ← bytesField cs
  if cs.isEmpty then return (stamp, url, key, response) else throw (byteLength cs)

/-- The record of a line. -/
def decode (line : String) : Except RecordFault Record :=
  let cs := line.toList
  match fields cs with
  | .error left => .error (.column (byteLength cs - left + 1))
  | .ok (stamp, url, key, response) =>
    match Utf8.decode? url with
    | some url => .ok ⟨stamp, url, key, response⟩
    | none => .error .urlNotText

end Record

end OlapClient
