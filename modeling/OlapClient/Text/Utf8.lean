/-!
# Bytes and characters

Requests, responses and cache files are lists of bytes that hold UTF-8. Valid bytes are the
encoding of exactly one text. Of other bytes, decoding tells where the first fault lies; lossy
decoding puts the replacement character in the place of each faulty sequence.
-/

namespace OlapClient

/-- A sequence of bytes. -/
abbrev Bytes := List UInt8

namespace Text

/-- The byte of an ASCII character. -/
def byte (c : Char) : UInt8 := UInt8.ofNat c.toNat

/-- The bytes of an ASCII text. -/
def ascii (s : String) : Bytes := s.toList.map byte

end Text

/-- Where bytes stop being UTF-8. -/
structure Utf8Fault where
  /-- The number of bytes before the fault, all of them valid. -/
  index : Nat
  /-- The number of bytes that belong to no character; none if the input ends too early. -/
  length : Option Nat
  deriving DecidableEq, Repr

namespace Utf8Fault

/-- The wording of a fault. -/
def message (f : Utf8Fault) : String :=
  match f.length with
  | some n => "invalid utf-8 sequence of " ++ toString n ++ " bytes from index " ++ toString f.index
  | none => "incomplete utf-8 byte sequence from index " ++ toString f.index

end Utf8Fault

namespace Utf8

/-- The UTF-8 bytes of a list of characters. -/
def encodeChars (cs : List Char) : Bytes := cs.flatMap String.utf8EncodeChar

/-- The UTF-8 bytes of a text. -/
def encode (s : String) : Bytes := encodeChars s.toList

/-- The text whose UTF-8 bytes these are. -/
def decode? (bytes : Bytes) : Option String := String.fromUTF8? bytes.toByteArray

/-! ### Characters at the front -/

/-- The bytes that continue a character. -/
def isContinuation (b : UInt8) : Bool := 0x80 ≤ b && b ≤ 0xBF

/-- The second bytes that may follow a leading byte, and the number of bytes after that one. -/
def secondByte (lead : UInt8) : Option ((UInt8 → Bool) × Nat) :=
  if 0xC2 ≤ lead && lead ≤ 0xDF then some (isContinuation, 0)
  else if lead = 0xE0 then some (fun b => 0xA0 ≤ b && b ≤ 0xBF, 1)
  else if lead = 0xED then some (fun b => 0x80 ≤ b && b ≤ 0x9F, 1)
  else if 0xE1 ≤ lead && lead ≤ 0xEF then some (isContinuation, 1)
  else if lead = 0xF0 then some (fun b => 0x90 ≤ b && b ≤ 0xBF, 2)
  else if lead = 0xF4 then some (fun b => 0x80 ≤ b && b ≤ 0x8F, 2)
  else if 0xF1 ≤ lead && lead ≤ 0xF3 then some (isContinuation, 2)
  else none

/-- What the front of a list of bytes is. -/
inductive Front where
  /-- A character of this many bytes. -/
  | character (length : Nat)
  /-- This many bytes that belong to no character. -/
  | invalid (length : Nat)
  /-- The beginning of a character, cut off by the end. -/
  | incomplete
  deriving DecidableEq, Repr

/-- The rest of a character of which `read` bytes were read and `missing` are still to come. -/
def continuation (read : Nat) : Nat → Bytes → Front
  | 0, _ => .character read
  | _ + 1, [] => .incomplete
  | missing + 1, b :: bs =>
    if isContinuation b then continuation (read + 1) missing bs else .invalid read

/-- What `lead :: rest` starts with. -/
def front (lead : UInt8) (rest : Bytes) : Front :=
  if lead < 0x80 then .character 1
  else match secondByte lead, rest with
    | none, _ => .invalid 1
    | some _, [] => .incomplete
    | some (allowed, missing), b :: bs =>
      if allowed b then continuation 2 missing bs else .invalid 1

/-- The first fault of a list of bytes, `index` bytes into the input. `skip` bytes belong to a
character that was found before. -/
def fault? (index skip : Nat) : Bytes → Option Utf8Fault
  | [] => none
  | b :: bs =>
    match skip with
    | skip + 1 => fault? (index + 1) skip bs
    | 0 =>
      match front b bs with
      | .character n => fault? (index + 1) (n - 1) bs
      | .invalid n => some ⟨index, some n⟩
      | .incomplete => some ⟨index, none⟩

/-- The text of valid bytes, or where they stop being valid. -/
def decode (bytes : Bytes) : Except Utf8Fault String :=
  match decode? bytes with
  | some s => .ok s
  | none => .error ((fault? 0 0 bytes).getD ⟨0, none⟩)

/-- The bytes with each faulty sequence replaced by the encoding of U+FFFD. -/
def repair (skip : Nat) (copying : Bool) : Bytes → Bytes
  | [] => []
  | b :: bs =>
    match skip with
    | skip + 1 => if copying then b :: repair skip copying bs else repair skip copying bs
    | 0 =>
      match front b bs with
      | .character n => b :: repair (n - 1) true bs
      | .invalid n => 0xEF :: 0xBF :: 0xBD :: repair (n - 1) false bs
      | .incomplete => [0xEF, 0xBF, 0xBD]

/-- The text of bytes, faulty sequences replaced by the replacement character. -/
def decodeLossy (bytes : Bytes) : String :=
  match decode? bytes with
  | some s => s
  | none => (decode? (repair 0 true bytes)).getD ""

end Utf8

end OlapClient
