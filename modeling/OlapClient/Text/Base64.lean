import OlapClient.Text.Utf8

/-!
# Bytes as Base64

Three bytes are four characters. A last group of one or two bytes is filled with equals signs;
its unused bits are zero. Reading accepts exactly what writing produces.
-/

namespace OlapClient.Base64

/-- The character of six bits. -/
def digit (n : Nat) : Char :=
  if n < 26 then Char.ofNat ('A'.toNat + n)
  else if n < 52 then Char.ofNat ('a'.toNat + (n - 26))
  else if n < 62 then Char.ofNat ('0'.toNat + (n - 52))
  else if n = 62 then '+' else '/'

/-- The six bits of a character. -/
def value? (c : Char) : Option Nat :=
  if 'A' ≤ c && c ≤ 'Z' then some (c.toNat - 'A'.toNat)
  else if 'a' ≤ c && c ≤ 'z' then some (c.toNat - 'a'.toNat + 26)
  else if '0' ≤ c && c ≤ '9' then some (c.toNat - '0'.toNat + 52)
  else if c = '+' then some 62
  else if c = '/' then some 63
  else none

/-- The characters of a group of three bytes, as one number of 24 bits. -/
def group (n : Nat) : List Char :=
  [digit (n / 0x40000), digit (n / 0x1000 % 64), digit (n / 0x40 % 64), digit (n % 64)]

/-- Bytes as characters. -/
def encodeChars : Bytes → List Char
  | [] => []
  | [a] => (group (a.toNat * 0x10000)).take 2 ++ ['=', '=']
  | [a, b] => (group (a.toNat * 0x10000 + b.toNat * 0x100)).take 3 ++ ['=']
  | a :: b :: c :: rest =>
    group (a.toNat * 0x10000 + b.toNat * 0x100 + c.toNat) ++ encodeChars rest

/-- Bytes as a text. -/
def encode (bytes : Bytes) : String := String.ofList (encodeChars bytes)

/-- The three bytes of a number of 24 bits. -/
def groupBytes (n : Nat) : Bytes :=
  [UInt8.ofNat (n / 0x10000), UInt8.ofNat (n / 0x100 % 256), UInt8.ofNat (n % 256)]

/-- The bytes of a full group of characters. -/
def decodeGroup (a b c d : Char) : Option Bytes := do
  let a ← value? a
  let b ← value? b
  let c ← value? c
  let d ← value? d
  return groupBytes (a * 0x40000 + b * 0x1000 + c * 0x40 + d)

/-- The two bytes of a last group of three characters. -/
def decodeThree (a b c : Char) : Option Bytes := do
  let a ← value? a
  let b ← value? b
  let c ← value? c
  if c % 4 = 0 then return (groupBytes (a * 0x40000 + b * 0x1000 + c * 0x40)).take 2 else none

/-- The byte of a last group of two characters. -/
def decodeTwo (a b : Char) : Option Bytes := do
  let a ← value? a
  let b ← value? b
  if b % 16 = 0 then return (groupBytes (a * 0x40000 + b * 0x1000)).take 1 else none

/-- The bytes of characters. -/
def decodeChars : List Char → Option Bytes
  | [] => some []
  | a :: b :: c :: d :: rest =>
    if d = '=' then
      if rest.isEmpty then (if c = '=' then decodeTwo a b else decodeThree a b c) else none
    else do
      let bytes ← decodeGroup a b c d
      let others ← decodeChars rest
      return bytes ++ others
  | _ => none

/-- The bytes of a text. -/
def decode (s : String) : Option Bytes := decodeChars s.toList

/-- The characters that a written field is made of. -/
def isFieldChar (c : Char) : Bool := (value? c).isSome || c == '='

end OlapClient.Base64
