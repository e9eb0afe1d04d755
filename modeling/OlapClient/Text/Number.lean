import OlapClient.Text.Utf8

/-!
# Numbers from text

Whole numbers are ASCII digits after an optional sign, with no other characters, and lie in a
range. Reading goes from left to right and reports the first of two faults: a character that
is no digit, or a value beyond the range.

Doubles are decimal with an optional point and exponent, or the words for infinity and for no
number in any case; they are rounded correctly.
-/

namespace OlapClient.Text

/-- The largest number of 64 bits. -/
def maxCount : Nat := 0xFFFFFFFFFFFFFFFF

/-- Why a text is no whole number. -/
inductive NumberFault where
  | emptyText
  | invalidDigit
  | tooLarge
  | tooSmall
  deriving DecidableEq, Repr

namespace NumberFault

/-- The wording of a fault. -/
def message : NumberFault → String
  | emptyText => "cannot parse integer from empty string"
  | invalidDigit => "invalid digit found in string"
  | tooLarge => "number too large to fit in target type"
  | tooSmall => "number too small to fit in target type"

end NumberFault

/-- The value of a digit in a radix up to sixteen. -/
def digitValue? (radix : Nat) (c : Char) : Option Nat :=
  let value? :=
    if '0' ≤ c && c ≤ '9' then some (c.toNat - '0'.toNat)
    else if 'a' ≤ c && c ≤ 'f' then some (c.toNat - 'a'.toNat + 10)
    else if 'A' ≤ c && c ≤ 'F' then some (c.toNat - 'A'.toNat + 10)
    else none
  value?.filter (· < radix)

/-- The value of digits that follow a prefix of the given value. -/
def digitsFrom (radix limit : Nat) (beyond : NumberFault) (value : Nat) :
    List Char → Except NumberFault Nat
  | [] => .ok value
  | c :: cs =>
    match digitValue? radix c with
    | none => .error .invalidDigit
    | some d =>
      if value * radix + d ≤ limit then digitsFrom radix limit beyond (value * radix + d) cs
      else .error beyond

/-- An unsigned number up to `limit`; a plus sign may stand before it. -/
def unsigned (radix limit : Nat) (cs : List Char) : Except NumberFault Nat :=
  match cs with
  | [] => .error .emptyText
  | ['+'] | ['-'] => .error .invalidDigit
  | '+' :: digits => digitsFrom radix limit .tooLarge 0 digits
  | digits => digitsFrom radix limit .tooLarge 0 digits

/-- A signed decimal number of the given number of bits. -/
def signed (bits : Nat) (cs : List Char) : Except NumberFault Int :=
  match cs with
  | '-' :: c :: digits =>
    (digitsFrom 10 (Nat.pow 2 (bits - 1)) .tooSmall 0 (c :: digits)).map fun n => -(n : Int)
  | _ => (unsigned 10 (Nat.pow 2 (bits - 1) - 1) cs).map Int.ofNat

/-- An unsigned decimal number of 64 bits. -/
def count? (s : String) : Option Nat := (unsigned 10 maxCount s.toList).toOption

/-- An unsigned decimal number of 32 bits. -/
def word? (s : String) : Option Nat := (unsigned 10 0xFFFFFFFF s.toList).toOption

/-- A signed decimal number of 64 bits. -/
def integer? (s : String) : Option Int := (signed 64 s.toList).toOption

/-! ### Doubles -/

/-- The ASCII digits at the front, and what follows them. -/
def leadingDigits (cs : List Char) : List Char × List Char := cs.span (·.isDigit)

/-- The value of ASCII digits. -/
def digitsValue (cs : List Char) : Nat := cs.foldl (fun n c => n * 10 + (c.toNat - '0'.toNat)) 0

/-- An exponent: nothing, or a mark, an optional sign and digits. -/
def exponent? (cs : List Char) : Option Int :=
  match cs with
  | [] => some 0
  | mark :: rest =>
    if mark = 'e' || mark = 'E' then
      let (negative, digits) := match rest with
        | '-' :: ds => (true, ds)
        | '+' :: ds => (false, ds)
        | ds => (false, ds)
      if digits.isEmpty || !digits.all (·.isDigit) then none
      else some (if negative then -(digitsValue digits : Int) else digitsValue digits)
    else none

/-- `mantissa · 10 ^ exponent`, rounded to the nearest double. Digits beyond the range of
doubles decide at once. -/
def scaled (mantissa digits : Nat) (exponent : Int) : Float :=
  if mantissa = 0 then 0.0
  else if 310 < digits + exponent then 1.0 / 0.0
  else if digits + exponent < -330 then 0.0
  else if 0 ≤ exponent then Float.ofScientific mantissa false exponent.toNat
  else Float.ofScientific mantissa true (-exponent).toNat

/-- A decimal number without a sign. -/
def magnitude? (cs : List Char) : Option Float :=
  let lower := cs.map Char.toLower
  if lower = "inf".toList || lower = "infinity".toList then some (1.0 / 0.0)
  else if lower = "nan".toList then some (0.0 / 0.0)
  else
    let (whole, rest) := leadingDigits cs
    let (fraction, rest) := match rest with
      | '.' :: tail => leadingDigits tail
      | _ => ([], rest)
    if whole.isEmpty && fraction.isEmpty then none
    else do
      let exponent ← exponent? rest
      let digits := (whole ++ fraction).dropWhile (· = '0')
      some (scaled (digitsValue digits) digits.length (exponent - fraction.length))

/-- The double that a text holds. -/
def double? (s : String) : Option Float :=
  match s.toList with
  | '-' :: cs => (magnitude? cs).map fun x => -x
  | '+' :: cs => magnitude? cs
  | cs => magnitude? cs

end OlapClient.Text
