/-!
# Durations

A duration is a number of nanoseconds. It is written in the largest unit of which it holds at
least one, with the remainder as a decimal fraction that does not end in zero.
-/

namespace OlapClient

/-- A length of time. -/
structure Duration where
  nanoseconds : Nat
  deriving DecidableEq, Repr

namespace Duration

/-- A number of whole seconds. -/
def ofSeconds (n : Nat) : Duration := ⟨n * 1000000000⟩

/-- A number in decimal, filled with zeros on the left up to `width`. -/
def padded (width n : Nat) : List Char :=
  let digits := Nat.toDigits 10 n
  List.replicate (width - digits.length) '0' ++ digits

/-- The fraction `remainder / 10 ^ places` with its point; nothing for zero. -/
def fraction (remainder places : Nat) : List Char :=
  let digits := ((padded places remainder).reverse.dropWhile (· = '0')).reverse
  if digits.isEmpty then [] else '.' :: digits

/-- `n` units of `10 ^ places` nanoseconds. -/
def inUnits (n places : Nat) (unit : String) : String :=
  String.ofList (Nat.toDigits 10 (n / Nat.pow 10 places) ++
    fraction (n % Nat.pow 10 places) places) ++ unit

/-- The duration as it is written. -/
def text (d : Duration) : String :=
  let n := d.nanoseconds
  if 1000000000 ≤ n then inUnits n 9 "s"
  else if 1000000 ≤ n then inUnits n 6 "ms"
  else if 1000 ≤ n then inUnits n 3 "µs"
  else inUnits n 0 "ns"

end Duration

end OlapClient
