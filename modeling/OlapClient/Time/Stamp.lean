import OlapClient.Duration
import OlapClient.Time.Date

/-!
# Time stamps

A time stamp is a date and a time of day in universal time, to the nanosecond. The second 60 is
a leap second. Stamps are read in the notation of RFC 3339, with any offset, and written either
with as many digits as they need or to the millisecond.
-/

namespace OlapClient

/-- A moment in universal time. -/
structure Stamp where
  date : Date
  hour : Nat
  minute : Nat
  /-- The second; 60 is a leap second. -/
  second : Nat
  nanosecond : Nat
  hour_valid : hour < 24
  minute_valid : minute < 60
  second_valid : second ≤ 60
  nanosecond_valid : nanosecond < 1000000000
  deriving DecidableEq, Repr

namespace Stamp

/-- The start of 1970. -/
def epoch : Stamp where
  date := .firstOfYear 1970
  hour := 0
  minute := 0
  second := 0
  nanosecond := 0
  hour_valid := by decide
  minute_valid := by decide
  second_valid := by decide
  nanosecond_valid := by decide

/-! ### Reading -/

/-- A reader of the front of a text: a value and what follows it. -/
abbrev Reader (α : Type) := List Char → Option (α × List Char)

/-- The value of a decimal digit. -/
def digit? (c : Char) : Option Nat := if c.isDigit then some (c.toNat - '0'.toNat) else none

/-- Exactly `n` more digits of a number that starts with `value`. -/
def number (n value : Nat) : Reader Nat := fun cs =>
  match n with
  | 0 => some (value, cs)
  | n + 1 =>
    match cs with
    | [] => none
    | c :: rest =>
      match digit? c with
      | some d => number n (value * 10 + d) rest
      | none => none

/-- One of these characters. -/
def oneOf (allowed : List Char) : Reader Unit
  | c :: rest => if allowed.contains c then some ((), rest) else none
  | [] => none

/-- The nanoseconds of a fraction: the first nine of its digits. -/
def fractionValue (digits : List Char) : Nat :=
  let kept := digits.take 9
  kept.foldl (fun n c => n * 10 + (c.toNat - '0'.toNat)) 0 * Nat.pow 10 (9 - kept.length)

/-- A fraction of a second, if there is one: a point and at least one digit. -/
def fraction : Reader Nat
  | '.' :: rest =>
    let digits := rest.takeWhile Char.isDigit
    if digits.isEmpty then none else some (fractionValue digits, rest.drop digits.length)
  | cs => some (0, cs)

/-- An offset from universal time in minutes. -/
def offset : Reader Int
  | [] => none
  | c :: rest =>
    if c = 'Z' || c = 'z' then some (0, rest)
    else if c = '+' || c = '-' || c = '−' then do
      let (hours, rest) ← number 2 0 rest
      let (_, rest) ← oneOf [':'] rest
      let (minutes, rest) ← number 2 0 rest
      if hours < 24 && minutes < 60 then
        let total : Int := hours * 60 + minutes
        return (if c = '+' then total else -total, rest)
      else none
    else none

/-- A calendar date. -/
def calendarDate : Reader Date := fun cs => do
  let (year, cs) ← number 4 0 cs
  let (_, cs) ← oneOf ['-'] cs
  let (month, cs) ← number 2 0 cs
  let (_, cs) ← oneOf ['-'] cs
  let (day, cs) ← number 2 0 cs
  let date ← Date.of? year month day
  return (date, cs)

/-- The date that lies a number of days away, which is one at most. -/
def shiftDate (d : Date) (days : Int) : Date :=
  if 0 < days then d.next else if days < 0 then d.previous else d

/-- The stamp of a local time at the given offset. -/
def ofLocal? (date : Date) (hour minute second nanosecond : Nat) (offset : Int) : Option Stamp :=
  if h : second ≤ 60 ∧ nanosecond < 1000000000 then
    if hour < 24 && minute < 60 then
      let minutes : Int := hour * 60 + minute - offset
      let inDay := (minutes % 1440).toNat
      have inDay_lt : inDay < 1440 := by omega
      some {
        date := shiftDate date (minutes / 1440)
        hour := inDay / 60
        minute := inDay % 60
        second := second
        nanosecond := nanosecond
        hour_valid := by omega
        minute_valid := Nat.mod_lt _ (by decide)
        second_valid := h.1
        nanosecond_valid := h.2 }
    else none
  else none

/-- The stamp that characters hold. -/
def parseChars (cs : List Char) : Option Stamp := do
  let (date, cs) ← calendarDate cs
  let (_, cs) ← oneOf ['T', 't', ' '] cs
  let (hour, cs) ← number 2 0 cs
  let (_, cs) ← oneOf [':'] cs
  let (minute, cs) ← number 2 0 cs
  let (_, cs) ← oneOf [':'] cs
  let (second, cs) ← number 2 0 cs
  let (nanosecond, cs) ← fraction cs
  let (offset, cs) ← offset cs
  if cs.isEmpty then ofLocal? date hour minute second nanosecond offset else none

/-- The stamp that a text holds. -/
def parse (s : String) : Option Stamp := parseChars s.toList

/-! ### Writing -/

/-- A year: four digits, and beyond them a sign. -/
def yearChars (year : Int) : List Char :=
  if 0 ≤ year && year ≤ 9999 then Duration.padded 4 year.toNat
  else (if year < 0 then '-' else '+') :: Duration.padded 4 year.natAbs

/-- The stamp up to the second. -/
def secondsChars (t : Stamp) : List Char :=
  yearChars t.date.year ++ '-' :: Duration.padded 2 t.date.month ++
    '-' :: Duration.padded 2 t.date.day ++ 'T' :: Duration.padded 2 t.hour ++
    ':' :: Duration.padded 2 t.minute ++ ':' :: Duration.padded 2 t.second

/-- A fraction of a second with three, six or nine digits, as many as it needs. -/
def shortestFraction (nanosecond : Nat) : List Char :=
  if nanosecond = 0 then []
  else if nanosecond % 1000000 = 0 then '.' :: Duration.padded 3 (nanosecond / 1000000)
  else if nanosecond % 1000 = 0 then '.' :: Duration.padded 6 (nanosecond / 1000)
  else '.' :: Duration.padded 9 nanosecond

/-- The stamp with all its digits and a numeric offset. -/
def text (t : Stamp) : String :=
  String.ofList (t.secondsChars ++ shortestFraction t.nanosecond ++ "+00:00".toList)

/-- The stamp to the millisecond; the rest is cut off. -/
def millisecondChars (t : Stamp) : List Char :=
  t.secondsChars ++ '.' :: Duration.padded 3 (t.nanosecond / 1000000) ++ ['Z']

end Stamp

/-- The time as storage needs it: a clock that only runs on, and the date. -/
structure Moment where
  /-- Nanoseconds since some fixed moment. -/
  clock : Nat
  stamp : Stamp
  deriving DecidableEq, Repr

end OlapClient
