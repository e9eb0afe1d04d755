/-!
# Calendar dates

Dates of the Gregorian calendar, with year zero and years before it.
-/

namespace OlapClient

/-- Years with a 29th of February. -/
def isLeapYear (year : Int) : Bool := year % 4 = 0 && (year % 100 ≠ 0 || year % 400 = 0)

/-- The number of days of a month, of one day at least. -/
def daysInMonth (year : Int) (month : Nat) : Nat :=
  if month = 2 then (if isLeapYear year then 29 else 28)
  else if month = 4 || month = 6 || month = 9 || month = 11 then 30
  else 31

theorem one_le_daysInMonth (year : Int) (month : Nat) : 1 ≤ daysInMonth year month := by
  unfold daysInMonth
  split
  · split <;> decide
  · split <;> decide

/-- A day of the calendar. -/
structure Date where
  year : Int
  month : Nat
  day : Nat
  month_valid : 1 ≤ month ∧ month ≤ 12
  day_valid : 1 ≤ day ∧ day ≤ daysInMonth year month
  deriving DecidableEq, Repr

namespace Date

/-- The date with these numbers, if there is one. -/
def of? (year : Int) (month day : Nat) : Option Date :=
  if h : (1 ≤ month ∧ month ≤ 12) ∧ 1 ≤ day ∧ day ≤ daysInMonth year month then
    some ⟨year, month, day, h.1, h.2⟩
  else none

/-- The first day of a year. -/
def firstOfYear (year : Int) : Date where
  year := year
  month := 1
  day := 1
  month_valid := by decide
  day_valid := ⟨Nat.le_refl 1, one_le_daysInMonth year 1⟩

/-- The last day of a year. -/
def lastOfYear (year : Int) : Date where
  year := year
  month := 12
  day := 31
  month_valid := by decide
  day_valid := ⟨by decide, by simp [daysInMonth]⟩

/-- The day after. -/
def next (d : Date) : Date :=
  if h : d.day < daysInMonth d.year d.month then
    { d with day := d.day + 1, day_valid := ⟨Nat.le_add_left 1 d.day, h⟩ }
  else if h : d.month < 12 then
    { year := d.year
      month := d.month + 1
      day := 1
      month_valid := ⟨Nat.le_add_left 1 d.month, h⟩
      day_valid := ⟨Nat.le_refl 1, one_le_daysInMonth d.year (d.month + 1)⟩ }
  else firstOfYear (d.year + 1)

/-- The day before. -/
def previous (d : Date) : Date :=
  if h : 1 < d.day then
    { d with
      day := d.day - 1
      day_valid := ⟨Nat.le_sub_one_of_lt h, Nat.le_trans (Nat.sub_le d.day 1) d.day_valid.2⟩ }
  else if h : 1 < d.month then
    { year := d.year
      month := d.month - 1
      day := daysInMonth d.year (d.month - 1)
      month_valid := ⟨Nat.le_sub_one_of_lt h, Nat.le_trans (Nat.sub_le d.month 1) d.month_valid.2⟩
      day_valid := ⟨one_le_daysInMonth d.year (d.month - 1), Nat.le_refl _⟩ }
  else lastOfYear (d.year - 1)

end Date

end OlapClient
