import Mathlib.Data.Nat.Digits.Defs
import OlapClient.Proofs.Traversal
import OlapClient.Time.Stamp

/-!
# Time stamps, read back

A stamp that is written to the millisecond is read again, without what was cut off. Years of four
digits are the only ones that are written without a sign, and a sign is not read.
-/

namespace OlapClient

namespace Duration

/-! ### Digits -/

/-- The number that digits continue. -/
def continued (value : Nat) (digits : List Char) : Nat :=
  digits.foldl (fun n c => n * 10 + (c.toNat - '0'.toNat)) value

theorem digitChar_isDigit (d : Nat) (h : d < 10) : d.digitChar.isDigit = true := by
  have hall : ∀ k : Fin 10, (k : Nat).digitChar.isDigit = true := by decide
  exact hall ⟨d, h⟩

theorem digitChar_value (d : Nat) (h : d < 10) : d.digitChar.toNat - '0'.toNat = d := by
  have hall : ∀ k : Fin 10, (k : Nat).digitChar.toNat - '0'.toNat = k := by decide
  exact hall ⟨d, h⟩

theorem toDigits_step (n : Nat) (h : 10 ≤ n) :
    Nat.toDigits 10 n = Nat.toDigits 10 (n / 10) ++ [(n % 10).digitChar] := by
  have hd : n % 10 < 10 := Nat.mod_lt n (by decide)
  have hn : 10 * (n / 10) + n % 10 = n := Nat.div_add_mod n 10
  rw [← Nat.toDigits_of_lt_base hd, Nat.toDigits_append_toDigits (by decide) (by omega) hd, hn]

theorem padded_one (n : Nat) (h : n < 10) : padded 1 n = [n.digitChar] := by
  rw [padded, Nat.toDigits_of_lt_base h]
  rfl

theorem padded_step (width n : Nat) :
    padded (width + 2) n = padded (width + 1) (n / 10) ++ [(n % 10).digitChar] := by
  rcases Nat.lt_or_ge n 10 with h | h
  · have hzero : Nat.toDigits 10 0 = ['0'] := rfl
    rw [padded, padded, Nat.toDigits_of_lt_base h, Nat.div_eq_of_lt h, Nat.mod_eq_of_lt h, hzero]
    show List.replicate (width + 1) '0' ++ _ = List.replicate width '0' ++ ['0'] ++ _
    rw [List.replicate_succ']
  · have hwidth : width + 2 - ((Nat.toDigits 10 (n / 10)).length + 1) =
        width + 1 - (Nat.toDigits 10 (n / 10)).length := by omega
    rw [padded, padded, toDigits_step n h, List.length_append, List.length_singleton, hwidth,
      List.append_assoc]

theorem padded_spec (width n : Nat) (h : n < 10 ^ (width + 1)) :
    (padded (width + 1) n).length = width + 1 ∧
      (∀ c ∈ padded (width + 1) n, c.isDigit = true) ∧
      ∀ value, continued value (padded (width + 1) n) = value * 10 ^ (width + 1) + n := by
  induction width generalizing n with
  | zero =>
    have hn : n < 10 := h
    rw [padded_one n hn]
    refine ⟨rfl, fun c hc => ?_, fun value => ?_⟩
    · rw [List.mem_singleton.mp hc]
      exact digitChar_isDigit n hn
    · show value * 10 + (n.digitChar.toNat - '0'.toNat) = _
      rw [digitChar_value n hn]
      rfl
  | succ width ih =>
    have hd : n % 10 < 10 := Nat.mod_lt n (by decide)
    have hn : n / 10 < 10 ^ (width + 1) := by
      rw [Nat.pow_succ] at h
      omega
    -- the digits in front are those of the tenth, padded to one place less
    obtain ⟨hlength, hdigits, hvalue⟩ := ih (n / 10) hn
    rw [padded_step]
    refine ⟨?_, fun c hc => ?_, fun value => ?_⟩
    · rw [List.length_append, hlength, List.length_singleton]
    · rcases List.mem_append.mp hc with hc | hc
      · exact hdigits c hc
      · rw [List.mem_singleton.mp hc]
        exact digitChar_isDigit _ hd
    · have hlast : continued value (padded (width + 1) (n / 10) ++ [(n % 10).digitChar]) =
          continued value (padded (width + 1) (n / 10)) * 10 +
            ((n % 10).digitChar.toNat - '0'.toNat) := by
        rw [continued, List.foldl_append]
        rfl
      rw [hlast, hvalue, digitChar_value _ hd, Nat.pow_succ 10 (width + 1), ← Nat.mul_assoc]
      omega

end Duration

namespace Stamp

open Duration

/-! ### Reading what was written -/

theorem number_digits (digits rest : List Char) (hd : ∀ c ∈ digits, c.isDigit = true)
    (value : Nat) :
    number digits.length value (digits ++ rest) = some (continued value digits, rest) := by
  induction digits generalizing value with
  | nil => rfl
  | cons c digits ih =>
    have hc : digit? c = some (c.toNat - '0'.toNat) := if_pos (hd c List.mem_cons_self)
    rw [List.length_cons, List.cons_append, number]
    simp only [hc]
    exact ih (fun c' hc' => hd c' (List.mem_cons_of_mem c hc')) _

theorem number_padded (width n : Nat) (h : n < 10 ^ (width + 1)) (rest : List Char) :
    number (width + 1) 0 (padded (width + 1) n ++ rest) = some (n, rest) := by
  obtain ⟨hlength, hdigits, hvalue⟩ := padded_spec width n h
  have hread := number_digits _ rest hdigits 0
  rw [hlength, hvalue, Nat.zero_mul, Nat.zero_add] at hread
  exact hread

theorem oneOf_cons (allowed : List Char) (c : Char) (rest : List Char) (h : c ∈ allowed) :
    oneOf allowed (c :: rest) = some ((), rest) := if_pos (List.contains_iff_mem.mpr h)

theorem yearChars_eq (year : Int) (h : 0 ≤ year ∧ year ≤ 9999) :
    yearChars year = padded 4 year.toNat := by
  rw [yearChars, if_pos (by simp [h])]

theorem month_lt (d : Date) : d.month < 10 ^ 2 :=
  Nat.lt_of_le_of_lt d.month_valid.2 (by decide)

theorem day_lt (d : Date) : d.day < 10 ^ 2 := by
  have hdays : daysInMonth d.year d.month ≤ 31 := by
    unfold daysInMonth
    split
    · split <;> decide
    · split <;> decide
  exact Nat.lt_of_le_of_lt (Nat.le_trans d.day_valid.2 hdays) (by decide)

theorem of?_self (d : Date) : Date.of? d.year d.month d.day = some d :=
  dif_pos ⟨d.month_valid, d.day_valid⟩

theorem calendarDate_chars (d : Date) (h : 0 ≤ d.year ∧ d.year ≤ 9999) (rest : List Char) :
    calendarDate (yearChars d.year ++ '-' :: padded 2 d.month ++ '-' :: padded 2 d.day ++ rest) =
      some (d, rest) := by
  have hyear : d.year.toNat < 10 ^ 4 := by omega
  have hcast : (d.year.toNat : Int) = d.year := Int.toNat_of_nonneg h.1
  rw [yearChars_eq d.year h, List.append_assoc, List.append_assoc, calendarDate,
    number_padded 3 _ hyear]
  simp only [Option.bind_eq_bind, Option.bind_some, List.cons_append,
    oneOf_cons _ '-' _ (List.mem_singleton_self _), number_padded 1 _ (month_lt d),
    number_padded 1 _ (day_lt d), hcast, of?_self]
  rfl

theorem fraction_chars (n : Nat) (h : n < 10 ^ 3) (c : Char) (rest : List Char)
    (hc : c.isDigit = false) :
    fraction ('.' :: padded 3 n ++ c :: rest) = some (n * 10 ^ 6, c :: rest) := by
  obtain ⟨hlength, hdigits, hvalue⟩ := padded_spec 2 n h
  have hstop : ∀ c' ∈ (c :: rest).head?, c'.isDigit = false := by
    rintro c' ⟨⟩
    exact hc
  obtain ⟨hfront, -⟩ := front_and_rest hdigits hstop
  have hsome : (padded 3 n).isEmpty = false := by
    cases hp : padded 3 n with
    | nil => rw [hp] at hlength; cases hlength
    | cons => rfl
  have hfraction : fractionValue (padded 3 n) = n * 10 ^ 6 := by
    have htake : (padded 3 n).take 9 = padded 3 n := by
      rw [List.take_of_length_le]
      rw [hlength]
      decide
    rw [fractionValue, htake, hlength]
    show continued 0 (padded 3 n) * 10 ^ 6 = _
    rw [hvalue, Nat.zero_mul, Nat.zero_add]
  rw [List.cons_append, fraction]
  simp only [hfront, hsome, hfraction, List.drop_left]
  rfl

theorem offset_universal : offset ['Z'] = some (0, []) := rfl

/-- The stamp without what is beyond the millisecond. -/
def toMillisecond (t : Stamp) : Stamp where
  date := t.date
  hour := t.hour
  minute := t.minute
  second := t.second
  nanosecond := t.nanosecond / 1000000 * 1000000
  hour_valid := t.hour_valid
  minute_valid := t.minute_valid
  second_valid := t.second_valid
  nanosecond_valid := Nat.lt_of_le_of_lt (Nat.div_mul_le_self _ _) t.nanosecond_valid

theorem ofLocal?_universal (t : Stamp) :
    ofLocal? t.date t.hour t.minute t.second t.nanosecond 0 = some t := by
  have hhour := t.hour_valid
  have hminute := t.minute_valid
  have hdays : ((t.hour * 60 + t.minute : Int) - 0) / 1440 = 0 := by omega
  have hrest : (((t.hour * 60 + t.minute : Int) - 0) % 1440).toNat = t.hour * 60 + t.minute := by
    omega
  have hh : (t.hour * 60 + t.minute) / 60 = t.hour := by omega
  have hm : (t.hour * 60 + t.minute) % 60 = t.minute := by omega
  rw [ofLocal?, dif_pos ⟨t.second_valid, t.nanosecond_valid⟩, if_pos (by simp [hhour, hminute])]
  simp only [hdays, hrest, hh, hm]
  rfl

/-- A written stamp is read to the millisecond. -/
theorem parseChars_millisecondChars (t : Stamp) (h : 0 ≤ t.date.year ∧ t.date.year ≤ 9999) :
    parseChars t.millisecondChars = some t.toMillisecond := by
  have hhour : t.hour < 10 ^ 2 := Nat.lt_trans t.hour_valid (by decide)
  have hminute : t.minute < 10 ^ 2 := Nat.lt_trans t.minute_valid (by decide)
  have hsecond : t.second < 10 ^ 2 := Nat.lt_of_le_of_lt t.second_valid (by decide)
  have hmillis : t.nanosecond / 1000000 < 10 ^ 3 := by
    have hn := t.nanosecond_valid
    omega
  have hfraction := fraction_chars _ hmillis 'Z' [] (by decide)
  rw [List.cons_append] at hfraction
  rw [millisecondChars, secondsChars, parseChars]
  simp only [List.append_assoc, List.cons_append]
  have hdate := calendarDate_chars t.date h
  simp only [List.append_assoc, List.cons_append] at hdate
  simp only [hdate, Option.bind_eq_bind, Option.bind_some, oneOf_cons _ 'T' _ List.mem_cons_self,
    oneOf_cons _ ':' _ List.mem_cons_self, number_padded 1 _ hhour, number_padded 1 _ hminute,
    number_padded 1 _ hsecond, hfraction, offset_universal]
  exact t.toMillisecond.ofLocal?_universal

/-- The sign of a longer year is not read. -/
theorem parseChars_of_sign (t : Stamp) (h : ¬ (0 ≤ t.date.year ∧ t.date.year ≤ 9999)) :
    parseChars t.millisecondChars = none := by
  have hyear : ∃ sign digits, yearChars t.date.year = sign :: digits ∧ digit? sign = none := by
    rw [yearChars, if_neg (by simpa using h)]
    split
    · exact ⟨_, _, rfl, rfl⟩
    · exact ⟨_, _, rfl, rfl⟩
  obtain ⟨sign, digits, hchars, hsign⟩ := hyear
  have hnumber : ∀ cs, number 4 0 (sign :: cs) = none := by
    intro cs
    simp only [number, hsign]
  rw [millisecondChars, secondsChars, parseChars, hchars]
  simp only [List.append_assoc, List.cons_append, calendarDate, hnumber]
  rfl

/-! ### The characters of a stamp -/

/-- A character that stands in a written stamp. -/
def IsMark (c : Char) : Prop := c.isDigit = true ∨ c ∈ ['-', '+', 'T', ':', '.', 'Z']

theorem isMark_digits (width n : Nat) (c : Char) (hc : c ∈ padded width n) : IsMark c := by
  rcases List.mem_append.mp hc with hc | hc
  · obtain ⟨-, rfl⟩ := List.mem_replicate.mp hc
    exact .inl (by decide)
  · exact .inl (Nat.isDigit_of_mem_toDigits (by decide) (by decide) hc)

theorem isMark_of_mem (t : Stamp) (c : Char) (hc : c ∈ t.millisecondChars) : IsMark c := by
  have hyear : ∀ c ∈ yearChars t.date.year, IsMark c := by
    intro c hc
    unfold yearChars at hc
    split at hc
    · exact isMark_digits _ _ c hc
    · rcases List.mem_cons.mp hc with rfl | hc
      · right
        split <;> decide
      · exact isMark_digits _ _ c hc
  have hdash : IsMark '-' := .inr (by decide)
  have hcolon : IsMark ':' := .inr (by decide)
  simp only [millisecondChars, secondsChars, List.mem_append, List.mem_cons, List.not_mem_nil,
    or_false] at hc
  rcases hc with
    (((((((hc | rfl | hc) | rfl | hc) | rfl | hc) | rfl | hc) | rfl | hc)) | rfl | hc) | rfl
  all_goals first
    | exact hyear c hc
    | exact isMark_digits _ _ c hc
    | exact hdash
    | exact hcolon
    | exact .inr (by decide)

end Stamp

end OlapClient
