import Mathlib.Data.List.TakeWhile
import OlapClient.Cache.Record
import OlapClient.Proofs.Text.Base64
import OlapClient.Proofs.Text.Encoding
import OlapClient.Proofs.Time.Stamp
import OlapClient.Proofs.Traversal

/-!
# Records, read back

A line that was written is read as the same record, its time to the millisecond. It is made of
visible ASCII characters, whatever the address, the key and the response hold. A line that can be
read is divided by three separators, and what follows the first of them is as it is written.
-/

namespace OlapClient.Record

/-! ### Fields -/

theorem separator_not_field : Base64.isFieldChar separator = false := by decide

theorem separator_not_mem_stamp (t : Stamp) : separator ∉ t.millisecondChars := by
  intro hmem
  rcases t.isMark_of_mem separator hmem with hdigit | hmark
  · exact absurd hdigit (by decide)
  · exact absurd hmark (by decide)

theorem stamp_and_rest (t : Stamp) (rest : List Char) :
    (t.millisecondChars ++ separator :: rest).takeWhile (· ≠ separator) = t.millisecondChars ∧
      (t.millisecondChars ++ separator :: rest).dropWhile (· ≠ separator) = separator :: rest := by
  have hclear : ∀ c ∈ t.millisecondChars, decide (c ≠ separator) = true := fun c hc =>
    decide_eq_true fun heq => separator_not_mem_stamp t (heq ▸ hc)
  have hmark : ∀ c ∈ (separator :: rest).head?, decide (c ≠ separator) = false := by
    rintro c ⟨⟩
    rfl
  exact front_and_rest hclear hmark

theorem stampField_chars (t : Stamp) (h : 0 ≤ t.date.year ∧ t.date.year ≤ 9999)
    (rest : List Char) :
    stampField (t.millisecondChars ++ separator :: rest) =
      .ok (t.toMillisecond, separator :: rest) := by
  obtain ⟨hfront, hbehind⟩ := stamp_and_rest t rest
  rw [stampField, hfront, hbehind, Stamp.parseChars_millisecondChars t h]

theorem bytesField_chars (bytes : Bytes) (rest : List Char)
    (hrest : ∀ c ∈ rest.head?, Base64.isFieldChar c = false) :
    bytesField (Base64.encodeChars bytes ++ rest) = .ok (bytes, rest) := by
  obtain ⟨hfront, hbehind⟩ := front_and_rest (Base64.isFieldChar_of_mem bytes) hrest
  rw [bytesField, hfront, hbehind, Base64.decodeChars_encodeChars]

theorem separatorField_chars (rest : List Char) :
    separatorField (separator :: rest) = .ok ((), rest) := by
  rw [separatorField, if_pos rfl]

/-- The year has four digits. -/
def IsDated (r : Record) : Prop :=
  0 ≤ r.recordedAt.date.year ∧ r.recordedAt.date.year ≤ 9999

theorem fields_chars (r : Record) (h : r.IsDated) :
    fields r.chars = .ok (r.recordedAt.toMillisecond, Utf8.encode r.url, r.key, r.response) := by
  have hmark : ∀ rest : List Char, ∀ c ∈ (separator :: rest).head?,
      Base64.isFieldChar c = false := by
    rintro rest c ⟨⟩
    exact separator_not_field
  have hlast := bytesField_chars r.response [] (by simp)
  rw [List.append_nil] at hlast
  rw [fields, chars]
  simp only [List.append_assoc, List.cons_append, stampField_chars _ h, separatorField_chars,
    bytesField_chars _ _ (hmark _), hlast, bind, Except.bind]
  rfl

/-- The record to the millisecond. -/
def toMillisecond (r : Record) : Record := { r with recordedAt := r.recordedAt.toMillisecond }

theorem decode_encode (r : Record) (h : r.IsDated) : decode r.encode = .ok r.toMillisecond := by
  have hurl : Utf8.decode? (Utf8.encode r.url) = some r.url := by
    rw [Utf8.encode, Utf8.decode?_encodeChars, String.ofList_toList]
  rw [decode, encode, String.toList_ofList]
  simp only [fields_chars r h, hurl]
  rfl

/-- A line with another year cannot be read. -/
theorem decode_undated (r : Record) (h : ¬ r.IsDated) :
    ∃ fault, decode r.encode = .error fault := by
  have hfields : ∃ left, fields r.chars = .error left := by
    rw [fields, chars, List.append_assoc, List.append_assoc, List.cons_append, stampField,
      (stamp_and_rest r.recordedAt _).1, Stamp.parseChars_of_sign _ h]
    exact ⟨_, rfl⟩
  obtain ⟨left, hleft⟩ := hfields
  rw [decode, encode, String.toList_ofList]
  simp only [hleft]
  exact ⟨_, rfl⟩

/-! ### Characters -/

/-- A visible ASCII character. -/
def IsVisible (c : Char) : Prop := 0x20 < c.toNat ∧ c.toNat < 0x7F

theorem visible_of_field (c : Char) (h : Base64.isFieldChar c = true) : IsVisible c := by
  have hle : ∀ a b : Char, a ≤ b ↔ a.toNat ≤ b.toNat := fun _ _ => Iff.rfl
  unfold Base64.isFieldChar Base64.value? at h
  simp only [Bool.and_eq_true, decide_eq_true_eq, hle] at h
  unfold IsVisible
  split at h
  · rename_i hc
    exact ⟨Nat.lt_of_lt_of_le (by decide) hc.1, Nat.lt_of_le_of_lt hc.2 (by decide)⟩
  · split at h
    · rename_i hc
      exact ⟨Nat.lt_of_lt_of_le (by decide) hc.1, Nat.lt_of_le_of_lt hc.2 (by decide)⟩
    · split at h
      · rename_i hc
        exact ⟨Nat.lt_of_lt_of_le (by decide) hc.1, Nat.lt_of_le_of_lt hc.2 (by decide)⟩
      · split at h
        · subst c
          decide
        · split at h
          · subst c
            decide
          · rw [Option.isSome_none, Bool.false_or, beq_iff_eq] at h
            subst c
            decide

theorem visible_of_mark (c : Char) (h : Stamp.IsMark c) : IsVisible c := by
  rcases h with h | h
  · have hdigit : '0'.toNat ≤ c.toNat ∧ c.toNat ≤ '9'.toNat :=
      (Bool.and_eq_true_iff.trans (and_congr decide_eq_true_iff decide_eq_true_iff)).mp h
    exact ⟨Nat.lt_of_lt_of_le (by decide) hdigit.1, Nat.lt_of_le_of_lt hdigit.2 (by decide)⟩
  · simp only [List.mem_cons, List.not_mem_nil, or_false] at h
    rcases h with rfl | rfl | rfl | rfl | rfl | rfl <;> exact ⟨by decide, by decide⟩

/-- A line is visible ASCII text, so that no line end is inside. -/
theorem visible_of_mem (r : Record) (c : Char) (hc : c ∈ r.chars) : IsVisible c := by
  have hfield : ∀ bytes, c ∈ Base64.encodeChars bytes → IsVisible c := fun bytes h =>
    visible_of_field c (Base64.isFieldChar_of_mem bytes c h)
  have hseparator : IsVisible separator := by
    unfold IsVisible
    decide
  unfold chars at hc
  simp only [List.append_assoc, List.cons_append, List.mem_append, List.mem_cons] at hc
  rcases hc with hc | rfl | hc | rfl | hc | rfl | hc
  · exact visible_of_mark c (r.recordedAt.isMark_of_mem c hc)
  · exact hseparator
  · exact hfield _ hc
  · exact hseparator
  · exact hfield _ hc
  · exact hseparator
  · exact hfield _ hc

theorem chars_ne_nil (r : Record) : r.chars ≠ [] := by simp [chars]

/-! ### Lines -/

/-- What a record keeps besides its time. -/
def payloads (r : Record) : List Bytes := [Utf8.encode r.url, r.key, r.response]

/-- A line with this time stamp and these payloads. -/
def lineOf (stamp : List Char) (payloads : List Bytes) : List Char :=
  stamp ++ payloads.flatMap fun bytes => separator :: Base64.encodeChars bytes

theorem chars_eq_lineOf (r : Record) :
    r.chars = lineOf r.recordedAt.millisecondChars r.payloads := by
  simp [chars, lineOf, payloads]

theorem separator_not_mem_encodeChars (bytes : Bytes) : separator ∉ Base64.encodeChars bytes := by
  intro hmem
  have hfield := Base64.isFieldChar_of_mem bytes separator hmem
  rw [separator_not_field] at hfield
  cases hfield

theorem splitOn_lineOf (stamp : List Char) (payloads : List Bytes) (h : separator ∉ stamp) :
    (lineOf stamp payloads).splitOn separator = stamp :: payloads.map Base64.encodeChars := by
  induction payloads generalizing stamp with
  | nil => rw [lineOf, List.flatMap_nil, List.append_nil, List.splitOn_eq_singleton h, List.map_nil]
  | cons bytes payloads ih =>
    have hclear : ∀ c ∈ stamp, (c == separator) = false := fun c hc =>
      beq_eq_false_iff_ne.mpr fun heq => h (heq ▸ hc)
    have hline : lineOf stamp (bytes :: payloads) =
        stamp ++ separator :: lineOf (Base64.encodeChars bytes) payloads := rfl
    rw [hline, List.splitOn, List.splitOnP_append_cons_of_forall_mem hclear _ (beq_self_eq_true _),
      List.map_cons, ← ih _ (separator_not_mem_encodeChars bytes), List.splitOn]

theorem count_lineOf (stamp : List Char) (payloads : List Bytes) (h : separator ∉ stamp) :
    (lineOf stamp payloads).count separator = payloads.length := by
  induction payloads generalizing stamp with
  | nil => rw [lineOf, List.flatMap_nil, List.append_nil, List.count_eq_zero.mpr h, List.length_nil]
  | cons bytes payloads ih =>
    have hline : lineOf stamp (bytes :: payloads) =
        stamp ++ separator :: lineOf (Base64.encodeChars bytes) payloads := rfl
    rw [hline, List.count_append, List.count_cons_self, List.count_eq_zero.mpr h,
      ih _ (separator_not_mem_encodeChars bytes), List.length_cons, Nat.zero_add]

/-! ### Lines that can be read -/

theorem of_stampField {cs rest : List Char} {stamp : Stamp}
    (h : stampField cs = .ok (stamp, rest)) : ∃ text, separator ∉ text ∧ cs = text ++ rest := by
  unfold stampField at h
  split at h
  · cases h
    refine ⟨_, fun hmem => ?_, List.takeWhile_append_dropWhile.symm⟩
    exact absurd (List.mem_takeWhile_imp hmem) (by decide)
  · cases h

theorem of_bytesField {cs rest : List Char} {bytes : Bytes}
    (h : bytesField cs = .ok (bytes, rest)) : cs = Base64.encodeChars bytes ++ rest := by
  unfold bytesField at h
  split at h
  · rename_i found hread
    cases h
    rw [← Base64.eq_encodeChars_of_decodeChars _ _ hread, List.takeWhile_append_dropWhile]
  · cases h

theorem of_separatorField {cs rest : List Char} {u : Unit}
    (h : separatorField cs = .ok (u, rest)) : cs = separator :: rest := by
  unfold separatorField at h
  split at h
  · split at h
    · rename_i hc
      cases h
      rw [hc]
    · cases h
  · cases h

/-- A line that can be read is what is written for its fields, up to the spelling of its time. -/
theorem line_of_fields {cs : List Char} {found : Stamp × Bytes × Bytes × Bytes}
    (h : fields cs = .ok found) :
    ∃ text, separator ∉ text ∧ cs = lineOf text [found.2.1, found.2.2.1, found.2.2.2] := by
  unfold fields at h
  obtain ⟨⟨stamp, cs₁⟩, h₁, h⟩ := bind_eq_ok.mp h
  obtain ⟨⟨_, cs₂⟩, h₂, h⟩ := bind_eq_ok.mp h
  obtain ⟨⟨url, cs₃⟩, h₃, h⟩ := bind_eq_ok.mp h
  obtain ⟨⟨_, cs₄⟩, h₄, h⟩ := bind_eq_ok.mp h
  obtain ⟨⟨key, cs₅⟩, h₅, h⟩ := bind_eq_ok.mp h
  obtain ⟨⟨_, cs₆⟩, h₆, h⟩ := bind_eq_ok.mp h
  obtain ⟨⟨response, cs₇⟩, h₇, h⟩ := bind_eq_ok.mp h
  cases cs₇ with
  | cons c rest => cases h
  | nil =>
    cases h
    obtain ⟨text, hclear, rfl⟩ := of_stampField h₁
    refine ⟨text, hclear, ?_⟩
    rw [of_separatorField h₂, of_bytesField h₃, of_separatorField h₄, of_bytesField h₅,
      of_separatorField h₆, of_bytesField h₇]
    simp [lineOf]

/-- There are three separators in each line that can be read. -/
theorem count_of_fields {cs : List Char} {found : Stamp × Bytes × Bytes × Bytes}
    (h : fields cs = .ok found) : cs.count separator = 3 := by
  obtain ⟨text, hclear, rfl⟩ := line_of_fields h
  exact count_lineOf text _ hclear

theorem line_of_decode {line : String} {r : Record} (h : decode line = .ok r) :
    ∃ text, separator ∉ text ∧ line.toList = lineOf text r.payloads := by
  unfold decode at h
  cases hfields : fields line.toList with
  | error left =>
    simp only [hfields] at h
    cases h
  | ok found =>
    simp only [hfields] at h
    split at h
    · rename_i url hurl
      obtain rfl := Except.ok.inj h
      obtain ⟨text, hclear, hline⟩ := line_of_fields hfields
      rw [Utf8.eq_encode_of_decode? _ _ hurl] at hline
      exact ⟨text, hclear, hline⟩
    · cases h

/-- The fields of a line, as separators divide it. -/
def parts (line : String) : List (List Char) := line.toList.splitOn separator

theorem parts_of_decode {line : String} {r : Record} (h : decode line = .ok r) :
    ∃ text, parts line = text :: r.payloads.map Base64.encodeChars := by
  obtain ⟨text, hclear, hline⟩ := line_of_decode h
  exact ⟨text, by rw [parts, hline, splitOn_lineOf text _ hclear]⟩

theorem parts_encode (r : Record) :
    parts r.encode = r.recordedAt.millisecondChars :: r.payloads.map Base64.encodeChars := by
  rw [parts, encode, String.toList_ofList, chars_eq_lineOf,
    splitOn_lineOf _ _ (separator_not_mem_stamp r.recordedAt)]

/-- Lines are written and read without loss. A record is written as four fields on one line, and
read again to the millisecond. A line that can be read has the fields that its record is written
with, apart from the time, and all lines spell a payload alike. -/
theorem lines_round_trip :
    (∀ r : Record, r.encode.toList.count separator = 3 ∧ '\r' ∉ r.encode.toList ∧
      '\n' ∉ r.encode.toList ∧ (r.IsDated → decode r.encode = .ok r.toMillisecond)) ∧
    ∀ line r, decode line = .ok r →
      (parts line).length = 4 ∧ (parts r.encode).tail = (parts line).tail ∧
        ∀ line' r' (i j : Nat), decode line' = .ok r' →
          (r.payloads[i]? = r'.payloads[j]? ↔ (parts line).tail[i]? = (parts line').tail[j]?) := by
  refine ⟨fun r => ⟨?_, ?_, ?_, decode_encode r⟩, fun line r h => ?_⟩
  · rw [encode, String.toList_ofList, chars_eq_lineOf]
    exact count_lineOf _ _ (separator_not_mem_stamp r.recordedAt)
  · rw [encode, String.toList_ofList]
    exact fun hmem => absurd (visible_of_mem r _ hmem).1 (by decide)
  · rw [encode, String.toList_ofList]
    exact fun hmem => absurd (visible_of_mem r _ hmem).1 (by decide)
  · obtain ⟨text, hparts⟩ := parts_of_decode h
    refine ⟨by rw [hparts]; rfl, by rw [parts_encode, hparts]; rfl, fun line' r' i j h' => ?_⟩
    obtain ⟨text', hparts'⟩ := parts_of_decode h'
    have hinjective : Function.Injective Base64.encodeChars := fun bytes bytes' heq => by
      have hread := Base64.decodeChars_encodeChars bytes
      rw [heq, Base64.decodeChars_encodeChars] at hread
      exact (Option.some.inj hread).symm
    rw [hparts, hparts', List.tail_cons, List.tail_cons, List.getElem?_map, List.getElem?_map,
      (Option.map_injective hinjective).eq_iff]

/-- The last moment of a day in year zero, for a url with a separator and a line end in it. -/
def oddRecord : Record where
  recordedAt :=
    { Stamp.epoch with
      date := .lastOfYear 0
      hour := 23
      hour_valid := by decide
      nanosecond := 999999999
      nanosecond_valid := by decide }
  url := "|\n"
  key := []
  response := [0xFF]

/-- A line for the same exchange, with the time as it is a minute away and to another precision. -/
def oddLine : String := "0000-12-31t23:01:00.99999+00:01|fAo=||/w=="

theorem oddRecord_round_trip : decode oddRecord.encode = .ok oddRecord.toMillisecond ∧
    ∃ r, decode oddLine = .ok r ∧ (parts r.encode).tail = (parts oddLine).tail ∧
      (parts oddLine).tail = (parts oddRecord.encode).tail := by
  obtain ⟨hwritten, hread⟩ := lines_round_trip
  have hodd := (hwritten oddRecord).2.2.2 ⟨by decide, by decide⟩
  have hline : decode oddLine = .ok { oddRecord with
      recordedAt := { oddRecord.recordedAt with
        nanosecond := 999990000
        nanosecond_valid := by decide } } := by decide +kernel
  refine ⟨hodd, _, hline, (hread _ _ hline).2.1, List.ext_getElem? fun i => ?_⟩
  have hsame := (hread _ _ hline).2.2 _ _ i i hodd
  exact hsame.mp rfl

end OlapClient.Record
