import OlapClient.Text.Utf8

/-!
# Texts as bytes

The bytes of a text are decoded to that text, by the strict decoding and by the lossy one. A byte
below 128 in the encoding of a text is a character of its own, so that ASCII marks are found among
the bytes exactly where they stand among the characters. The letters and digits of names are ASCII.
-/

namespace OlapClient

namespace Text

/-! ### Letters and digits -/

def IsLetter (c : Char) : Prop := ('A' ≤ c ∧ c ≤ 'Z') ∨ ('a' ≤ c ∧ c ≤ 'z')

def IsDigit (c : Char) : Prop := '0' ≤ c ∧ c ≤ '9'

instance (c : Char) : Decidable (IsLetter c) :=
  inferInstanceAs (Decidable (('A' ≤ c ∧ c ≤ 'Z') ∨ ('a' ≤ c ∧ c ≤ 'z')))

instance (c : Char) : Decidable (IsDigit c) := inferInstanceAs (Decidable ('0' ≤ c ∧ c ≤ '9'))

theorem isAlpha_iff (c : Char) : c.isAlpha = true ↔ IsLetter c := by
  have hupper : c.isUpper = true ↔ 'A' ≤ c ∧ c ≤ 'Z' := decide_eq_true_iff
  have hlower : c.isLower = true ↔ 'a' ≤ c ∧ c ≤ 'z' :=
    Bool.and_eq_true_iff.trans (and_congr decide_eq_true_iff decide_eq_true_iff)
  exact Bool.or_eq_true_iff.trans (or_congr hupper hlower)

theorem isAlphanum_iff (c : Char) : c.isAlphanum = true ↔ IsLetter c ∨ IsDigit c := by
  have hdigit : c.isDigit = true ↔ IsDigit c :=
    Bool.and_eq_true_iff.trans (and_congr decide_eq_true_iff decide_eq_true_iff)
  exact Bool.or_eq_true_iff.trans (or_congr (isAlpha_iff c) hdigit)

end Text

namespace Utf8

open Text

/-! ### Decoding what was encoded -/

theorem encodeChars_cons (c : Char) (cs : List Char) :
    encodeChars (c :: cs) = String.utf8EncodeChar c ++ encodeChars cs := rfl

theorem encodeChars_append (cs ds : List Char) :
    encodeChars (cs ++ ds) = encodeChars cs ++ encodeChars ds := List.flatMap_append

theorem decode?_encodeChars (cs : List Char) :
    decode? (encodeChars cs) = some (String.ofList cs) := by
  have hbytes : (encodeChars cs).toByteArray = (String.ofList cs).toByteArray := by
    rw [String.toByteArray_ofList]
    rfl
  rw [decode?, hbytes, String.fromUTF8?, dif_pos (String.ofList cs).isValidUTF8]
  rfl

/-- Only the bytes of a text are decoded as that text. -/
theorem eq_encode_of_decode? (bytes : Bytes) (text : String) (h : decode? bytes = some text) :
    bytes = encode text := by
  rw [decode?, String.fromUTF8?] at h
  split at h
  · obtain rfl := Option.some.inj h
    apply List.toByteArray_inj.mp
    show _ = List.utf8Encode _
    rw [← String.toByteArray_ofList, String.ofList_toList]
    rfl
  · cases h

theorem decode_encodeChars (cs : List Char) : decode (encodeChars cs) = .ok (String.ofList cs) := by
  rw [decode, decode?_encodeChars]

theorem decodeLossy_encodeChars (cs : List Char) :
    decodeLossy (encodeChars cs) = String.ofList cs := by
  rw [decodeLossy, decode?_encodeChars]

theorem encodeChars_injective (cs ds : List Char) (h : encodeChars cs = encodeChars ds) :
    cs = ds := by
  have hdecoded : decode? (encodeChars cs) = decode? (encodeChars ds) := by rw [h]
  rw [decode?_encodeChars, decode?_encodeChars] at hdecoded
  exact String.ofList_injective (Option.some.inj hdecoded)

theorem encodeChars_ne_nil (cs : List Char) (h : cs ≠ []) : encodeChars cs ≠ [] :=
  fun hnil => h (encodeChars_injective cs [] hnil)

/-! ### ASCII characters among the bytes -/

theorem utf8EncodeChar_ascii (c : Char) (hc : c.toNat < 128) :
    String.utf8EncodeChar c = [byte c] := by
  have hval : c.val.toNat ≤ 0x7f := Nat.le_of_lt_succ hc
  rw [String.utf8EncodeChar]
  exact if_pos hval

theorem encodeChars_cons_ascii (c : Char) (hc : c.toNat < 128) (cs : List Char) :
    encodeChars (c :: cs) = byte c :: encodeChars cs := by
  rw [encodeChars_cons, utf8EncodeChar_ascii c hc]
  rfl

theorem encodeChars_ascii (cs : List Char) (hcs : ∀ c ∈ cs, c.toNat < 128) :
    encodeChars cs = cs.map byte := by
  induction cs with
  | nil => rfl
  | cons c cs ih =>
    have hrest : ∀ c' ∈ cs, c'.toNat < 128 := fun c' hc' => hcs c' (List.mem_cons_of_mem _ hc')
    rw [encodeChars_cons_ascii c (hcs c List.mem_cons_self), ih hrest, List.map_cons]

theorem byte_injective (c d : Char) (hc : c.toNat < 128) (hd : d.toNat < 128)
    (h : byte c = byte d) : c = d := by
  have hnat : (byte c).toNat = (byte d).toNat := by rw [h]
  simp only [byte, UInt8.toNat_ofNat'] at hnat
  apply Char.toNat_inj.mp
  omega

/-- The bytes of other characters are all beyond ASCII. -/
theorem le_toNat_of_mem (c : Char) (hc : 128 ≤ c.toNat) (b : UInt8)
    (hb : b ∈ String.utf8EncodeChar c) : 128 ≤ b.toNat := by
  have hval : ¬ c.val.toNat ≤ 0x7f := Nat.not_le.mpr hc
  simp only [String.utf8EncodeChar, if_neg hval] at hb
  split at hb
  · simp only [List.mem_cons, List.not_mem_nil, or_false] at hb
    rcases hb with rfl | rfl <;> simp only [UInt8.toNat_ofNat'] <;> omega
  · split at hb
    · simp only [List.mem_cons, List.not_mem_nil, or_false] at hb
      rcases hb with rfl | rfl | rfl <;> simp only [UInt8.toNat_ofNat'] <;> omega
    · simp only [List.mem_cons, List.not_mem_nil, or_false] at hb
      rcases hb with rfl | rfl | rfl | rfl <;> simp only [UInt8.toNat_ofNat'] <;> omega

theorem eq_of_byte_mem (c d : Char) (hd : d.toNat < 128)
    (h : byte d ∈ String.utf8EncodeChar c) : c = d := by
  rcases Nat.lt_or_ge c.toNat 128 with hc | hc
  · rw [utf8EncodeChar_ascii c hc, List.mem_singleton] at h
    exact (byte_injective d c hd hc h).symm
  · have hle := le_toNat_of_mem c hc (byte d) h
    simp only [byte, UInt8.toNat_ofNat'] at hle
    omega

/-- An ASCII byte cuts the encoding where its character cuts the text. -/
theorem split_at_byte (d : Char) (hd : d.toNat < 128) (cs : List Char) (before behind : Bytes)
    (h : encodeChars cs = before ++ byte d :: behind) : ∃ cs₁ cs₂,
    cs = cs₁ ++ d :: cs₂ ∧ encodeChars cs₁ = before ∧ encodeChars cs₂ = behind := by
  induction cs generalizing before with
  | nil => exact absurd h (by simp [encodeChars])
  | cons c cs ih =>
    have hin : ∀ t, encodeChars cs = t ++ byte d :: behind → before = String.utf8EncodeChar c ++ t →
        ∃ cs₁ cs₂, c :: cs = cs₁ ++ d :: cs₂ ∧ encodeChars cs₁ = before ∧
          encodeChars cs₂ = behind := by
      intro t ht hbefore
      obtain ⟨cs₁, cs₂, rfl, hcs₁, hcs₂⟩ := ih t ht
      exact ⟨c :: cs₁, cs₂, rfl, by rw [encodeChars_cons, hcs₁, hbefore], hcs₂⟩
    rw [encodeChars_cons] at h
    rcases List.append_eq_append_iff.mp h with ⟨t, hbefore, ht⟩ | ⟨t, hc, ht⟩
    · exact hin t ht hbefore
    · cases t with
      | nil =>
        rw [List.append_nil] at hc
        exact hin [] (by simpa using ht.symm) (by rw [List.append_nil, hc])
      | cons b t =>
        obtain ⟨rfl, hbehind⟩ := List.cons.inj ht
        have hmem : byte d ∈ String.utf8EncodeChar c := by rw [hc]; simp
        obtain rfl := eq_of_byte_mem c d hd hmem
        rw [utf8EncodeChar_ascii c hd] at hc
        obtain ⟨rfl, hone⟩ | ⟨-, hnil⟩ := List.singleton_eq_append_iff.mp hc
        · obtain rfl : t = [] := (List.cons.inj hone).2
          exact ⟨[], cs, rfl, rfl, hbehind.symm⟩
        · cases hnil

theorem byte_mem_encodeChars (d : Char) (hd : d.toNat < 128) (cs : List Char) :
    byte d ∈ encodeChars cs ↔ d ∈ cs := by
  constructor
  · intro h
    obtain ⟨before, behind, hsplit⟩ := List.append_of_mem h
    obtain ⟨cs₁, cs₂, rfl, -⟩ := split_at_byte d hd cs before behind hsplit
    simp
  · intro h
    refine List.mem_flatMap.mpr ⟨d, h, ?_⟩
    rw [utf8EncodeChar_ascii d hd]
    exact List.mem_singleton_self _

theorem starts_with_ascii (ds : List Char) (hds : ∀ d ∈ ds, d.toNat < 128) (cs : List Char)
    (behind : Bytes) (h : encodeChars cs = ds.map byte ++ behind) : ∃ cs₂, cs = ds ++ cs₂ := by
  induction ds generalizing cs with
  | nil => exact ⟨cs, rfl⟩
  | cons d ds ih =>
    have hrest : ∀ d' ∈ ds, d'.toNat < 128 := fun d' hd' => hds d' (List.mem_cons_of_mem _ hd')
    obtain ⟨cs₁, cs₂, rfl, hnil, hcs₂⟩ := split_at_byte d (hds d List.mem_cons_self) cs [] _ h
    obtain rfl : cs₁ = [] := encodeChars_injective cs₁ [] hnil
    obtain ⟨cs₃, rfl⟩ := ih hrest cs₂ hcs₂
    exact ⟨cs₃, rfl⟩

/-- An ASCII mark stands among the bytes only where it stands among the characters. -/
theorem infix_of_ascii (d : Char) (ds : List Char) (hds : ∀ d' ∈ d :: ds, d'.toNat < 128)
    (cs : List Char) (before behind : Bytes)
    (h : encodeChars cs = before ++ ((d :: ds).map byte ++ behind)) : d :: ds <:+: cs := by
  have hrest : ∀ d' ∈ ds, d'.toNat < 128 := fun d' hd' => hds d' (List.mem_cons_of_mem _ hd')
  obtain ⟨cs₁, cs₂, rfl, -, hcs₂⟩ := split_at_byte d (hds d List.mem_cons_self) cs before _ h
  obtain ⟨cs₃, rfl⟩ := starts_with_ascii ds hrest cs₂ behind hcs₂
  exact ⟨cs₁, cs₃, by simp⟩

end Utf8

end OlapClient
