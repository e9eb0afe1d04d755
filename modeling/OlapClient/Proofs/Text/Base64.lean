import Mathlib.Data.List.Basic
import OlapClient.Text.Base64

/-!
# Base64, read back

What was written is read as the same bytes, and it is made of the characters of a field only.
Nothing else is read: characters that are read are the encoding of their bytes.
-/

namespace OlapClient.Base64

/-! ### Digits -/

theorem value?_digit (n : Nat) (h : n < 64) : value? (digit n) = some n := by
  have hall : ∀ k : Fin 64, value? (digit k) = some k.val := by decide
  exact hall ⟨n, h⟩

theorem digit_ne_pad (n : Nat) (h : n < 64) : digit n ≠ '=' := by
  intro hpad
  have hvalue := value?_digit n h
  rw [hpad] at hvalue
  cases hvalue

theorem isFieldChar_digit (n : Nat) (h : n < 64) : isFieldChar (digit n) = true := by
  rw [isFieldChar, value?_digit n h]
  rfl

/-! ### Groups -/

theorem groupBytes_eq (a b c : UInt8) :
    groupBytes (a.toNat * 0x10000 + b.toNat * 0x100 + c.toNat) = [a, b, c] := by
  have ha := a.toNat_lt
  have hb := b.toNat_lt
  have hc := c.toNat_lt
  have hfirst : (a.toNat * 0x10000 + b.toNat * 0x100 + c.toNat) / 0x10000 = a.toNat := by omega
  have hsecond : (a.toNat * 0x10000 + b.toNat * 0x100 + c.toNat) / 0x100 % 256 = b.toNat := by
    omega
  have hthird : (a.toNat * 0x10000 + b.toNat * 0x100 + c.toNat) % 256 = c.toNat := by omega
  rw [groupBytes, hfirst, hsecond, hthird]
  simp

theorem digits_sum (n : Nat) :
    n / 0x40000 * 0x40000 + n / 0x1000 % 64 * 0x1000 + n / 0x40 % 64 * 0x40 + n % 64 = n := by omega

theorem decodeGroup_digits (n : Nat) (h : n < 0x1000000) :
    decodeGroup (digit (n / 0x40000)) (digit (n / 0x1000 % 64)) (digit (n / 0x40 % 64))
      (digit (n % 64)) = some (groupBytes n) := by
  rw [decodeGroup, value?_digit _ (by omega), value?_digit _ (by omega), value?_digit _ (by omega),
    value?_digit _ (by omega)]
  exact congrArg (fun m => some (groupBytes m)) (digits_sum n)

/-- Without a third byte, the bits behind the third character are zero. -/
theorem decodeThree_digits (n : Nat) (h : n < 0x1000000) (hpad : n % 0x100 = 0) :
    decodeThree (digit (n / 0x40000)) (digit (n / 0x1000 % 64)) (digit (n / 0x40 % 64)) =
      some ((groupBytes n).take 2) := by
  have hbits : n / 0x40 % 64 % 4 = 0 := by omega
  have hlast : n % 64 = 0 := by omega
  have hn := digits_sum n
  rw [hlast, Nat.add_zero] at hn
  rw [decodeThree, value?_digit _ (by omega), value?_digit _ (by omega), value?_digit _ (by omega)]
  show (if _ then _ else _) = _
  rw [if_pos hbits, hn]
  rfl

/-- Without a second byte, the bits behind the second character are zero. -/
theorem decodeTwo_digits (n : Nat) (h : n < 0x1000000) (hpad : n % 0x10000 = 0) :
    decodeTwo (digit (n / 0x40000)) (digit (n / 0x1000 % 64)) = some ((groupBytes n).take 1) := by
  have hbits : n / 0x1000 % 64 % 16 = 0 := by omega
  have hthird : n / 0x40 % 64 = 0 := by omega
  have hlast : n % 64 = 0 := by omega
  have hn := digits_sum n
  rw [hthird, hlast, Nat.zero_mul, Nat.add_zero] at hn
  rw [decodeTwo, value?_digit _ (by omega), value?_digit _ (by omega)]
  show (if _ then _ else _) = _
  rw [if_pos hbits, hn]
  rfl

/-! ### Whole texts -/

theorem decodeChars_encodeChars (bytes : Bytes) : decodeChars (encodeChars bytes) = some bytes := by
  induction bytes using encodeChars.induct with
  | case1 => rfl
  | case2 a =>
    have ha := a.toNat_lt
    have hbytes := groupBytes_eq a 0 0
    rw [UInt8.toNat_zero, Nat.zero_mul, Nat.add_zero] at hbytes
    rw [encodeChars, group]
    show decodeChars [_, _, '=', '='] = _
    rw [decodeChars, if_pos rfl]
    show decodeTwo _ _ = _
    rw [decodeTwo_digits _ (by omega) (by omega), hbytes]
    rfl
  | case3 a b =>
    have ha := a.toNat_lt
    have hb := b.toNat_lt
    have hbytes := groupBytes_eq a b 0
    rw [UInt8.toNat_zero, Nat.add_zero] at hbytes
    rw [encodeChars, group]
    show decodeChars [_, _, _, '='] = _
    rw [decodeChars, if_pos rfl]
    show (if _ then _ else _) = _
    rw [if_neg (digit_ne_pad _ (by omega)), decodeThree_digits _ (by omega) (by omega), hbytes]
    rfl
  | case4 a b c rest ih =>
    have ha := a.toNat_lt
    have hb := b.toNat_lt
    have hc := c.toNat_lt
    rw [encodeChars, group]
    -- the fourth character of a full group is no padding, so decoding goes on behind it
    show decodeChars (_ :: _ :: _ :: _ :: encodeChars rest) = _
    rw [decodeChars, if_neg (digit_ne_pad _ (by omega)), decodeGroup_digits _ (by omega), ih,
      groupBytes_eq]
    rfl

theorem isFieldChar_of_mem_group (n : Nat) (h : n < 0x1000000) (c : Char) (hc : c ∈ group n) :
    isFieldChar c = true := by
  simp only [group, List.mem_cons, List.not_mem_nil, or_false] at hc
  rcases hc with rfl | rfl | rfl | rfl <;> exact isFieldChar_digit _ (by omega)

/-- A written text is one field, with no mark inside. -/
theorem isFieldChar_of_mem (bytes : Bytes) (c : Char) (hc : c ∈ encodeChars bytes) :
    isFieldChar c = true := by
  have hpad : isFieldChar '=' = true := by decide
  induction bytes using encodeChars.induct with
  | case1 => cases hc
  | case2 a =>
    have ha := a.toNat_lt
    rw [encodeChars] at hc
    rcases List.mem_append.mp hc with hc | hc
    · exact isFieldChar_of_mem_group _ (by omega) c (List.mem_of_mem_take hc)
    · simp only [List.mem_cons, List.not_mem_nil, or_false, or_self] at hc
      exact hc ▸ hpad
  | case3 a b =>
    have ha := a.toNat_lt
    have hb := b.toNat_lt
    rw [encodeChars] at hc
    rcases List.mem_append.mp hc with hc | hc
    · exact isFieldChar_of_mem_group _ (by omega) c (List.mem_of_mem_take hc)
    · exact List.mem_singleton.mp hc ▸ hpad
  | case4 a b c' rest ih =>
    have ha := a.toNat_lt
    have hb := b.toNat_lt
    have hc' := c'.toNat_lt
    rw [encodeChars] at hc
    rcases List.mem_append.mp hc with hc | hc
    · exact isFieldChar_of_mem_group _ (by omega) c hc
    · exact ih hc

/-! ### Only what is written is read -/

theorem digit_of_value? {c : Char} {n : Nat} (h : value? c = some n) : n < 64 ∧ digit n = c := by
  have hle : ∀ a b : Char, a ≤ b ↔ a.toNat ≤ b.toNat := fun _ _ => Iff.rfl
  have hup : 'A'.toNat = 65 ∧ 'Z'.toNat = 90 := ⟨rfl, rfl⟩
  have hlow : 'a'.toNat = 97 ∧ 'z'.toNat = 122 := ⟨rfl, rfl⟩
  have hnumber : '0'.toNat = 48 ∧ '9'.toNat = 57 := ⟨rfl, rfl⟩
  have hback : ∀ base k : Nat, base + k = c.toNat → Char.ofNat (base + k) = c := by
    intro base k hsum
    rw [hsum, Char.ofNat_toNat]
  unfold value? at h
  simp only [Bool.and_eq_true, decide_eq_true_eq, hle, hup, hlow, hnumber] at h
  split at h
  · cases h
    refine ⟨by omega, ?_⟩
    rw [digit, if_pos (by omega)]
    exact hback _ _ (by omega)
  · split at h
    · cases h
      refine ⟨by omega, ?_⟩
      rw [digit, if_neg (by omega), if_pos (by omega)]
      exact hback _ _ (by omega)
    · split at h
      · cases h
        refine ⟨by omega, ?_⟩
        rw [digit, if_neg (by omega), if_neg (by omega), if_pos (by omega)]
        exact hback _ _ (by omega)
      · split at h
        · subst c
          cases h
          exact ⟨by decide, rfl⟩
        · split at h
          · subst c
            cases h
            exact ⟨by decide, rfl⟩
          · cases h

theorem group_digits (a b c d : Nat) (hb : b < 64) (hc : c < 64) (hd : d < 64) :
    group (a * 0x40000 + b * 0x1000 + c * 0x40 + d) = [digit a, digit b, digit c, digit d] := by
  have h₁ : (a * 0x40000 + b * 0x1000 + c * 0x40 + d) / 0x40000 = a := by omega
  have h₂ : (a * 0x40000 + b * 0x1000 + c * 0x40 + d) / 0x1000 % 64 = b := by omega
  have h₃ : (a * 0x40000 + b * 0x1000 + c * 0x40 + d) / 0x40 % 64 = c := by omega
  have h₄ : (a * 0x40000 + b * 0x1000 + c * 0x40 + d) % 64 = d := by omega
  rw [group, h₁, h₂, h₃, h₄]

/-- A number of 24 bits is put together again from its bytes. -/
theorem groupBytes_value (n : Nat) (h : n < 0x1000000) : ∃ a b c : UInt8,
    groupBytes n = [a, b, c] ∧ a.toNat * 0x10000 + b.toNat * 0x100 + c.toNat = n := by
  refine ⟨_, _, _, rfl, ?_⟩
  simp only [UInt8.toNat_ofNat']
  omega

theorem encodeChars_of_decodeGroup {a b c d : Char} {bytes : Bytes}
    (h : decodeGroup a b c d = some bytes) (rest : Bytes) :
    encodeChars (bytes ++ rest) = a :: b :: c :: d :: encodeChars rest := by
  simp only [decodeGroup, Option.bind_eq_bind, Option.bind_eq_some_iff] at h
  obtain ⟨n₁, h₁, n₂, h₂, n₃, h₃, n₄, h₄, hbytes⟩ := h
  obtain ⟨hn₁, rfl⟩ := digit_of_value? h₁
  obtain ⟨hn₂, rfl⟩ := digit_of_value? h₂
  obtain ⟨hn₃, rfl⟩ := digit_of_value? h₃
  obtain ⟨hn₄, rfl⟩ := digit_of_value? h₄
  obtain ⟨b₁, b₂, b₃, hgroup, hvalue⟩ := groupBytes_value _
    (show n₁ * 0x40000 + n₂ * 0x1000 + n₃ * 0x40 + n₄ < 0x1000000 by omega)
  obtain rfl : groupBytes _ = bytes := Option.some.inj hbytes
  rw [hgroup]
  show group _ ++ encodeChars rest = _
  rw [hvalue, group_digits _ _ _ _ hn₂ hn₃ hn₄]
  rfl

/-- The bits of the third character that no byte takes are zero. -/
theorem encodeChars_of_decodeThree {a b c : Char} {bytes : Bytes}
    (h : decodeThree a b c = some bytes) : encodeChars bytes = [a, b, c, '='] := by
  simp only [decodeThree, Option.bind_eq_bind, Option.bind_eq_some_iff] at h
  obtain ⟨n₁, h₁, n₂, h₂, n₃, h₃, hbytes⟩ := h
  split at hbytes
  · rename_i hpad
    obtain ⟨hn₁, rfl⟩ := digit_of_value? h₁
    obtain ⟨hn₂, rfl⟩ := digit_of_value? h₂
    obtain ⟨hn₃, rfl⟩ := digit_of_value? h₃
    obtain ⟨b₁, b₂, b₃, hgroup, hvalue⟩ := groupBytes_value _
      (show n₁ * 0x40000 + n₂ * 0x1000 + n₃ * 0x40 < 0x1000000 by omega)
    obtain rfl := Option.some.inj hbytes
    have hb₃ : b₃.toNat < 256 := b₃.toNat_lt
    have hzero : b₃.toNat = 0 := by omega
    rw [hzero, Nat.add_zero] at hvalue
    have hdigits := group_digits n₁ n₂ n₃ 0 hn₂ hn₃ (by decide)
    rw [Nat.add_zero] at hdigits
    rw [hgroup]
    show (group (b₁.toNat * 0x10000 + b₂.toNat * 0x100)).take 3 ++ ['='] = _
    rw [hvalue, hdigits]
    rfl
  · cases hbytes

theorem encodeChars_of_decodeTwo {a b : Char} {bytes : Bytes} (h : decodeTwo a b = some bytes) :
    encodeChars bytes = [a, b, '=', '='] := by
  simp only [decodeTwo, Option.bind_eq_bind, Option.bind_eq_some_iff] at h
  obtain ⟨n₁, h₁, n₂, h₂, hbytes⟩ := h
  split at hbytes
  · rename_i hpad
    obtain ⟨hn₁, rfl⟩ := digit_of_value? h₁
    obtain ⟨hn₂, rfl⟩ := digit_of_value? h₂
    obtain ⟨b₁, b₂, b₃, hgroup, hvalue⟩ := groupBytes_value _
      (show n₁ * 0x40000 + n₂ * 0x1000 < 0x1000000 by omega)
    obtain rfl := Option.some.inj hbytes
    have hb₂ : b₂.toNat < 256 := b₂.toNat_lt
    have hb₃ : b₃.toNat < 256 := b₃.toNat_lt
    have hzero : b₂.toNat = 0 ∧ b₃.toNat = 0 := by omega
    rw [hzero.1, hzero.2, Nat.zero_mul, Nat.add_zero] at hvalue
    have hdigits := group_digits n₁ n₂ 0 0 hn₂ (by decide) (by decide)
    rw [Nat.zero_mul, Nat.add_zero] at hdigits
    rw [hgroup]
    show (group (b₁.toNat * 0x10000)).take 2 ++ ['=', '='] = _
    rw [hvalue, hdigits]
    rfl
  · cases hbytes

/-- A payload has one encoding. -/
theorem eq_encodeChars_of_decodeChars (cs : List Char) (bytes : Bytes)
    (h : decodeChars cs = some bytes) : cs = encodeChars bytes := by
  induction cs using decodeChars.induct generalizing bytes with
  | case1 =>
    cases h
    rfl
  | case2 a b rest hrest =>
    rw [List.isEmpty_iff.mp hrest] at h ⊢
    rw [decodeChars, if_pos rfl] at h
    exact (encodeChars_of_decodeTwo h).symm
  | case3 a b c rest hrest hc =>
    rw [List.isEmpty_iff.mp hrest] at h ⊢
    rw [decodeChars, if_pos rfl] at h
    simp only [List.isEmpty_nil, if_true, if_neg hc] at h
    exact (encodeChars_of_decodeThree h).symm
  | case4 a b c rest hrest =>
    rw [decodeChars, if_pos rfl, if_neg hrest] at h
    cases h
  | case5 a b c d rest hd ih =>
    rw [decodeChars, if_neg hd] at h
    simp only [Option.bind_eq_bind, Option.bind_eq_some_iff] at h
    obtain ⟨front, hfront, others, hothers, hbytes⟩ := h
    obtain rfl := Option.some.inj hbytes
    rw [encodeChars_of_decodeGroup hfront, ← ih others hothers]
  | case6 cs hnil hshort =>
    rw [decodeChars] at h
    · cases h
    · exact hnil
    · exact hshort

end OlapClient.Base64
