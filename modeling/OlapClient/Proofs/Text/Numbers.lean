import Mathlib.Algebra.Group.Int.Defs
import Mathlib.Algebra.Group.Nat.Defs
import Mathlib.Data.List.TakeDrop
import OlapClient.Proofs.Markup.Tags
import OlapClient.Proofs.Traversal

/-!
# Numbers as texts

Which texts are read as whole numbers, and as which: decimal digits after an optional sign, whose
value lies in the range. Of doubles the grammar is given, without the values.
-/

namespace OlapClient.Text

open Markup.Rendering (Numeral digit_lt)

/-! ### Digits -/

theorem numeral_of_digitsFrom (radix limit : Nat) (beyond : NumberFault) (before digits : List Char)
    (value n : Nat) (hvalue : Numeral radix before value)
    (h : digitsFrom radix limit beyond value digits = .ok n) :
    Numeral radix (before ++ digits) n := by
  induction digits generalizing before value with
  | nil =>
    rw [digitsFrom] at h
    rw [List.append_nil, ← Except.ok.inj h]
    exact hvalue
  | cons c digits ih =>
    rw [digitsFrom] at h
    cases hc : digitValue? radix c with
    | none => simp [hc] at h
    | some d =>
      simp only [hc] at h
      split at h
      · have hmore := ih (before ++ [c]) _ (.more before value c d hvalue hc) h
        rwa [List.append_assoc] at hmore
      · cases h

theorem digitsFrom_le (radix limit : Nat) (beyond : NumberFault) (digits : List Char)
    (value n : Nat) (hvalue : value ≤ limit)
    (h : digitsFrom radix limit beyond value digits = .ok n) : n ≤ limit := by
  induction digits generalizing value with
  | nil =>
    rw [digitsFrom] at h
    exact Except.ok.inj h ▸ hvalue
  | cons c digits ih =>
    rw [digitsFrom] at h
    cases hc : digitValue? radix c with
    | none => simp [hc] at h
    | some d =>
      simp only [hc] at h
      split at h
      · rename_i hle
        exact ih _ hle h
      · cases h

theorem digitsFrom_eq_ok_iff (radix limit : Nat) (beyond : NumberFault) (digits : List Char)
    (n : Nat) (hne : digits ≠ []) :
    digitsFrom radix limit beyond 0 digits = .ok n ↔ Numeral radix digits n ∧ n ≤ limit := by
  constructor
  · intro h
    refine ⟨?_, digitsFrom_le radix limit beyond digits 0 n (Nat.zero_le _) h⟩
    cases digits with
    | nil => exact absurd rfl hne
    | cons c digits =>
      rw [digitsFrom] at h
      cases hc : digitValue? radix c with
      | none => simp [hc] at h
      | some d =>
        simp only [hc] at h
        split at h
        · rw [Nat.zero_mul, Nat.zero_add] at h
          exact numeral_of_digitsFrom radix limit beyond [c] digits d n (.one c d hc) h
        · cases h
  · rintro ⟨h, hn⟩
    exact h.digitsFrom limit beyond hn

/-! ### Signs -/

/-- Decimal digits after an optional plus sign, and their value. -/
inductive IsUnsigned : List Char → Nat → Prop where
  | plain (digits : List Char) (n : Nat) (h : Numeral 10 digits n) : IsUnsigned digits n
  | plus (digits : List Char) (n : Nat) (h : Numeral 10 digits n) : IsUnsigned ('+' :: digits) n

/-- Decimal digits after an optional sign, and their value. -/
inductive IsSigned : List Char → Int → Prop where
  | unsigned (cs : List Char) (n : Nat) (h : IsUnsigned cs n) : IsSigned cs n
  | minus (digits : List Char) (n : Nat) (h : Numeral 10 digits n) : IsSigned ('-' :: digits) (-n)

theorem numeral_head_ne (radix : Nat) (c : Char) (digits : List Char) (n : Nat)
    (hc : digitValue? radix c = none) : ¬ Numeral radix (c :: digits) n := by
  intro h
  obtain ⟨v, hv⟩ := h.digit c List.mem_cons_self
  rw [hc] at hv
  cases hv

theorem isUnsigned_plus_iff (digits : List Char) (n : Nat) :
    IsUnsigned ('+' :: digits) n ↔ Numeral 10 digits n := by
  constructor
  · intro h
    cases h with
    | plain _ _ h => exact absurd h (numeral_head_ne 10 '+' digits n (by decide))
    | plus _ _ h => exact h
  · exact IsUnsigned.plus digits n

theorem isUnsigned_iff_of_ne (c : Char) (digits : List Char) (n : Nat) (hc : c ≠ '+') :
    IsUnsigned (c :: digits) n ↔ Numeral 10 (c :: digits) n := by
  constructor
  · intro h
    cases h with
    | plain _ _ h => exact h
    | plus _ _ h => exact absurd rfl hc
  · exact IsUnsigned.plain _ n

theorem unsigned_eq_ok_iff (limit : Nat) (cs : List Char) (n : Nat) :
    unsigned 10 limit cs = .ok n ↔ IsUnsigned cs n ∧ n ≤ limit := by
  have hempty : ¬ Numeral 10 [] n := fun h => h.ne_nil rfl
  unfold unsigned
  split
  case h_1 =>
    have hno : ¬ IsUnsigned [] n := fun h => by
      cases h with
      | plain _ _ h => exact hempty h
    simp [hno]
  case h_2 => simp [isUnsigned_plus_iff, hempty]
  case h_3 =>
    have hno := numeral_head_ne 10 '-' [] n (by decide)
    simp [isUnsigned_iff_of_ne, hno]
  case h_4 digits hne =>
    rw [isUnsigned_plus_iff, digitsFrom_eq_ok_iff]
    rintro rfl
    exact hne rfl
  case h_5 hnil _ _ hplus =>
    cases cs with
    | nil => exact absurd rfl hnil
    | cons c digits =>
      have hc : c ≠ '+' := fun hc => hplus digits (hc ▸ rfl)
      rw [isUnsigned_iff_of_ne c digits n hc, digitsFrom_eq_ok_iff]
      exact List.cons_ne_nil _ _

theorem isSigned_minus_iff (digits : List Char) (z : Int) :
    IsSigned ('-' :: digits) z ↔ ∃ n : Nat, z = -n ∧ Numeral 10 digits n := by
  constructor
  · intro h
    cases h with
    | unsigned _ n h =>
      rw [isUnsigned_iff_of_ne '-' digits n (by decide)] at h
      exact absurd h (numeral_head_ne 10 '-' digits n (by decide))
    | minus _ n h => exact ⟨n, rfl, h⟩
  · rintro ⟨n, rfl, h⟩
    exact .minus digits n h

theorem isSigned_iff_of_ne (cs : List Char) (z : Int) (hc : ∀ digits, cs ≠ '-' :: digits) :
    IsSigned cs z ↔ ∃ n : Nat, z = n ∧ IsUnsigned cs n := by
  constructor
  · intro h
    cases h with
    | unsigned _ n h => exact ⟨n, rfl, h⟩
    | minus digits n h => exact absurd rfl (hc digits)
  · rintro ⟨n, rfl, h⟩
    exact .unsigned cs n h

/-! ### Ranges -/

theorem count?_eq_some_iff (text : String) (n : Nat) :
    count? text = some n ↔ IsUnsigned text.toList n ∧ n < 2 ^ 64 := by
  rw [count?, toOption_eq_some, unsigned_eq_ok_iff, maxCount]
  exact and_congr_right fun _ => Nat.lt_succ_iff.symm

theorem word?_eq_some_iff (text : String) (n : Nat) :
    word? text = some n ↔ IsUnsigned text.toList n ∧ n < 2 ^ 32 := by
  rw [word?, toOption_eq_some, unsigned_eq_ok_iff]
  exact and_congr_right fun _ => Nat.lt_succ_iff.symm

theorem integer?_eq_some_iff (text : String) (z : Int) :
    integer? text = some z ↔ IsSigned text.toList z ∧ -2 ^ 63 ≤ z ∧ z < 2 ^ 63 := by
  have hpow : Nat.pow 2 (64 - 1) = 2 ^ 63 := rfl
  rw [integer?, toOption_eq_some]
  unfold signed
  split
  · rename_i c digits heq
    rw [heq, isSigned_minus_iff, map_eq_ok]
    constructor
    · rintro ⟨_, hread, rfl⟩
      obtain ⟨n, hdigits, hn⟩ := bind_eq_ok.mp hread
      cases hn
      obtain ⟨hd, hn⟩ := (digitsFrom_eq_ok_iff _ _ _ _ _ (List.cons_ne_nil c digits)).mp hdigits
      rw [hpow] at hn
      exact ⟨⟨n, rfl, hd⟩, by omega, by omega⟩
    · rintro ⟨⟨n, rfl, hd⟩, hlow, -⟩
      have hn : n ≤ Nat.pow 2 (64 - 1) := by
        rw [hpow]
        omega
      refine ⟨n, bind_eq_ok.mpr ⟨n, ?_, rfl⟩, rfl⟩
      exact (digitsFrom_eq_ok_iff _ _ _ _ _ (List.cons_ne_nil c digits)).mpr ⟨hd, hn⟩
  · rename_i hne
    rw [map_eq_ok]
    simp only [unsigned_eq_ok_iff, hpow, Int.ofNat_eq_natCast]
    have hsigned : IsSigned text.toList z ↔ ∃ n : Nat, z = n ∧ IsUnsigned text.toList n := by
      by_cases hminus : text.toList = ['-']
      · -- a lone minus sign is no number, with a sign or without
        have hempty : ∀ n, ¬ Numeral 10 [] n := fun n h => h.ne_nil rfl
        have hno : ∀ n, ¬ Numeral 10 ['-'] n := fun n => numeral_head_ne 10 '-' [] n (by decide)
        rw [hminus, isSigned_minus_iff]
        simp [isUnsigned_iff_of_ne, hempty, hno]
      · refine isSigned_iff_of_ne _ z fun digits heq => ?_
        cases digits with
        | nil => exact hminus heq
        | cons c digits => exact hne c digits heq
    rw [hsigned]
    constructor
    · rintro ⟨n, ⟨hd, hn⟩, rfl⟩
      exact ⟨⟨n, rfl, hd⟩, by omega, by omega⟩
    · rintro ⟨⟨n, rfl, hd⟩, -, hhigh⟩
      exact ⟨n, ⟨hd, by omega⟩, rfl⟩

/-! ### Doubles -/

def IsDigits (cs : List Char) : Prop := ∀ c ∈ cs, c.isDigit = true

def marks : List Char := ['e', 'E']

def signs : List (List Char) := [[], ['+'], ['-']]

def words : List (List Char) := ["inf".toList, "infinity".toList, "nan".toList]

inductive IsExponent : List Char → Prop where
  | absent : IsExponent []
  | present (mark : Char) (sign digits : List Char) (hm : mark ∈ marks) (hs : sign ∈ signs)
      (hne : digits ≠ []) (hd : IsDigits digits) : IsExponent (mark :: (sign ++ digits))

/-- A decimal number without a sign: a word in any case, or digits with an optional point among
them and an optional exponent behind. -/
inductive IsMagnitude : List Char → Prop where
  | word (cs : List Char) (h : cs.map Char.toLower ∈ words) : IsMagnitude cs
  | whole (digits exponent : List Char) (hne : digits ≠ []) (hd : IsDigits digits)
      (he : IsExponent exponent) : IsMagnitude (digits ++ exponent)
  | pointed (digits fraction exponent : List Char) (hne : digits ≠ [] ∨ fraction ≠ [])
      (hd : IsDigits digits) (hf : IsDigits fraction) (he : IsExponent exponent) :
      IsMagnitude (digits ++ '.' :: (fraction ++ exponent))

inductive IsDouble : List Char → Prop where
  | mk (sign cs : List Char) (hs : sign ∈ signs) (h : IsMagnitude cs) : IsDouble (sign ++ cs)

theorem leadingDigits_append (digits rest : List Char) (hd : IsDigits digits)
    (hr : ∀ c, rest.head? = some c → c.isDigit = false) :
    leadingDigits (digits ++ rest) = (digits, rest) := by
  rw [leadingDigits, List.span_eq_takeWhile_dropWhile, List.takeWhile_append_of_pos hd,
    List.dropWhile_append_of_pos hd]
  cases rest with
  | nil => simp
  | cons c rest => simp [hr c rfl]

theorem leadingDigits_split (cs : List Char) :
    ∃ digits rest, cs = digits ++ rest ∧ IsDigits digits ∧
      (∀ c, rest.head? = some c → c.isDigit = false) ∧ leadingDigits cs = (digits, rest) := by
  refine ⟨cs.takeWhile (·.isDigit), cs.dropWhile (·.isDigit), List.takeWhile_append_dropWhile.symm,
    fun c hc => ?_, fun c hc => ?_, List.span_eq_takeWhile_dropWhile _ cs⟩
  · exact List.mem_takeWhile_imp hc
  · have hhead := List.head?_dropWhile_not (·.isDigit) cs
    rw [hc] at hhead
    simpa using hhead

def Unsigned (cs : List Char) : Prop := ∀ c, cs.head? = some c → c ≠ '-' ∧ c ≠ '+'

theorem sign_split (cs : List Char) :
    ∃ sign ∈ signs, ∃ rest, cs = sign ++ rest ∧ (sign = [] → Unsigned rest) := by
  cases cs with
  | nil => exact ⟨[], by decide, [], rfl, fun _ c hc => by cases hc⟩
  | cons c rest =>
    by_cases hminus : c = '-'
    · exact ⟨['-'], by decide, rest, by rw [hminus]; rfl, fun h => by cases h⟩
    by_cases hplus : c = '+'
    · exact ⟨['+'], by decide, rest, by rw [hplus]; rfl, fun h => by cases h⟩
    refine ⟨[], by decide, c :: rest, rfl, fun _ d hd => ?_⟩
    cases hd
    exact ⟨hminus, hplus⟩

theorem IsDigits.unsigned {digits : List Char} (h : IsDigits digits) : Unsigned digits := by
  intro c hc
  have hdigit := h c (List.mem_of_head? hc)
  refine ⟨?_, ?_⟩ <;> rintro rfl <;> exact absurd hdigit (by decide)

theorem exponent?_isSome_sign (mark : Char) (sign digits : List Char) (hs : sign ∈ signs)
    (hu : sign = [] → Unsigned digits) :
    (exponent? (mark :: (sign ++ digits))).isSome = true ↔
      mark ∈ marks ∧ digits ≠ [] ∧ IsDigits digits := by
  have hmark : (mark = 'e' || mark = 'E') = true ↔ mark ∈ marks := by simp [marks]
  have hdigits : (digits.isEmpty || !digits.all (·.isDigit)) = false ↔
      digits ≠ [] ∧ IsDigits digits := by
    simp [IsDigits]
  rw [← hmark, ← hdigits]
  simp only [signs, List.mem_cons, List.not_mem_nil, or_false] at hs
  rcases hs with rfl | rfl | rfl
  · have hu := hu rfl
    unfold exponent?
    simp only [List.nil_append]
    split
    · split
      · exact absurd rfl (hu '-' rfl).1
      · exact absurd rfl (hu '+' rfl).2
      · simp_all
    · simp_all
  · by_cases hm : (mark = 'e' || mark = 'E') = true <;>
      cases hd : (digits.isEmpty || !digits.all (·.isDigit)) <;> simp [exponent?, hm, hd]
  · by_cases hm : (mark = 'e' || mark = 'E') = true <;>
      cases hd : (digits.isEmpty || !digits.all (·.isDigit)) <;> simp [exponent?, hm, hd]

theorem exponent?_isSome_iff (cs : List Char) : (exponent? cs).isSome = true ↔ IsExponent cs := by
  cases cs with
  | nil => exact ⟨fun _ => .absent, fun _ => rfl⟩
  | cons mark rest =>
    constructor
    · intro h
      obtain ⟨sign, hs, digits, rfl, hu⟩ := sign_split rest
      obtain ⟨hm, hne, hd⟩ := (exponent?_isSome_sign mark sign digits hs hu).mp h
      exact .present mark sign digits hm hs hne hd
    · intro h
      cases h with
      | present _ sign digits hm hs hne hd =>
        exact (exponent?_isSome_sign mark sign digits hs fun _ => hd.unsigned).mpr ⟨hm, hne, hd⟩

theorem IsExponent.head_not_digit {cs : List Char} (h : IsExponent cs) (c : Char)
    (hc : cs.head? = some c) : c.isDigit = false ∧ c ≠ '.' := by
  cases h with
  | absent => cases hc
  | present mark sign digits hm _ _ _ =>
    cases hc
    simp only [marks, List.mem_cons, List.not_mem_nil, or_false] at hm
    rcases hm with rfl | rfl <;> exact ⟨by decide, by decide⟩

theorem magnitude?_of_word (cs : List Char) (h : cs.map Char.toLower ∈ words) :
    (magnitude? cs).isSome = true := by
  unfold magnitude?
  simp only [words, List.mem_cons, List.not_mem_nil, or_false] at h
  rcases h with h | h | h <;> simp [h]

/-- What is no word is read as digits, a fraction if a point follows them, and an exponent. -/
theorem magnitude?_isSome_digits (cs digits rest fraction exponent : List Char)
    (h : cs.map Char.toLower ∉ words) (hd : leadingDigits cs = (digits, rest))
    (hf : (rest = '.' :: (fraction ++ exponent) ∧
        leadingDigits (fraction ++ exponent) = (fraction, exponent)) ∨
      (rest = exponent ∧ fraction = [] ∧ ∀ c, rest.head? = some c → c ≠ '.')) :
    (magnitude? cs).isSome = true ↔
      (digits ≠ [] ∨ fraction ≠ []) ∧ (exponent? exponent).isSome = true := by
  simp only [words, List.mem_cons, List.not_mem_nil, or_false, not_or] at h
  unfold magnitude?
  simp only [h, decide_false, Bool.or_false, Bool.false_eq_true, if_false, hd]
  rcases hf with ⟨rfl, hf⟩ | ⟨rfl, rfl, hpoint⟩
  · simp only [hf]
    cases digits <;> cases fraction <;> cases exponent? exponent <;> simp
  · split
    · exact absurd rfl (hpoint '.' rfl)
    · cases digits <;> cases exponent? rest <;> simp

theorem magnitude?_isSome_iff (cs : List Char) :
    (magnitude? cs).isSome = true ↔ IsMagnitude cs := by
  by_cases hword : cs.map Char.toLower ∈ words
  · exact ⟨fun _ => .word cs hword, fun _ => magnitude?_of_word cs hword⟩
  have hexponent : ∀ exponent, IsExponent exponent →
      ∀ c, exponent.head? = some c → c.isDigit = false := fun e he c hc =>
    (he.head_not_digit c hc).1
  constructor
  · intro h
    obtain ⟨digits, rest, rfl, hd, -, hlead⟩ := leadingDigits_split cs
    by_cases hpoint : ∃ behind, rest = '.' :: behind
    · obtain ⟨behind, rfl⟩ := hpoint
      obtain ⟨fraction, exponent, rfl, hf, -, hfraction⟩ := leadingDigits_split behind
      obtain ⟨hne, he⟩ := (magnitude?_isSome_digits _ digits _ fraction exponent hword hlead
        (.inl ⟨rfl, hfraction⟩)).mp h
      exact .pointed digits fraction exponent hne hd hf ((exponent?_isSome_iff exponent).mp he)
    · have hhead : ∀ c, rest.head? = some c → c ≠ '.' := by
        rintro c hc rfl
        exact hpoint ⟨rest.tail, (List.head?_eq_some_iff.mp hc).elim fun t ht => by rw [ht]; rfl⟩
      obtain ⟨hne, he⟩ := (magnitude?_isSome_digits _ digits rest [] rest hword hlead
        (.inr ⟨rfl, rfl, hhead⟩)).mp h
      exact .whole digits rest (hne.resolve_right fun hno => hno rfl) hd
        ((exponent?_isSome_iff rest).mp he)
  · intro h
    cases h with
    | word _ h => exact absurd h hword
    | whole digits exponent hne hd he =>
      have hlead := leadingDigits_append digits exponent hd (hexponent exponent he)
      exact (magnitude?_isSome_digits _ digits exponent [] exponent hword hlead
        (.inr ⟨rfl, rfl, fun c hc => (he.head_not_digit c hc).2⟩)).mpr
        ⟨.inl hne, (exponent?_isSome_iff exponent).mpr he⟩
    | pointed digits fraction exponent hne hd hf he =>
      have hlead := leadingDigits_append digits ('.' :: (fraction ++ exponent)) hd fun c hc => by
        cases hc
        decide
      have hfraction := leadingDigits_append fraction exponent hf (hexponent exponent he)
      exact (magnitude?_isSome_digits _ digits _ fraction exponent hword hlead
        (.inl ⟨rfl, hfraction⟩)).mpr ⟨hne, (exponent?_isSome_iff exponent).mpr he⟩

theorem IsMagnitude.unsigned {cs : List Char} (h : IsMagnitude cs) : Unsigned cs := by
  cases h with
  | word _ h =>
    intro c hc
    have hstart : ∀ word ∈ words, word.head? ≠ some '-' ∧ word.head? ≠ some '+' := by decide
    have hhead := hstart _ h
    rw [List.head?_map, hc] at hhead
    refine ⟨?_, ?_⟩ <;> rintro rfl
    · exact hhead.1 rfl
    · exact hhead.2 rfl
  | whole digits exponent hne hd _ =>
    intro c hc
    rw [List.head?_append_of_ne_nil _ hne] at hc
    exact hd.unsigned c hc
  | pointed digits fraction exponent hne hd hf _ =>
    intro c hc
    cases digits with
    | nil =>
      cases hc
      decide
    | cons d digits => exact hd.unsigned c hc

theorem double?_isSome_iff (text : String) :
    (double? text).isSome = true ↔ IsDouble text.toList := by
  have hread : ∀ sign ∈ signs, ∀ rest, (sign = [] → Unsigned rest) →
      text.toList = sign ++ rest → ((double? text).isSome = true ↔ IsMagnitude rest) := by
    intro sign hs rest hu htext
    rw [← magnitude?_isSome_iff, double?, htext]
    simp only [signs, List.mem_cons, List.not_mem_nil, or_false] at hs
    rcases hs with rfl | rfl | rfl
    · have hu := hu rfl
      simp only [List.nil_append]
      split
      · exact absurd rfl (hu '-' rfl).1
      · exact absurd rfl (hu '+' rfl).2
      · rfl
    · rfl
    · simp
  constructor
  · intro h
    obtain ⟨sign, hs, rest, htext, hu⟩ := sign_split text.toList
    rw [htext]
    exact .mk sign rest hs ((hread sign hs rest hu htext).mp h)
  · intro h
    generalize htext : text.toList = cs at h
    cases h with
    | mk sign rest hs h => exact (hread sign hs rest (fun _ => h.unsigned) htext).mpr h

end OlapClient.Text
