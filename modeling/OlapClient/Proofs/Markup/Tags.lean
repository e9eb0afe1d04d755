import Mathlib.Data.List.Basic
import Mathlib.Data.List.TakeWhile
import OlapClient.Markup.Document
import OlapClient.Proofs.Markup.Rendering
import OlapClient.Proofs.Text.Encoding

/-!
# Tags and escaped text, read back

A text that is written by character or by reference is decoded to what it says, and a tag gives the
name and the attributes it was written for. Prefixes and declarations leave no trace.
-/

namespace OlapClient.Markup

open Rendering

namespace Rendering

/-! ### References -/

theorem digit_lt (radix : Nat) (c : Char) (v : Nat) (h : Text.digitValue? radix c = some v) :
    v < radix := by
  unfold Text.digitValue? at h
  exact of_decide_eq_true (Option.filter_eq_some_iff.mp h).2

theorem digitsFrom_append (radix limit : Nat) (beyond : Text.NumberFault) (value n : Nat)
    (digits more : List Char) (h : Text.digitsFrom radix limit beyond value digits = .ok n) :
    Text.digitsFrom radix limit beyond value (digits ++ more) =
      Text.digitsFrom radix limit beyond n more := by
  induction digits generalizing value with
  | nil =>
    rw [Text.digitsFrom] at h
    rw [List.nil_append, Except.ok.inj h]
  | cons c digits ih =>
    rw [Text.digitsFrom] at h
    rw [List.cons_append, Text.digitsFrom]
    cases hc : Text.digitValue? radix c with
    | none => simp [hc] at h
    | some d =>
      simp only [hc] at h ⊢
      split at h
      · rename_i hle
        rw [if_pos hle]
        exact ih _ h
      · cases h

namespace Numeral

variable {radix : Nat} {digits : List Char} {n : Nat}

theorem ne_nil (h : Numeral radix digits n) : digits ≠ [] := by
  cases h <;> simp

theorem digitsFrom (h : Numeral radix digits n) (limit : Nat) (beyond : Text.NumberFault)
    (hn : n ≤ limit) : Text.digitsFrom radix limit beyond 0 digits = .ok n := by
  induction h with
  | one c v hv => simp [Text.digitsFrom, hv, hn]
  | more digits n c v hd hv ih =>
    have hpos : 0 < radix := Nat.zero_lt_of_lt (digit_lt radix c v hv)
    have hle : n ≤ n * radix := Nat.le_mul_of_pos_right n hpos
    rw [digitsFrom_append radix limit beyond 0 n digits [c] (ih (by omega))]
    simp [Text.digitsFrom, hv, hn]

/-- No sign stands before the digits. -/
theorem unsigned (h : Numeral radix digits n) (limit : Nat) (hn : n ≤ limit) :
    Text.unsigned radix limit digits = .ok n := by
  have hplus : '+' ∉ digits := fun hc => absurd (h.alphanum '+' hc) (by decide)
  have hminus : '-' ∉ digits := fun hc => absurd (h.alphanum '-' hc) (by decide)
  unfold Text.unsigned
  split
  · exact absurd rfl h.ne_nil
  · simp at hplus
  · simp at hminus
  · simp at hplus
  · exact h.digitsFrom limit .tooLarge hn

theorem characterNumbered (c : Char) (h : Numeral radix digits c.toNat) (hc : c.toNat ≠ 0) :
    characterNumbered radix digits = .ok c := by
  have hplus : '+' ∉ digits := fun hc => absurd (h.alphanum '+' hc) (by decide)
  have hminus : '-' ∉ digits := fun hc => absurd (h.alphanum '-' hc) (by decide)
  have hlimit : c.toNat ≤ 0xFFFFFFFF := Nat.le_of_lt_succ c.val.toNat_lt
  have hvalid : c.toNat.isValidChar := c.valid
  unfold Markup.characterNumbered
  split
  · simp at hplus
  · simp at hminus
  · rw [h.unsigned 0xFFFFFFFF hlimit]
    simp [hc, hvalid, Char.ofNat_toNat]

end Numeral

theorem Reference.characterOf {name : List Char} {c : Char} (h : Reference name c) (start : Nat) :
    characterOf start name = .ok c := by
  cases h with
  | named c name hmem =>
    simp only [namedCharacters, List.mem_cons, Prod.mk.injEq, List.not_mem_nil, or_false] at hmem
    rcases hmem with ⟨rfl, rfl⟩ | ⟨rfl, rfl⟩ | ⟨rfl, rfl⟩ | ⟨rfl, rfl⟩ | ⟨rfl, rfl⟩ <;> rfl
  | decimal digits c hn hc =>
    have hcharacter := hn.characterNumbered c hc
    unfold Markup.characterOf
    split
    · rename_i digits' heq
      obtain rfl : digits = 'x' :: digits' := (List.cons.inj heq).2
      obtain ⟨v, hv⟩ := hn.digit 'x' List.mem_cons_self
      exact absurd hv (by simp [Text.digitValue?])
    · rename_i digits' _ heq
      obtain rfl : digits = digits' := (List.cons.inj heq).2
      rw [hcharacter]
      rfl
    · rename_i hnot
      exact absurd rfl (hnot digits)
  | hexadecimal digits c hn hc =>
    have hcharacter := hn.characterNumbered c hc
    simp only [Markup.characterOf, hcharacter]
    rfl

/-! ### Escaped text -/

theorem resolveFrom_name (size offset start : Nat) (name read rest : List Char)
    (h : ∀ d ∈ name, d ≠ '&' ∧ d ≠ ';') : ∃ offset',
      resolveFrom size offset (.inName start read) (name ++ rest) =
        resolveFrom size offset' (.inName start (name.reverse ++ read)) rest := by
  induction name generalizing offset read with
  | nil => exact ⟨offset, rfl⟩
  | cons d name ih =>
    obtain ⟨hamp, hsemi⟩ := h d List.mem_cons_self
    obtain ⟨offset', heq⟩ := ih (offset + d.utf8Size) (d :: read)
      fun d' hd' => h d' (List.mem_cons_of_mem d hd')
    refine ⟨offset', ?_⟩
    rw [List.cons_append, resolveFrom, if_neg hamp, if_neg hsemi, heq]
    simp

namespace Escaped

variable {avoid raw text : List Char}

theorem resolveFrom (h : Escaped avoid raw text) (size offset : Nat) :
    resolveFrom size offset .plain raw = .ok text := by
  induction h generalizing offset with
  | nil => rfl
  | plain c raw text hc _ ih =>
    rw [Markup.resolveFrom, if_neg hc.1, ih]
    rfl
  | reference name c raw text hr _ ih =>
    have hname : ∀ d ∈ name, d ≠ '&' ∧ d ≠ ';' := by
      intro d hd
      refine ⟨?_, ?_⟩ <;>
      · rintro rfl
        exact absurd (hr.chars _ hd) (by decide)
    obtain ⟨offset', heq⟩ := resolveFrom_name size (offset + 1) offset name [] (';' :: raw) hname
    have hc := hr.characterOf (offset + 1)
    rw [Markup.resolveFrom, if_pos rfl, heq, Markup.resolveFrom, if_neg (by decide), if_pos rfl,
      List.append_nil, List.reverse_reverse, hc, ih]
    rfl

theorem decodeText (h : Escaped avoid raw text) :
    decodeText (Utf8.encodeChars raw) = .ok (String.ofList text) := by
  have hresolve : resolve (String.ofList raw) = .ok (String.ofList text) := by
    rw [resolve, String.toList_ofList, h.resolveFrom]
    rfl
  rw [Markup.decodeText, Utf8.decode_encodeChars]
  change (resolve (String.ofList raw)).mapError DocumentError.reference = _
  rw [hresolve]
  rfl

end Escaped

/-! ### Marks among the bytes of a tag -/

theorem delimiters_ascii : ∀ d ∈ delimiters, d.toNat < 128 := forall_of_all delimiters (by decide)

theorem isSpace_byte : ∀ c ∈ spaces, isSpace (Text.byte c) = true :=
  forall_of_all spaces (by decide)

theorem byte_of_isSpace (b : UInt8) (hb : isSpace b = true) : ∃ c ∈ spaces, b = Text.byte c := by
  simp only [isSpace, Bool.or_eq_true, beq_iff_eq] at hb
  rcases hb with ((rfl | rfl) | rfl) | rfl
  · exact ⟨' ', by decide, rfl⟩
  · exact ⟨'\t', by decide, rfl⟩
  · exact ⟨'\n', by decide, rfl⟩
  · exact ⟨'\r', by decide, rfl⟩

theorem Spaces.isSpace {gap : List Char} (h : Spaces gap) (b : UInt8)
    (hb : b ∈ Utf8.encodeChars gap) : isSpace b = true := by
  have hascii : ∀ c ∈ gap, c.toNat < 128 := fun c hc =>
    delimiters_ascii c (List.mem_append_left _ (h c hc))
  rw [Utf8.encodeChars_ascii gap hascii] at hb
  obtain ⟨c, hc, rfl⟩ := List.mem_map.mp hb
  exact isSpace_byte c (h c hc)

/-- Bytes with nothing in them that has a meaning between the ends of a tag. -/
def Undelimited (bytes : Bytes) : Prop := ∀ b ∈ bytes, ∀ d ∈ delimiters, b ≠ Text.byte d

theorem undelimited_encodeChars (key : List Char) (h : Unmarked key) :
    Undelimited (Utf8.encodeChars key) := by
  rintro b hb d hd rfl
  exact h d ((Utf8.byte_mem_encodeChars d (delimiters_ascii d hd) key).mp hb) hd

theorem Undelimited.not_space {bytes : Bytes} (h : Undelimited bytes) (b : UInt8) (hb : b ∈ bytes) :
    isSpace b = false := by
  rw [Bool.eq_false_iff]
  intro hspace
  obtain ⟨c, hc, rfl⟩ := byte_of_isSpace b hspace
  exact h _ hb c (List.mem_append_left _ hc) rfl

theorem not_quote_mem (quote : Char) (hq : IsQuote quote) (raw : List Char) (h : quote ∉ raw) :
    Text.byte quote ∉ Utf8.encodeChars raw := by
  have hascii : quote.toNat < 128 := by rcases hq with rfl | rfl <;> decide
  intro hmem
  exact h ((Utf8.byte_mem_encodeChars quote hascii raw).mp hmem)

/-! ### One attribute -/

theorem attributesFrom_spaces (seen : KeyPositions) (state : AttributeState)
    (hskip : ∀ b, isSpace b = true → ∀ offset bs,
      attributesFrom offset seen state (b :: bs) = attributesFrom (offset + 1) seen state bs)
    (gap bs : Bytes) (hgap : ∀ b ∈ gap, isSpace b = true) (offset : Nat) :
    attributesFrom offset seen state (gap ++ bs) =
      attributesFrom (offset + gap.length) seen state bs := by
  induction gap generalizing offset with
  | nil => rfl
  | cons b gap ih =>
    have hrest : ∀ b' ∈ gap, isSpace b' = true := fun b' hb' => hgap b' (List.mem_cons_of_mem b hb')
    rw [List.cons_append, hskip b (hgap b List.mem_cons_self), ih hrest, List.length_cons,
      Nat.add_assoc, Nat.add_comm 1]

theorem between_skips (seen : KeyPositions) (b : UInt8) (hb : isSpace b = true) (offset : Nat)
    (bs : Bytes) :
    attributesFrom offset seen .between (b :: bs) =
      attributesFrom (offset + 1) seen .between bs := by
  rw [attributesFrom, if_pos hb]

theorem afterKey_skips (seen : KeyPositions) (start : Nat) (key : Bytes) (b : UInt8)
    (hb : isSpace b = true) (offset : Nat) (bs : Bytes) :
    attributesFrom offset seen (.afterKey start key) (b :: bs) =
      attributesFrom (offset + 1) seen (.afterKey start key) bs := by
  rw [attributesFrom, if_pos hb]

theorem beforeValue_skips (seen : KeyPositions) (key : Bytes) (b : UInt8) (hb : isSpace b = true)
    (offset : Nat) (bs : Bytes) :
    attributesFrom offset seen (.beforeValue key) (b :: bs) =
      attributesFrom (offset + 1) seen (.beforeValue key) bs := by
  rw [attributesFrom, if_pos hb]

theorem attributesFrom_key (seen : KeyPositions) (start : Nat) (read key bs : Bytes)
    (hkey : Undelimited key) (offset : Nat) :
    attributesFrom offset seen (.inKey start read) (key ++ bs) =
      attributesFrom (offset + key.length) seen (.inKey start (key.reverse ++ read)) bs := by
  induction key generalizing offset read with
  | nil => rfl
  | cons b key ih =>
    have hequals : b ≠ Text.byte '=' := hkey b List.mem_cons_self '=' (by decide)
    have hspace := hkey.not_space b List.mem_cons_self
    have hrest : Undelimited key := fun b' hb' => hkey b' (List.mem_cons_of_mem b hb')
    rw [List.cons_append, attributesFrom, if_neg hequals, hspace, if_neg (by decide),
      ih (b :: read) hrest]
    simp [Nat.add_assoc, Nat.add_comm 1]

theorem attributesFrom_value (seen : KeyPositions) (key : Bytes) (quote : UInt8)
    (read value bs : Bytes) (hvalue : quote ∉ value) (offset : Nat) :
    attributesFrom offset seen (.inValue key quote read) (value ++ bs) =
      attributesFrom (offset + value.length) seen
        (.inValue key quote (value.reverse ++ read)) bs := by
  induction value generalizing offset read with
  | nil => rfl
  | cons b value ih =>
    have hb : b ≠ quote := fun h => hvalue (h ▸ List.mem_cons_self)
    have hrest : quote ∉ value := fun h => hvalue (List.mem_cons_of_mem b h)
    rw [List.cons_append, attributesFrom, if_neg hb, ih (b :: read) hrest]
    simp [Nat.add_assoc, Nat.add_comm 1]

/-- The equals sign may stand directly behind the key or after blanks. -/
theorem attributesFrom_equals (seen : KeyPositions) (start : Nat) (key gap bs : Bytes)
    (hgap : ∀ b ∈ gap, isSpace b = true) (hnew : ∀ entry ∈ seen, entry.1 ≠ key.reverse)
    (offset : Nat) : ∃ offset',
      attributesFrom offset seen (.inKey start key) (gap ++ Text.byte '=' :: bs) =
        attributesFrom offset' (seen ++ [(key.reverse, start)]) (.beforeValue key.reverse) bs := by
  have hread : keyRead seen start key.reverse =
      .ok (seen ++ [(key.reverse, start)], .beforeValue key.reverse) := by
    have hfind : (seen.find? fun entry => entry.1 == key.reverse) = none := by
      rw [List.find?_eq_none]
      intro entry hentry
      simpa using hnew entry hentry
    rw [keyRead, hfind]
  cases gap with
  | nil =>
    refine ⟨offset + 1, ?_⟩
    rw [List.nil_append, attributesFrom, if_pos rfl, hread]
  | cons b gap =>
    have hb := hgap b List.mem_cons_self
    have hrest : ∀ b' ∈ gap, isSpace b' = true := fun b' hb' => hgap b' (List.mem_cons_of_mem b hb')
    have hequals : b ≠ Text.byte '=' := by
      rintro rfl
      exact absurd hb (by decide)
    refine ⟨offset + 1 + gap.length + 1, ?_⟩
    rw [List.cons_append, attributesFrom, if_neg hequals, if_pos hb,
      attributesFrom_spaces seen _ (afterKey_skips seen start key) gap _ hrest, attributesFrom,
      if_neg (by decide), if_pos rfl, hread]

theorem attributesFrom_attribute (seen : KeyPositions) (gap key before behind value bs : Bytes)
    (quote : UInt8) (hgap : ∀ b ∈ gap, isSpace b = true) (hne : key ≠ []) (hkey : Undelimited key)
    (hnew : ∀ entry ∈ seen, entry.1 ≠ key) (hbefore : ∀ b ∈ before, isSpace b = true)
    (hbehind : ∀ b ∈ behind, isSpace b = true)
    (hquote : quote = Text.byte '"' ∨ quote = Text.byte '\'') (hvalue : quote ∉ value)
    (offset : Nat) : ∃ start offset',
      attributesFrom offset seen .between (gap ++ (key ++ (before ++ Text.byte '=' ::
        (behind ++ quote :: (value ++ quote :: bs))))) =
      (⟨key, value⟩ :: (attributesFrom offset' (seen ++ [(key, start)]) .between bs).1,
        (attributesFrom offset' (seen ++ [(key, start)]) .between bs).2) := by
  obtain ⟨b, key, rfl⟩ := List.exists_cons_of_ne_nil hne
  have hspace := hkey.not_space b List.mem_cons_self
  have hrest : Undelimited key := fun b' hb' => hkey b' (List.mem_cons_of_mem b hb')
  have hreverse : (key.reverse ++ [b]).reverse = b :: key := by simp
  obtain ⟨offset₁, hequals⟩ := attributesFrom_equals seen (offset + gap.length) (key.reverse ++ [b])
    before (behind ++ quote :: (value ++ quote :: bs)) hbefore (by rwa [hreverse])
    (offset + gap.length + 1 + key.length)
  have hopen : (decide (quote = Text.byte '"') || decide (quote = Text.byte '\'')) = true := by
    simpa using hquote
  have hquoted : isSpace quote = false := by
    rcases hquote with rfl | rfl <;> decide
  refine ⟨offset + gap.length, offset₁ + behind.length + 1 + value.length + 1, ?_⟩
  rw [attributesFrom_spaces seen _ (between_skips seen) gap _ hgap, List.cons_append,
    attributesFrom, hspace, if_neg (by decide), attributesFrom_key seen _ [b] key _ hrest, hequals,
    hreverse, attributesFrom_spaces _ _ (beforeValue_skips _ _) behind _ hbehind, attributesFrom,
    hquoted, if_neg (by decide), if_pos hopen, attributesFrom_value _ _ quote [] value _ hvalue,
    attributesFrom, if_pos rfl, List.append_nil, List.reverse_reverse]

/-! ### Keys -/

namespace Qualified

variable {name key : List Char}

theorem localName (h : Qualified name key) (hn : IsName name) :
    localName (Utf8.encodeChars key) = String.ofList name := by
  have hcolon : ∀ c ∈ name.reverse, decide (c ≠ ':') = true := by
    intro c hc
    refine decide_eq_true ?_
    rintro rfl
    exact hn.not_colon (List.mem_reverse.mp hc)
  rw [Markup.localName, Utf8.decodeLossy_encodeChars, afterColon, String.toList_ofList]
  cases h with
  | bare => rw [List.takeWhile_eq_self_iff.mpr hcolon, List.reverse_reverse]
  | prefixed space hs =>
    rw [List.reverse_append, List.reverse_cons, List.append_assoc,
      List.takeWhile_append_of_pos hcolon]
    simp

theorem eq_of_key {other : List Char} (h : Qualified name key) (h' : Qualified other key)
    (hn : IsName name) (ho : IsName other) : name = other := by
  have hlocal := h.localName hn
  rw [h'.localName ho] at hlocal
  exact (String.ofList_injective hlocal).symm

/-- The key of an attribute declares nothing. -/
theorem declares_not (h : Qualified name key) (hn : IsName name) (hx : name ≠ xmlns) :
    key ≠ xmlns ∧ ∀ space, key ≠ xmlns ++ ':' :: space := by
  have hxmlns : ':' ∉ xmlns := by decide
  cases h with
  | bare =>
    refine ⟨hx, ?_⟩
    rintro space rfl
    exact hn.not_colon (by simp)
  | prefixed space hs =>
    refine ⟨?_, ?_⟩
    · intro heq
      exact hxmlns (heq ▸ by simp)
    · intro space' heq
      exact hs.declares_not ((List.append_cons_inj_of_notMem hs.not_colon hn.not_colon).mp heq).1

theorem not_declares (h : Qualified name key) (hn : IsName name) (hx : name ≠ xmlns) :
    ¬ Declares key := by
  obtain ⟨hplain, hprefixed⟩ := h.declares_not hn hx
  intro hd
  cases hd with
  | default => exact hplain rfl
  | prefixed space hs => exact hprefixed space rfl

theorem declaresNamespace (h : Qualified name key) (hn : IsName name) (hx : name ≠ xmlns) :
    declaresNamespace (Utf8.encodeChars key) = false := by
  obtain ⟨hplain, hprefixed⟩ := h.declares_not hn hx
  rw [Markup.declaresNamespace, Bool.or_eq_false_iff]
  refine ⟨?_, ?_⟩
  · rw [beq_eq_false_iff_ne]
    exact fun heq => hplain (Utf8.encodeChars_injective key xmlns heq)
  · rw [Bool.eq_false_iff]
    intro hprefix
    obtain ⟨behind, heq⟩ := List.isPrefixOf_iff_prefix.mp hprefix
    obtain ⟨space, rfl⟩ := Utf8.starts_with_ascii (xmlns ++ [':'])
      (forall_of_all _ (by decide)) key behind heq.symm
    exact hprefixed space (by simp)

end Qualified

theorem Declares.declaresNamespace {key : List Char} (h : Declares key) :
    declaresNamespace (Utf8.encodeChars key) = true := by
  cases h with
  | default => decide
  | prefixed space hs =>
    have hprefix : Text.ascii "xmlns:" <+: Utf8.encodeChars (xmlns ++ ':' :: space) :=
      ⟨Utf8.encodeChars space,
        (Utf8.encodeChars_append (xmlns ++ [':']) space).symm.trans (by simp)⟩
    rw [Markup.declaresNamespace, List.isPrefixOf_iff_prefix.mpr hprefix, Bool.or_true]

/-! ### All attributes of a tag -/

theorem IsQuote.ascii {quote : Char} (h : IsQuote quote) : quote.toNat < 128 := by
  rcases h with rfl | rfl <;> decide

theorem IsQuote.byte {quote : Char} (h : IsQuote quote) :
    Text.byte quote = Text.byte '"' ∨ Text.byte quote = Text.byte '\'' := by
  rcases h with rfl | rfl
  · exact .inl rfl
  · exact .inr rfl

theorem attributesFrom_written (seen : KeyPositions) (gap key equals : List Char) (quote : Char)
    (raw rest : List Char) (hg : Spaces gap) (hne : key ≠ []) (hkey : Unmarked key)
    (he : Equals equals) (hq : IsQuote quote) (hv : quote ∉ raw)
    (hnew : ∀ entry ∈ seen, entry.1 ≠ Utf8.encodeChars key) (offset : Nat) : ∃ start offset',
      attributesFrom offset seen .between
        (Utf8.encodeChars (gap ++ (key ++ (equals ++ quote :: (raw ++ quote :: rest))))) =
      (⟨Utf8.encodeChars key, Utf8.encodeChars raw⟩ :: (attributesFrom offset'
          (seen ++ [(Utf8.encodeChars key, start)]) .between (Utf8.encodeChars rest)).1,
        (attributesFrom offset' (seen ++ [(Utf8.encodeChars key, start)]) .between
          (Utf8.encodeChars rest)).2) := by
  obtain ⟨before, behind, hbefore, hbehind⟩ := he
  obtain ⟨start, offset', hstep⟩ := attributesFrom_attribute seen (Utf8.encodeChars gap)
    (Utf8.encodeChars key) (Utf8.encodeChars before) (Utf8.encodeChars behind)
    (Utf8.encodeChars raw) (Utf8.encodeChars rest) (Text.byte quote) hg.isSpace
    (Utf8.encodeChars_ne_nil key hne)
    (undelimited_encodeChars key hkey) hnew hbefore.isSpace hbehind.isSpace hq.byte
    (not_quote_mem quote hq raw hv) offset
  refine ⟨start, offset', ?_⟩
  rw [← hstep]
  simp only [Utf8.encodeChars_append, Utf8.encodeChars_cons_ascii quote hq.ascii,
    Utf8.encodeChars_cons_ascii '=' (by decide), List.append_assoc, List.cons_append]

/-- A key that is not declared here, and not that of an attribute here under any prefix. -/
structure Unused (attributes : List (String × String)) (declared : List (List Char))
    (key : Bytes) : Prop where
  named : ∀ a ∈ attributes, ∀ own, Qualified a.1.toList own → key ≠ Utf8.encodeChars own
  declared : ∀ own ∈ declared, key ≠ Utf8.encodeChars own

theorem unused_append (attributes : List (String × String)) (declared : List (List Char))
    (seen : KeyPositions) (key : Bytes) (start : Nat)
    (hseen : ∀ entry ∈ seen, Unused attributes declared entry.1)
    (hkey : Unused attributes declared key) :
    ∀ entry ∈ seen ++ [(key, start)], Unused attributes declared entry.1 := by
  intro entry hentry
  rcases List.mem_append.mp hentry with hentry | hentry
  · exact hseen entry hentry
  · rw [List.mem_singleton.mp hentry]
    exact hkey

namespace Unused

variable {attributes : List (String × String)} {declared : List (List Char)} {key : Bytes}

theorem of_named {a : String × String} (h : Unused (a :: attributes) declared key) :
    Unused attributes declared key :=
  ⟨fun a' ha' => h.named a' (List.mem_cons_of_mem a ha'), h.declared⟩

theorem of_declaring {own : List Char} (h : Unused attributes (own :: declared) key) :
    Unused attributes declared key :=
  ⟨h.named, fun own' ho' => h.declared own' (List.mem_cons_of_mem own ho')⟩

/-- The key of an attribute is not needed again, since no other attribute has its name. -/
theorem named_key {name : String} {key : List Char} (hk : Qualified name.toList key)
    (hname : IsName name.toList) (hx : name.toList ≠ xmlns) (hfresh : name ∉ attributes.map (·.1))
    (hn : ∀ a ∈ attributes, IsName a.1.toList) (hd : ∀ own ∈ declared, Declares own) :
    Unused attributes declared (Utf8.encodeChars key) := by
  refine ⟨?_, ?_⟩
  · intro a ha own ho heq
    obtain rfl := Utf8.encodeChars_injective key own heq
    have hsame : name = a.1 := String.toList_injective (hk.eq_of_key ho hname (hn a ha))
    exact hfresh (List.mem_map.mpr ⟨a, ha, hsame.symm⟩)
  · intro own ho heq
    obtain rfl := Utf8.encodeChars_injective key own heq
    exact hk.not_declares hname hx (hd key ho)

theorem declaring_key {key : List Char} (hk : Declares key) (hfresh : key ∉ declared)
    (hn : ∀ a ∈ attributes, IsName a.1.toList ∧ a.1.toList ≠ xmlns) :
    Unused attributes declared (Utf8.encodeChars key) := by
  refine ⟨?_, ?_⟩
  · intro a ha own ho heq
    obtain rfl := Utf8.encodeChars_injective key own heq
    exact ho.not_declares (hn a ha).1 (hn a ha).2 hk
  · intro own ho heq
    obtain rfl := Utf8.encodeChars_injective key own heq
    exact hfresh ho

end Unused

namespace Attributes

variable {attributes : List (String × String)} {declared : List (List Char)} {raw : List Char}

theorem declares (h : Attributes attributes declared raw) (key : List Char) (hk : key ∈ declared) :
    Declares key := by
  induction h with
  | done gap hg => cases hk
  | named _ _ _ _ _ _ _ _ _ _ _ _ _ _ _ _ _ ih => exact ih hk
  | declaring _ _ _ _ _ _ _ _ _ _ hdeclares _ _ _ _ ih =>
    rcases List.mem_cons.mp hk with rfl | hk
    · exact hdeclares
    · exact ih hk

/-- The name of a tag ends where its attributes start. -/
theorem starts (h : Attributes attributes declared raw) :
    raw = [] ∨ ∃ c rest, raw = c :: rest ∧ c ∈ spaces := by
  have hgap : ∀ gap rest : List Char, gap ≠ [] → Spaces gap →
      ∃ c rest', gap ++ rest = c :: rest' ∧ c ∈ spaces := by
    intro gap rest hne hg
    obtain ⟨c, gap', rfl⟩ := List.exists_cons_of_ne_nil hne
    exact ⟨c, gap' ++ rest, rfl, hg c List.mem_cons_self⟩
  cases h with
  | done gap hg =>
    cases raw with
    | nil => exact .inl rfl
    | cons c gap => exact .inr ⟨c, gap, rfl, hg c List.mem_cons_self⟩
  | named gap _ _ _ _ _ _ _ _ _ hne hg => exact .inr (hgap gap _ hne hg)
  | declaring gap _ _ _ _ _ _ _ hne hg => exact .inr (hgap gap _ hne hg)

theorem read (h : Attributes attributes declared raw)
    (hn : ∀ a ∈ attributes, IsName a.1.toList ∧ a.1.toList ≠ xmlns)
    (hd : (attributes.map (·.1)).Nodup) (hk : declared.Nodup) (seen : KeyPositions)
    (hseen : ∀ entry ∈ seen, Unused attributes declared entry.1) (offset : Nat) :
    ∃ written, attributesFrom offset seen .between (Utf8.encodeChars raw) = (written, none) ∧
      attributesOf written none = .ok attributes := by
  induction h generalizing seen offset with
  | done gap hg =>
    refine ⟨[], ?_, rfl⟩
    rw [← List.append_nil (Utf8.encodeChars gap),
      attributesFrom_spaces seen _ (between_skips seen) _ [] hg.isSpace]
    rfl
  | named gap name key equals quote raw value attributes declared rest _ hg hq he hquote hv h ih =>
    obtain ⟨hname, hxmlns⟩ := hn (name, String.ofList value) List.mem_cons_self
    have hrest : ∀ a ∈ attributes, IsName a.1.toList ∧ a.1.toList ≠ xmlns :=
      fun a ha => hn a (List.mem_cons_of_mem _ ha)
    obtain ⟨hfresh, hd⟩ := List.nodup_cons.mp hd
    have hnew : ∀ entry ∈ seen, entry.1 ≠ Utf8.encodeChars key := fun entry hentry =>
      (hseen entry hentry).named _ List.mem_cons_self key hq
    have hkey : Unused attributes declared (Utf8.encodeChars key) :=
      .named_key hq hname hxmlns hfresh (fun a ha => (hrest a ha).1) h.declares
    have hothers : ∀ entry ∈ seen, Unused attributes declared entry.1 :=
      fun entry hentry => (hseen entry hentry).of_named
    obtain ⟨start, offset', hstep⟩ := attributesFrom_written seen gap key equals quote raw rest hg
      (hq.ne_nil hname) (hq.unmarked hname) he hquote (hv.quote_not_mem hquote) hnew offset
    obtain ⟨written, hwritten, hof⟩ := ih hrest hd hk _
      (unused_append attributes declared seen _ start hothers hkey) offset'
    refine ⟨⟨Utf8.encodeChars key, Utf8.encodeChars raw⟩ :: written, ?_, ?_⟩
    · rw [hstep, hwritten]
    · have hlocal := hq.localName hname
      rw [String.ofList_toList] at hlocal
      rw [attributesOf, hq.declaresNamespace hname hxmlns, if_neg (by decide), hv.decodeText, hof,
        hlocal]
      rfl
  | declaring gap key equals quote raw attributes declared rest _ hg hdeclares he hquote hv h ih =>
    obtain ⟨hfresh, hk⟩ := List.nodup_cons.mp hk
    have hnew : ∀ entry ∈ seen, entry.1 ≠ Utf8.encodeChars key := fun entry hentry =>
      (hseen entry hentry).declared key List.mem_cons_self
    have hkey : Unused attributes declared (Utf8.encodeChars key) :=
      .declaring_key hdeclares hfresh hn
    have hothers : ∀ entry ∈ seen, Unused attributes declared entry.1 :=
      fun entry hentry => (hseen entry hentry).of_declaring
    obtain ⟨start, offset', hstep⟩ := attributesFrom_written seen gap key equals quote raw rest hg
      hdeclares.ne_nil hdeclares.unmarked he hquote hv hnew offset
    obtain ⟨written, hwritten, hof⟩ := ih hn hd hk _
      (unused_append attributes declared seen _ start hothers hkey) offset'
    refine ⟨⟨Utf8.encodeChars key, Utf8.encodeChars raw⟩ :: written, ?_, ?_⟩
    · rw [hstep, hwritten]
    · rw [attributesOf, hdeclares.declaresNamespace, if_pos rfl, hof]

end Attributes

namespace Tag

variable {name : String} {attributes : List (String × String)} {key tag : List Char}

theorem qualified (h : Tag name attributes key tag) : Qualified name.toList key := by
  obtain ⟨declared, rest, hk, hd, ha⟩ := h
  exact hk

theorem tagName (h : Tag name attributes key tag) (hn : IsName name.toList) :
    tagName (Utf8.encodeChars tag) = Utf8.encodeChars key := by
  obtain ⟨declared, rest, hk, hd, ha⟩ := h
  have hkey := undelimited_encodeChars key (hk.unmarked hn)
  have hplain : ∀ b ∈ Utf8.encodeChars key, (!isSpace b) = true := by
    intro b hb
    rw [hkey.not_space b hb]
    rfl
  rw [Markup.tagName, Utf8.encodeChars_append, List.takeWhile_append_of_pos hplain]
  rcases ha.starts with rfl | ⟨c, rest', rfl, hc⟩
  · exact List.append_nil _
  · have hascii := delimiters_ascii c (List.mem_append_left _ hc)
    rw [Utf8.encodeChars_cons_ascii c hascii,
      List.takeWhile_cons_of_neg (by simp [isSpace_byte c hc]), List.append_nil]

theorem ofTag (h : Tag name attributes key tag) (hn : IsName name.toList)
    (ha : ∀ a ∈ attributes, IsName a.1.toList ∧ a.1.toList ≠ xmlns)
    (hd : (attributes.map (·.1)).Nodup) :
    Element.ofTag (Utf8.encodeChars tag) = .ok { name := name, attributes := attributes } := by
  have hname := h.tagName hn
  obtain ⟨declared, rest, hk, hdeclared, hattributes⟩ := h
  obtain ⟨written, hwritten, hof⟩ :=
    hattributes.read ha hd hdeclared [] (by simp) (Utf8.encodeChars key).length
  have hdrop : (Utf8.encodeChars (key ++ rest)).drop (Utf8.encodeChars key).length =
      Utf8.encodeChars rest := by
    rw [Utf8.encodeChars_append, List.drop_left]
  have hraw : rawAttributes (Utf8.encodeChars (key ++ rest)) = (written, none) := by
    rw [rawAttributes, hname, hdrop, hwritten]
  have hlocal := hk.localName hn
  rw [String.ofList_toList] at hlocal
  rw [Element.ofTag, hraw, hname, hlocal]
  simp only [hof]
  rfl

end Tag

end Rendering

end OlapClient.Markup
