import OlapClient.Proofs.Text.Numbers
import OlapClient.Response

/-!
# Encoded names

What a name is decoded to: one pass from left to right replaces escapes by their characters and
copies everything else, and it does not look again at what it wrote. An escape has four
hexadecimal digits; the decoder takes a plus sign and three digits for one as well. What it writes
is what the pass over escapes alone writes exactly if that pass never comes to such a sign.
-/

namespace OlapClient.Response

open Markup.Rendering (Numeral)

/-! ### Escapes -/

/-- `_x`, four hexadecimal digits and `_`, and the character of that number. -/
inductive IsEscape : List Char → Char → Prop where
  | mk (digits : List Char) (c : Char) (hlength : digits.length = 4)
      (h : Numeral 16 digits c.toNat) : IsEscape ('_' :: 'x' :: (digits ++ ['_'])) c

/-- The same with a plus sign for the first digit. -/
inductive IsSignedEscape : List Char → Char → Prop where
  | mk (digits : List Char) (c : Char) (hlength : digits.length = 3)
      (h : Numeral 16 digits c.toNat) : IsSignedEscape ('_' :: 'x' :: '+' :: (digits ++ ['_'])) c

/-- What the decoder replaces. -/
def IsReplaced (escape : List Char) (c : Char) : Prop := IsEscape escape c ∨ IsSignedEscape escape c

def StartsWith (escapes : List Char → Char → Prop) (cs : List Char) : Prop :=
  ∃ escape c rest, escapes escape c ∧ cs = escape ++ rest

theorem isEscape_mark : IsEscape "_x005F_".toList '_' := by
  have hread : Text.digitsFrom 16 0xFFFF .tooLarge 0 ['0', '0', '5', 'F'] = .ok '_'.toNat := rfl
  have hd := (Text.digitsFrom_eq_ok_iff _ _ _ _ _ (List.cons_ne_nil _ _)).mp hread
  exact .mk _ '_' rfl hd.1

theorem mark_not_mem {digits : List Char} {n : Nat} (h : Numeral 16 digits n) : '_' ∉ digits :=
  fun hmem => absurd (h.alphanum '_' hmem) (by decide)

/-- Between the marks of an escape stand four characters that are no marks. -/
theorem IsReplaced.shape {escape : List Char} {c : Char} (h : IsReplaced escape c) :
    ∃ inner, escape = '_' :: 'x' :: (inner ++ ['_']) ∧ inner.length = 4 ∧ '_' ∉ inner := by
  rcases h with ⟨digits, _, hlength, hd⟩ | ⟨digits, _, hlength, hd⟩
  · exact ⟨digits, rfl, hlength, mark_not_mem hd⟩
  · refine ⟨'+' :: digits, rfl, by rw [List.length_cons, hlength], fun hmem => ?_⟩
    rcases List.mem_cons.mp hmem with hplus | hmem
    · cases hplus
    · exact mark_not_mem hd hmem

theorem isEscape_replaced {escape : List Char} {c : Char} (h : IsEscape escape c) :
    IsReplaced escape c := .inl h

theorem not_startsWith_of_ne {escapes : List Char → Char → Prop}
    (hreplaced : ∀ {escape c}, escapes escape c → IsReplaced escape c) {c : Char} {rest : List Char}
    (hc : c ≠ '_') : ¬ StartsWith escapes (c :: rest) := by
  rintro ⟨escape, d, behind, h, heq⟩
  obtain ⟨inner, rfl, -, -⟩ := (hreplaced h).shape
  exact hc (List.cons.inj heq).1

/-! ### Reading an escape -/

theorem unsigned_digits (a b c d : Char) (n : Nat) :
    Text.unsigned 16 0xFFFFFFFF [a, b, c, d] = .ok n ↔
      (Numeral 16 [a, b, c, d] n ∨ a = '+' ∧ Numeral 16 [b, c, d] n) ∧ n ≤ 0xFFFFFFFF := by
  have hsign : ∀ n, ¬ Numeral 16 ['+', b, c, d] n := fun n =>
    Text.numeral_head_ne 16 '+' _ n (by decide)
  by_cases ha : a = '+'
  · subst ha
    have hread : Text.unsigned 16 0xFFFFFFFF ['+', b, c, d] =
        Text.digitsFrom 16 0xFFFFFFFF .tooLarge 0 [b, c, d] := rfl
    rw [hread, Text.digitsFrom_eq_ok_iff _ _ _ _ _ (List.cons_ne_nil _ _)]
    simp [hsign]
  · have hread : Text.unsigned 16 0xFFFFFFFF [a, b, c, d] =
        Text.digitsFrom 16 0xFFFFFFFF .tooLarge 0 [a, b, c, d] := by
      unfold Text.unsigned
      split <;> simp_all
    rw [hread, Text.digitsFrom_eq_ok_iff _ _ _ _ _ (List.cons_ne_nil _ _)]
    simp [ha]

theorem escapedChar?_eq_some_iff (a b c d ch : Char) :
    escapedChar? [a, b, c, d] = some ch ↔
      Numeral 16 [a, b, c, d] ch.toNat ∨ a = '+' ∧ Numeral 16 [b, c, d] ch.toNat := by
  have hlimit : ch.toNat ≤ 0xFFFFFFFF := Nat.le_of_lt_succ ch.val.toNat_lt
  have hread := unsigned_digits a b c d ch.toNat
  rw [and_iff_left hlimit] at hread
  rw [← hread, escapedChar?]
  cases hn : Text.unsigned 16 0xFFFFFFFF [a, b, c, d] with
  | error fault => simp
  | ok n =>
    by_cases hvalid : n.isValidChar
    · have hnat : (Char.ofNat n).toNat = n := by
        rw [Char.ofNat, dif_pos hvalid]
        rfl
      simp only [if_pos hvalid, Option.some.injEq, Except.ok.injEq]
      constructor
      · rintro rfl
        exact hnat.symm
      · intro h
        rw [h, Char.ofNat_toNat]
    · have hne : n ≠ ch.toNat := by
        rintro rfl
        exact hvalid ch.valid
      simp [hvalid, hne]

theorem escapeAt?_eq_some_iff (cs : List Char) (c : Char) :
    escapeAt? cs = some c ↔ ∃ escape rest, IsReplaced escape c ∧ cs = escape ++ rest := by
  constructor
  · intro h
    unfold escapeAt? at h
    split at h
    · rename_i d₁ d₂ d₃ d₄ rest
      rcases (escapedChar?_eq_some_iff _ _ _ _ _).mp h with hd | ⟨rfl, hd⟩
      · exact ⟨_, rest, .inl (.mk [d₁, d₂, d₃, d₄] c rfl hd), rfl⟩
      · exact ⟨_, rest, .inr (.mk [d₂, d₃, d₄] c rfl hd), rfl⟩
    · cases h
  · rintro ⟨_, rest, ⟨digits, _, hlength, hd⟩ | ⟨digits, _, hlength, hd⟩, rfl⟩
    · obtain ⟨d₁, d₂, d₃, d₄, rfl⟩ := List.length_eq_four.mp hlength
      exact (escapedChar?_eq_some_iff _ _ _ _ _).mpr (.inl hd)
    · obtain ⟨d₂, d₃, d₄, rfl⟩ := List.length_eq_three.mp hlength
      exact (escapedChar?_eq_some_iff _ _ _ _ _).mpr (.inr ⟨rfl, hd⟩)

theorem escapeAt?_eq_none_iff (cs : List Char) :
    escapeAt? cs = none ↔ ¬ StartsWith IsReplaced cs := by
  have hsome : (∃ c, escapeAt? cs = some c) ↔ StartsWith IsReplaced cs := by
    simp only [escapeAt?_eq_some_iff, StartsWith]
    exact exists_comm
  rw [← hsome, Option.eq_none_iff_forall_ne_some, not_exists]

/-! ### The decoder -/

theorem unescapeFrom_eq_drop (n : Nat) (cs : List Char) :
    unescapeFrom n cs = unescapeFrom 0 (cs.drop n) := by
  induction cs generalizing n with
  | nil => cases n <;> rfl
  | cons c cs ih =>
    cases n with
    | zero => rfl
    | succ n => rw [unescapeFrom, ih, List.drop_succ_cons]

theorem unescapeFrom_escape {escape : List Char} {c : Char} (h : IsReplaced escape c)
    (rest : List Char) : unescapeFrom 0 (escape ++ rest) = c :: unescapeFrom 0 rest := by
  have hat : escapeAt? (escape ++ rest) = some c :=
    (escapeAt?_eq_some_iff _ _).mpr ⟨escape, rest, h, rfl⟩
  obtain ⟨inner, rfl, hlength, -⟩ := h.shape
  have hdrop : ('x' :: (inner ++ ['_']) ++ rest).drop 6 = rest := by
    apply List.drop_left'
    simp [hlength]
  rw [List.cons_append] at hat ⊢
  rw [unescapeFrom]
  simp only [hat]
  rw [unescapeFrom_eq_drop, hdrop]

theorem unescapeFrom_copied {c : Char} {rest : List Char}
    (h : ¬ StartsWith IsReplaced (c :: rest)) :
    unescapeFrom 0 (c :: rest) = c :: unescapeFrom 0 rest := by
  rw [unescapeFrom]
  simp only [(escapeAt?_eq_none_iff _).mpr h]

theorem unescapeFrom_unmarked (cs rest : List Char) (h : '_' ∉ cs) :
    unescapeFrom 0 (cs ++ rest) = cs ++ unescapeFrom 0 rest := by
  induction cs with
  | nil => rfl
  | cons c cs ih =>
    have hc : c ≠ '_' := fun heq => h (heq ▸ List.mem_cons_self)
    have hcs : '_' ∉ cs := fun hmem => h (List.mem_cons_of_mem c hmem)
    rw [List.cons_append, unescapeFrom_copied (not_startsWith_of_ne id hc), ih hcs,
      List.cons_append]

/-! ### Passes -/

/-- A pass from left to right over a text: what it wrote, and where it has come to. -/
inductive Passes (escapes : List Char → Char → Prop) :
    List Char → List Char → List Char → Prop where
  | start (cs : List Char) : Passes escapes cs [] cs
  | replace (escape rest written behind : List Char) (c : Char) (h : escapes escape c)
      (hrest : Passes escapes rest written behind) :
      Passes escapes (escape ++ rest) (c :: written) behind
  | copy (c : Char) (rest written behind : List Char) (h : ¬ StartsWith escapes (c :: rest))
      (hrest : Passes escapes rest written behind) :
      Passes escapes (c :: rest) (c :: written) behind

/-- What the decoder does is a pass. -/
theorem Passes.unescapeFrom {cs written behind : List Char}
    (h : Passes IsReplaced cs written behind) :
    unescapeFrom 0 cs = written ++ unescapeFrom 0 behind := by
  induction h with
  | start cs => rfl
  | replace escape rest written behind c hescape _ ih =>
    rw [unescapeFrom_escape hescape, ih, List.cons_append]
  | copy c rest written behind hno _ ih => rw [unescapeFrom_copied hno, ih, List.cons_append]

section

variable {escapes : List Char → Char → Prop}
  (hreplaced : ∀ {escape c}, escapes escape c → IsReplaced escape c)

include hreplaced

theorem length_lt_of_escape {escape rest : List Char} {c : Char} (h : escapes escape c) :
    rest.length < (escape ++ rest).length := by
  obtain ⟨inner, rfl, -, -⟩ := (hreplaced h).shape
  simp only [List.cons_append, List.length_cons, List.length_append]
  omega

/-- A pass that leaves out nothing of what the decoder replaces writes what the decoder writes. -/
theorem passes_unescapeFrom (cs : List Char) (hall : ∀ written rest,
      Passes escapes cs written rest → StartsWith IsReplaced rest → StartsWith escapes rest) :
    Passes escapes cs (unescapeFrom 0 cs) [] := by
  -- an escape is passed in one step, so that the induction is on the length of the text
  induction hn : cs.length using Nat.strong_induction_on generalizing cs with
  | _ n ih =>
    subst hn
    by_cases hstart : StartsWith escapes cs
    · obtain ⟨escape, c, rest, hescape, rfl⟩ := hstart
      rw [unescapeFrom_escape (hreplaced hescape)]
      have hlt : rest.length < (escape ++ rest).length := length_lt_of_escape hreplaced hescape
      refine .replace escape rest _ [] c hescape (ih _ hlt rest (fun written behind h => ?_) rfl)
      exact hall _ behind (.replace escape rest written behind c hescape h)
    · cases cs with
      | nil => exact .start []
      | cons c rest =>
        have hno : ¬ StartsWith IsReplaced (c :: rest) := fun h => hstart (hall _ _ (.start _) h)
        rw [unescapeFrom_copied hno]
        refine .copy c rest _ [] hstart
          (ih _ (Nat.lt_succ_self _) rest (fun written behind h => ?_) rfl)
        exact hall _ behind (.copy c rest written behind hstart h)

theorem Passes.of_escape {escape rest written : List Char} {c : Char} (h : escapes escape c)
    (hpass : Passes escapes (escape ++ rest) written []) :
    ∃ written', written = c :: written' ∧ Passes escapes rest written' [] := by
  generalize hcs : escape ++ rest = cs at hpass
  cases hpass with
  | start =>
    have hlt : rest.length < (escape ++ rest).length := length_lt_of_escape hreplaced h
    rw [hcs] at hlt
    exact absurd hlt (Nat.not_lt_zero _)
  | replace escape' rest' written' _ c' h' hrest =>
    have hsame : c = c' := by
      have hat := (escapeAt?_eq_some_iff _ _).mpr ⟨escape, rest, hreplaced h, rfl⟩
      have hat' := (escapeAt?_eq_some_iff _ _).mpr ⟨escape', rest', hreplaced h', hcs⟩
      exact Option.some.inj (hat.symm.trans hat')
    have hlength : escape.length = escape'.length := by
      obtain ⟨inner, rfl, hinner, -⟩ := (hreplaced h).shape
      obtain ⟨inner', rfl, hinner', -⟩ := (hreplaced h').shape
      simp [hinner, hinner']
    obtain ⟨-, rfl⟩ := List.append_inj hcs hlength
    exact ⟨written', by rw [hsame], hrest⟩
  | copy c' rest' written' _ hno hrest => exact absurd ⟨escape, c, rest, h, hcs.symm⟩ hno

omit hreplaced in
theorem Passes.of_copied {c : Char} {rest written : List Char}
    (h : ¬ StartsWith escapes (c :: rest)) (hpass : Passes escapes (c :: rest) written []) :
    ∃ written', written = c :: written' ∧ Passes escapes rest written' [] := by
  generalize hcs : c :: rest = cs at hpass
  cases hpass with
  | start => cases hcs
  | replace escape rest' written' _ c' h' hrest => exact absurd ⟨escape, c', rest', h', hcs⟩ h
  | copy c' rest' written' _ hno hrest =>
    cases hcs
    exact ⟨written', rfl, hrest⟩

theorem Passes.of_unmarked {cs rest written : List Char} (h : '_' ∉ cs)
    (hpass : Passes escapes (cs ++ rest) written []) :
    ∃ written', written = cs ++ written' ∧ Passes escapes rest written' [] := by
  induction cs generalizing written with
  | nil => exact ⟨written, rfl, hpass⟩
  | cons c cs ih =>
    have hc : c ≠ '_' := fun heq => h (heq ▸ List.mem_cons_self)
    obtain ⟨behind, rfl, hbehind⟩ := hpass.of_copied (not_startsWith_of_ne hreplaced hc)
    obtain ⟨written', rfl, hrest⟩ := ih (fun hmem => h (List.mem_cons_of_mem c hmem)) hbehind
    exact ⟨written', rfl, hrest⟩

end

/-! ### Signs -/

theorem not_startsWith_signed {digits rest : List Char} :
    ¬ StartsWith IsEscape ('_' :: 'x' :: '+' :: (digits ++ rest)) := by
  rintro ⟨_, c, behind, ⟨inner, _, hlength, h⟩, heq⟩
  obtain ⟨d₁, d₂, d₃, d₄, rfl⟩ := List.length_eq_four.mp hlength
  have hd : '+' = d₁ := by
    simp only [List.cons_append, List.cons.injEq] at heq
    exact heq.2.2.1
  subst hd
  exact Text.numeral_head_ne 16 '+' _ _ (by decide) h

/-- A pass over escapes alone copies a signed one up to its last character, which may start an
escape. -/
theorem Passes.of_signed {digits rest written : List Char} {n : Nat}
    (hd : Numeral 16 digits n)
    (hpass : Passes IsEscape ('_' :: 'x' :: '+' :: (digits ++ '_' :: rest)) written []) :
    ∃ written', written = '_' :: 'x' :: '+' :: (digits ++ written') ∧
      Passes IsEscape ('_' :: rest) written' [] := by
  obtain ⟨behind, rfl, hbehind⟩ := hpass.of_copied not_startsWith_signed
  have hunmarked : '_' ∉ 'x' :: '+' :: digits := by
    simp [mark_not_mem hd]
  obtain ⟨written', rfl, hrest⟩ := Passes.of_unmarked isEscape_replaced hunmarked hbehind
  exact ⟨written', rfl, hrest⟩

/-- How much the decoder writes beside a pass over escapes alone: no more if both are at the same
place, and a bounded number of characters more if one of them is a mark behind the other. -/
structure NeverLonger (cs : List Char) : Prop where
  level : ∀ written, Passes IsEscape cs written [] →
    (unescapeFrom 0 cs).length ≤ written.length
  behind : ∀ written, Passes IsEscape ('_' :: cs) written [] →
    (unescapeFrom 0 cs).length ≤ written.length + 5
  ahead : ∀ written, Passes IsEscape cs written [] →
    (unescapeFrom 0 ('_' :: cs)).length ≤ written.length + 1

theorem level_of_shorter (cs : List Char)
    (ih : ∀ rest : List Char, rest.length < cs.length → NeverLonger rest) (written : List Char)
    (hpass : Passes IsEscape cs written []) : (unescapeFrom 0 cs).length ≤ written.length := by
  by_cases hplain : StartsWith IsEscape cs
  · obtain ⟨escape, c, rest, h, rfl⟩ := hplain
    obtain ⟨written', rfl, hrest⟩ := Passes.of_escape isEscape_replaced h hpass
    have hle := (ih rest (length_lt_of_escape isEscape_replaced h)).level written' hrest
    rw [unescapeFrom_escape (isEscape_replaced h), List.length_cons, List.length_cons]
    omega
  by_cases hsigned : StartsWith IsSignedEscape cs
  · obtain ⟨_, c, rest, ⟨digits, _, hlength, hd⟩, rfl⟩ := hsigned
    rw [unescapeFrom_escape (.inr (.mk digits c hlength hd))]
    simp only [List.cons_append, List.append_assoc, List.nil_append] at hpass ih
    obtain ⟨written', rfl, hrest⟩ := hpass.of_signed hd
    have hle := (ih rest (by simp only [List.length_cons, List.length_append]; omega)).behind
      written' hrest
    simp only [List.length_cons, List.length_append, hlength]
    omega
  · cases cs with
    | nil => exact Nat.zero_le _
    | cons c rest =>
      have hno : ¬ StartsWith IsReplaced (c :: rest) := by
        rintro ⟨escape, d, behind, h | h, heq⟩
        · exact hplain ⟨escape, d, behind, h, heq⟩
        · exact hsigned ⟨escape, d, behind, h, heq⟩
      obtain ⟨written', rfl, hrest⟩ := hpass.of_copied hplain
      have hle := (ih rest (Nat.lt_succ_self _)).level written' hrest
      rw [unescapeFrom_copied hno, List.length_cons, List.length_cons]
      omega

theorem neverLonger (cs : List Char) : NeverLonger cs := by
  induction hn : cs.length using Nat.strong_induction_on generalizing cs with
  | _ n ih =>
    subst hn
    have hshorter : ∀ rest : List Char, rest.length < cs.length → NeverLonger rest :=
      fun rest hlt => ih _ hlt rest rfl
    have hlevel := level_of_shorter cs hshorter
    refine ⟨hlevel, fun written hpass => ?_, fun written hpass => ?_⟩
    · by_cases hplain : StartsWith IsEscape ('_' :: cs)
      · obtain ⟨_, c, rest, h, heq⟩ := hplain
        rw [heq] at hpass
        obtain ⟨written', rfl, hrest⟩ := Passes.of_escape isEscape_replaced h hpass
        obtain ⟨inner, rfl, hlength, hinner⟩ := (isEscape_replaced h).shape
        obtain rfl : cs = 'x' :: inner ++ '_' :: rest := by simpa using (List.cons.inj heq).2
        have hle := (hshorter rest (by simp; omega)).ahead written' hrest
        have hunmarked : '_' ∉ 'x' :: inner := by simp [hinner]
        rw [unescapeFrom_unmarked _ _ hunmarked]
        simp only [List.length_append, List.length_cons, hlength]
        omega
      · obtain ⟨written', rfl, hrest⟩ := hpass.of_copied hplain
        have hle := hlevel written' hrest
        rw [List.length_cons]
        omega
    · by_cases hreplaced : StartsWith IsReplaced ('_' :: cs)
      · obtain ⟨_, c, rest, h, heq⟩ := hreplaced
        rw [heq, unescapeFrom_escape h]
        obtain ⟨inner, rfl, hlength, hinner⟩ := h.shape
        obtain rfl : cs = 'x' :: inner ++ '_' :: rest := by simpa using (List.cons.inj heq).2
        have hunmarked : '_' ∉ 'x' :: inner := by simp [hinner]
        obtain ⟨written', rfl, hrest⟩ := Passes.of_unmarked isEscape_replaced hunmarked hpass
        have hle := (hshorter rest (by simp; omega)).behind written' hrest
        simp only [List.length_append, List.length_cons, hlength]
        omega
      · have hle := hlevel written hpass
        rw [unescapeFrom_copied hreplaced, List.length_cons]
        omega

/-- Where a signed escape stands, the decoder and a pass over escapes alone part for good. -/
theorem unescapeFrom_ne_of_signed {cs written : List Char} (h : StartsWith IsSignedEscape cs)
    (hpass : Passes IsEscape cs written []) : unescapeFrom 0 cs ≠ written := by
  obtain ⟨_, c, rest, ⟨digits, _, hlength, hd⟩, rfl⟩ := h
  rw [unescapeFrom_escape (.inr (.mk digits c hlength hd))]
  simp only [List.cons_append, List.append_assoc, List.nil_append] at hpass
  obtain ⟨written', rfl, hrest⟩ := hpass.of_signed hd
  intro heq
  have hbehind : unescapeFrom 0 rest = 'x' :: '+' :: (digits ++ written') := (List.cons.inj heq).2
  by_cases hplain : StartsWith IsEscape ('_' :: rest)
  · -- the decoder would have copied a digit where the sign stands
    obtain ⟨_, d, behind, hescape, hsplit⟩ := hplain
    obtain ⟨inner, _, hlength', hinner⟩ := hescape
    obtain ⟨d₁, d₂, d₃, d₄, rfl⟩ := List.length_eq_four.mp hlength'
    have hunmarked : '_' ∉ ['x', d₁, d₂, d₃, d₄] := by simpa using mark_not_mem hinner
    have hrest' : rest = ['x', d₁, d₂, d₃, d₄] ++ '_' :: behind := (List.cons.inj hsplit).2
    rw [hrest', unescapeFrom_unmarked _ _ hunmarked] at hbehind
    obtain rfl : d₁ = '+' := (List.cons.inj (List.cons.inj hbehind).2).1
    exact Text.numeral_head_ne 16 '+' _ _ (by decide) hinner
  · obtain ⟨written'', rfl, hcopied⟩ := hrest.of_copied hplain
    have hle := (neverLonger rest).level written'' hcopied
    rw [hbehind] at hle
    simp only [List.length_cons, List.length_append, hlength] at hle
    omega

theorem not_signed_of_passes {cs written rest : List Char} (h : Passes IsEscape cs written rest)
    (hpass : Passes IsEscape cs (unescapeFrom 0 cs) []) : ¬ StartsWith IsSignedEscape rest := by
  induction h with
  | start cs => exact fun hsigned => unescapeFrom_ne_of_signed hsigned hpass rfl
  | replace escape rest written behind c hescape _ ih =>
    obtain ⟨written', hwritten, hrest⟩ := Passes.of_escape isEscape_replaced hescape hpass
    rw [unescapeFrom_escape (isEscape_replaced hescape)] at hwritten
    exact ih ((List.cons.inj hwritten).2 ▸ hrest)
  | copy c rest written behind hno _ ih =>
    have hneither : ¬ StartsWith IsReplaced (c :: rest) := by
      rintro ⟨escape, d, behind, hescape | hescape, heq⟩
      · exact hno ⟨escape, d, behind, hescape, heq⟩
      · exact unescapeFrom_ne_of_signed ⟨escape, d, behind, hescape, heq⟩ hpass rfl
    obtain ⟨written', hwritten, hrest⟩ := hpass.of_copied hno
    rw [unescapeFrom_copied hneither] at hwritten
    exact ih ((List.cons.inj hwritten).2 ▸ hrest)

theorem Passes.suffix {escapes : List Char → Char → Prop} {cs written rest : List Char}
    (h : Passes escapes cs written rest) : rest <:+ cs := by
  induction h with
  | start cs => exact List.suffix_rfl
  | replace escape rest written behind c _ _ ih => exact ih.trans (List.suffix_append _ _)
  | copy c rest written behind _ _ ih => exact ih.trans (List.suffix_cons _ _)

theorem unescapeFrom_eq_self (cs : List Char)
    (h : ∀ escape c, IsReplaced escape c → ¬ escape <:+: cs) : unescapeFrom 0 cs = cs := by
  induction cs with
  | nil => rfl
  | cons c cs ih =>
    have hno : ¬ StartsWith IsReplaced (c :: cs) := by
      rintro ⟨escape, d, rest, hescape, heq⟩
      exact h escape d hescape (heq ▸ (List.prefix_append _ _).isInfix)
    rw [unescapeFrom_copied hno, ih fun escape d hescape hin => h escape d hescape
      (hin.trans (List.suffix_cons _ _).isInfix)]

/-- A name is decoded by one pass over what is replaced. It comes out as from a pass over escapes
alone exactly if that pass never comes to a sign in an escape. Without anything to replace it stays
as it is, and an encoded mark protects what follows it up to the next mark. -/
theorem decodes_escapes_iff (name : String) :
    (∀ written, Passes IsReplaced name.toList written [] ↔
      written = (decodeName name).toList) ∧
    (Passes IsEscape name.toList (decodeName name).toList [] ↔
      ∀ written rest, Passes IsEscape name.toList written rest →
        ¬ StartsWith IsSignedEscape rest) ∧
    ((∀ escape c, IsReplaced escape c → ¬ escape <:+: name.toList) → decodeName name = name) ∧
    ∀ written inner rest, '_' ∉ inner →
      Passes IsReplaced name.toList written ("_x005F_x".toList ++ inner ++ '_' :: rest) →
      (decodeName name).toList = written ++ "_x".toList ++ inner ++
        (decodeName (String.ofList ('_' :: rest))).toList := by
  simp only [decodeName, String.toList_ofList]
  refine ⟨fun written => ⟨fun h => ?_, ?_⟩, ⟨fun h written rest hpass => ?_, fun hno => ?_⟩,
    fun hno => ?_, fun written inner rest hinner hpass => ?_⟩
  · rw [h.unescapeFrom, unescapeFrom, List.append_nil]
  · rintro rfl
    exact passes_unescapeFrom id _ fun _ _ _ h => h
  · exact not_signed_of_passes hpass h
  · refine passes_unescapeFrom isEscape_replaced _ fun written rest hpass hstart => ?_
    obtain ⟨escape, c, behind, h | h, heq⟩ := hstart
    · exact ⟨escape, c, behind, h, heq⟩
    · exact absurd ⟨escape, c, behind, h, heq⟩ (hno written rest hpass)
  · rw [unescapeFrom_eq_self _ hno, String.ofList_toList]
  · have htail : "_x005F_x".toList ++ inner ++ '_' :: rest =
        "_x005F_".toList ++ ('x' :: inner ++ '_' :: rest) := rfl
    have hunmarked : '_' ∉ 'x' :: inner := by simp [hinner]
    rw [hpass.unescapeFrom, htail, unescapeFrom_escape (isEscape_replaced isEscape_mark),
      unescapeFrom_unmarked _ _ hunmarked, List.append_assoc, List.append_assoc]
    rfl

theorem protected_mark : decodeName "_x_x005F_x0041_" = "_x_x0041_" ∧
    Passes IsEscape "_x_x005F_x0041_".toList (decodeName "_x_x005F_x0041_").toList [] := by
  obtain ⟨-, hplain, -, hprotected⟩ := decodes_escapes_iff "_x_x005F_x0041_"
  have hfirst : ¬ StartsWith IsReplaced "_x_x005F_x0041_".toList :=
    (escapeAt?_eq_none_iff _).mp rfl
  have hsecond : ¬ StartsWith IsReplaced "x_x005F_x0041_".toList :=
    (escapeAt?_eq_none_iff _).mp rfl
  refine ⟨String.toList_inj.mp ?_, hplain.mpr fun written rest hpass hsigned => ?_⟩
  · exact hprotected ['_', 'x'] "0041".toList [] (by decide)
      (.copy '_' _ _ _ hfirst (.copy 'x' _ _ _ hsecond (.start _)))
  · obtain ⟨_, c, behind, ⟨digits, _, _, _⟩, rfl⟩ := hsigned
    have hplus : '+' ∈ "_x_x005F_x0041_".toList := hpass.suffix.mem (by simp)
    exact absurd hplus (by decide)

/-- A name without an escape in it is decoded to a letter. -/
theorem plus_taken_for_digit : decodeName "_x+041_" = "A" ∧
    ¬ Passes IsEscape "_x+041_".toList (decodeName "_x+041_").toList [] := by
  have hread : Text.digitsFrom 16 0xFFFF .tooLarge 0 ['0', '4', '1'] = .ok 'A'.toNat := rfl
  have hd := (Text.digitsFrom_eq_ok_iff _ _ _ _ _ (List.cons_ne_nil _ _)).mp hread
  have hsigned : StartsWith IsSignedEscape "_x+041_".toList :=
    ⟨_, 'A', [], .mk ['0', '4', '1'] 'A' rfl hd.1, rfl⟩
  exact ⟨rfl, fun hpass => unescapeFrom_ne_of_signed hsigned hpass String.toList_ofList.symm⟩

end OlapClient.Response
