import OlapClient.Proofs.Identifier.Unfinished

/-!
# What stands before a scan

`Reached` says of each stage of a scan how the text before it is spelled. A step keeps that, one
case for each stage (`Reached.step`). So the place at which a scan remembers to have seen a bracket,
a parenthesis or a brace is one at which it stands unclosed (`Reached.finish`).
-/

namespace OlapClient

open Spelling

namespace Scan

/-! ### Stages -/

/-- How the text before a scan is spelled, stage by stage. -/
inductive Reached (shape : Shape) : Scan → List Char → Prop where
  | listStart (gap : List Char) (hl : shape.isList = true) (hg : Blanks gap) :
      Reached shape ⟨shape, none, none, .listStart⟩ gap
  | braceOpened (gap inside : List Char) (hl : shape.isList = true) (hg : Blanks gap)
      (hi : Blanks inside) :
      Reached shape ⟨shape, some gap.length, none, .braceOpened⟩ (gap ++ '{' :: inside)
  | afterComma (brace : Option Nat) (text : List Char) (h : BeforeElement shape brace text) :
      Reached shape ⟨shape, brace, none, .afterComma⟩ text
  | tupleStart (gap : List Char) (hs : shape.ofTuples = true) (hg : Blanks gap) :
      Reached shape ⟨shape, none, none, .tupleStart⟩ gap
  | beforePart (brace paren : Option Nat) (link : Link) (lead : Lead) (key : List Name)
      (text : List Char) (h : BeforeName shape brace paren link text)
      (hl : lead = .name → link = .name) :
      Reached shape ⟨shape, brace, paren, .beforePart lead key⟩ text
  | inBrackets (brace paren : Option Nat) (link : Link) (lead : Lead) (key : List Name)
      (before body : List Char) (h : BeforeName shape brace paren link before) :
      Reached shape ⟨shape, brace, paren, .inBrackets before.length lead key body⟩
        (before ++ '[' :: Name.escape body.reverse)
  | closingBracket (brace paren : Option Nat) (link : Link) (lead : Lead) (key : List Name)
      (before body : List Char) (h : BeforeName shape brace paren link before) :
      Reached shape ⟨shape, brace, paren, .closingBracket before.length lead key body⟩
        (before ++ Name.bracket body.reverse)
  | inBare (brace paren : Option Nat) (link : Link) (lead : Lead) (key : List Name)
      (before body : List Char) (c : Char) (cs : List Char)
      (h : BeforeName shape brace paren link before)
      (hc : Text.isBlank c = false) (ho : c ∉ openers) (hr : ∀ c' ∈ c :: cs, c' ∉ reserved) :
      Reached shape ⟨shape, brace, paren, .inBare lead key body⟩ (before ++ c :: cs)
  | afterPart (brace paren : Option Nat) (lead : Lead) (key : List Name) (text : List Char)
      (h : BehindPart shape brace paren text) :
      Reached shape ⟨shape, brace, paren, .afterPart lead key⟩ text
  | afterElement (brace : Option Nat) (text : List Char) (h : BehindElement shape brace text) :
      Reached shape ⟨shape, brace, none, .afterElement⟩ text
  | ended (brace : Option Nat) (text : List Char) (h : brace.isSome = true → shape.isList = true) :
      Reached shape ⟨shape, brace, none, .ended⟩ text

/-! ### Steps -/

section Steps

variable {shape : Shape} {brace paren : Option Nat} {stage : ScanStage} {next : Scan}
variable {position : Nat} {text : List Char} {lead : Lead} {key : List Name} {c : Char}

theorem blanks_singleton (h : Text.isBlank c = true) : Blanks [c] := by
  intro c' hc'
  cases List.mem_singleton.mp hc'
  exact h

theorem partStart_reached {link : Link} (hb : BeforeName shape brace paren link text)
    (hl : lead = .name → link = .name)
    (h : (partStart ⟨shape, brace, paren, stage⟩ text.length lead key c).2 = .ok next) :
    Reached shape next (text ++ [c]) := by
  unfold partStart at h
  split_ifs at h with hblank hbracket hmark hname hno
  · cases h
    exact .beforePart _ _ _ _ _ _ (hb.before_blanks (blanks_singleton hblank)) hl
  · cases h
    subst hbracket
    exact .inBrackets _ _ _ _ _ text [] hb
  · cases h
    subst hmark
    rw [hl hname] at hb
    exact .beforePart _ _ _ _ _ _ hb.mark (fun hn => by cases hn)
  · cases h
  · cases h
  · cases h
    rw [startsNoSegment_iff] at hno
    simp only [not_or] at hno
    obtain ⟨hr, hparen, hbrace, hclose⟩ := hno
    have ho : c ∉ openers := by simp [openers, hbracket, hparen, hbrace, hclose]
    exact .inBare _ _ _ _ _ text _ c [] hb (by simpa using hblank) ho (by simpa using hr)

theorem elementStart_reached (hb : BeforeElement shape brace text)
    (h : (elementStart ⟨shape, brace, none, stage⟩ text.length c).2 = .ok next) :
    Reached shape next (text ++ [c]) := by
  unfold elementStart at h
  split_ifs at h with htuples hparen
  · cases h
    subst hparen
    exact .beforePart _ _ _ _ _ _ (hb.openTuple htuples) (fun _ => rfl)
  · cases h
  · exact partStart_reached (hb.name (by simpa using htuples)) (fun _ => rfl) h

/-- Behind an element, and where no other one may stand, behind all of them. -/
theorem separator_reached (hb : BehindElement shape brace text)
    (h : (separator ⟨shape, brace, none, .afterElement⟩ position c).2 = .ok next) :
    Reached shape next (text ++ [c]) := by
  unfold separator at h
  split_ifs at h with hblank hlist hcomma hclose hbrace
  · cases h
    exact .afterElement _ _ (hb.before_blanks (blanks_singleton hblank))
  · cases h
    subst hcomma
    exact .afterComma _ _ hb.comma
  · cases h
    obtain ⟨opening, texts, text, hl, -⟩ := hb
    exact .ended _ _ (fun _ => hl)
  · cases h
  · cases h
  · cases h

theorem afterMember_reached (hb : BehindPart shape brace paren text)
    (hc : Text.isBlank c = false)
    (h : (afterMember ⟨shape, brace, paren, stage⟩ position c).2 = .ok next) :
    Reached shape next (text ++ [c]) := by
  unfold afterMember at h
  split_ifs at h with hparen hcomma hclose
  · cases h
    subst hcomma
    exact .beforePart _ _ _ _ _ _ (hb.comma hparen) (fun _ => rfl)
  · cases h
    subst hclose
    cases hl : shape.isList with
    | true =>
      simp only [elementDone, hl, if_true]
      exact .afterElement _ _ (hb.close hparen hl)
    | false =>
      simp only [elementDone, hl]
      exact .ended _ _ hb.brace_isList
  · cases h
  · cases paren with
    | some opened => exact absurd rfl hparen
    | none =>
      cases hl : shape.isList with
      | true =>
        simp only [elementDone, hl, if_true] at h
        exact separator_reached (hb.element hl) h
      | false =>
        -- Where there is no list, nothing but blanks is read on.
        simp only [elementDone, separator, hl, hc] at h
        cases h

theorem partEnd_reached (hb : BehindPart shape brace paren text)
    (h : (partEnd ⟨shape, brace, paren, stage⟩ position lead key c).2 = .ok next) :
    Reached shape next (text ++ [c]) := by
  have hkey := Separator.mark [] [] blanks_nil blanks_nil
  unfold partEnd at h
  split_ifs at h with hblank hpoint hmark hname
  · cases h
    exact .afterPart _ _ _ _ _ (hb.before_blanks (blanks_singleton hblank))
  · cases h
    subst hpoint
    have hs := Separator.point [] [] .name blanks_nil (.name [] blanks_nil)
    exact .beforePart _ _ _ _ _ _ (hb.separator hs) (fun _ => rfl)
  · cases h
    subst hmark
    exact .beforePart _ _ _ _ _ _ (hb.separator hkey) (fun hn => by cases hn)
  · cases h
    subst hmark
    exact .beforePart _ _ _ _ _ _ (hb.separator hkey) (fun hn => by cases hn)
  · exact afterMember_reached hb (by simpa using hblank) h

end Steps

theorem escape_concat (body : List Char) (c : Char) :
    Name.escape (body ++ [c]) = Name.escape body ++ Name.escape [c] := by
  induction body with
  | nil => rfl
  | cons c' body ih => by_cases hc : c' = ']' <;> simp [Name.escape, hc, ih]

/-- One more character is one more character of the text that is spelled. -/
theorem Reached.step {shape : Shape} {s next : Scan} {text : List Char} (hr : Reached shape s text)
    (c : Char) (h : (s.step text.length c).2 = .ok next) : Reached shape next (text ++ [c]) := by
  cases hr with
  | listStart gap hl hg =>
    simp only [Scan.step] at h
    split_ifs at h with hblank hopen
    · cases h
      exact .listStart _ hl (blanks_append text [c] hg (blanks_singleton hblank))
    · cases h
      subst hopen
      exact .braceOpened text [] hl hg blanks_nil
    · exact elementStart_reached (.start hg) h
  | braceOpened gap inside hl hg hi =>
    simp only [Scan.step] at h
    split_ifs at h with hblank hclose
    · cases h
      have hb := Reached.braceOpened gap (inside ++ [c]) hl hg
        (blanks_append inside [c] hi (blanks_singleton hblank))
      simpa using hb
    · cases h
      exact .ended _ _ (fun _ => hl)
    · have hb : BeforeElement shape (some gap.length) (gap ++ ['{'] ++ followed [] ++ inside) :=
        .mk (gap ++ ['{']) [] inside (.brace gap hl hg) (by simp) (by simp) hi
      exact elementStart_reached (by simpa [followed] using hb) h
  | afterComma brace _ hb =>
    simp only [Scan.step] at h
    split_ifs at h with hblank hclose
    · cases h
      exact .afterComma _ _ (hb.before_blanks (blanks_singleton hblank))
    · cases h
    · exact elementStart_reached hb h
  | tupleStart gap hs hg =>
    simp only [Scan.step] at h
    split_ifs at h with hblank
    · cases h
      exact .tupleStart _ hs (blanks_append text [c] hg (blanks_singleton hblank))
    · exact elementStart_reached (.start hg) h
  | beforePart brace paren link lead key _ hb hl => exact partStart_reached hb hl h
  | inBrackets brace paren link lead key before body hb =>
    simp only [Scan.step] at h
    split_ifs at h with hclose
    · cases h
      subst hclose
      have hn := Reached.closingBracket brace paren link lead key before body hb
      simpa [Name.bracket, goTo] using hn
    · cases h
      have hn := Reached.inBrackets brace paren link lead key before (c :: body) hb
      have he : Name.escape [c] = [c] := by simp [Name.escape, hclose]
      simpa [escape_concat, he, goTo] using hn
  | closingBracket brace paren link lead key before body hb =>
    simp only [Scan.step] at h
    split_ifs at h with hclose
    · cases h
      subst hclose
      have hn := Reached.inBrackets brace paren link lead key before (']' :: body) hb
      have he : Name.escape [']'] = [']', ']'] := rfl
      simpa [Name.bracket, escape_concat, he, goTo] using hn
    · exact partEnd_reached (hb.bracketed body.reverse) h
  | inBare brace paren link lead key before body c' cs hb hc ho hr =>
    simp only [Scan.step] at h
    split_ifs at h with hends
    · exact partEnd_reached (hb.bare hc ho hr) h
    · cases h
      rw [endsBareName_iff] at hends
      have hn := Reached.inBare brace paren link lead key before (c :: body) c' (cs ++ [c]) hb hc ho
        (forall_mem_concat hr hends)
      simpa [goTo] using hn
  | afterPart brace paren lead key _ hb => exact partEnd_reached hb h
  | afterElement brace _ hb => exact separator_reached hb h
  | ended brace _ hb =>
    cases hblank : Text.isBlank c with
    | true =>
      simp only [Scan.step, separator, hblank, if_true] at h
      cases h
      exact .ended _ _ hb
    | false =>
      simp [Scan.step, separator, hblank, Reading.refuse] at h

theorem reached_start (shape : Shape) : Reached shape (start shape) [] := by
  have hb : BeforeElement shape none [] := .start blanks_nil
  cases shape with
  | identifier => exact .beforePart none none .name .name [] [] (hb.name rfl) (fun _ => rfl)
  | memberList => exact .listStart [] rfl blanks_nil
  | tuple => exact .tupleStart [] rfl blanks_nil
  | tupleList => exact .listStart [] rfl blanks_nil

theorem Reached.brace_isList {shape : Shape} {s : Scan} {text : List Char}
    (hr : Reached shape s text) (hb : s.brace.isSome = true) : s.shape.isList = true := by
  cases hr with
  | listStart | tupleStart => cases hb
  | braceOpened gap inside hl => exact hl
  | afterComma brace _ h => exact h.brace_isList hb
  | beforePart brace paren link lead key _ h => exact h.brace_isList hb
  | inBrackets brace paren link lead key before body h => exact h.brace_isList hb
  | closingBracket brace paren link lead key before body h => exact h.brace_isList hb
  | inBare brace paren link lead key before body c cs h => exact h.brace_isList hb
  | afterPart brace paren lead key _ h => exact h.brace_isList hb
  | afterElement brace _ h => exact h.brace_isList
  | ended brace _ h => exact h hb

/-! ### The end of a text -/

theorem endOfMember_reached {shape : Shape} {brace paren : Option Nat} {text : List Char}
    {stage : ScanStage} {refusal : Refusal} (hb : BehindPart shape brace paren text)
    (h : (endOfMember ⟨shape, brace, paren, stage⟩).2 = .error refusal) :
    Unclosed shape text refusal.position := by
  cases paren with
  | some opened =>
    cases h
    exact hb.unclosed
  | none =>
    cases brace with
    | none => cases h
    | some opened =>
      cases h
      exact (hb.element (hb.brace_isList rfl)).unclosed

/-- Where the end of the text is refused, something is missing there, or stands unclosed before it.
-/
theorem Reached.finish {shape : Shape} {s : Scan} {text : List Char} (hr : Reached shape s text)
    {refusal : Refusal} (h : (s.finish text.length).2 = .error refusal) :
    refusal.position = text.length ∨ Unclosed shape text refusal.position := by
  cases hr with
  | listStart gap hl hg => cases h
  | braceOpened gap inside hl hg hi =>
    cases h
    exact .inr (.brace gap inside hl hg (.inl hi))
  | afterComma brace _ hb =>
    cases h
    exact .inl rfl
  | tupleStart gap hs hg =>
    cases h
    exact .inl rfl
  | beforePart brace paren link lead key _ hb hl =>
    cases h
    exact .inl rfl
  | inBrackets brace paren link lead key before body hb =>
    cases h
    exact .inr (.bracket brace paren link before body.reverse hb)
  | closingBracket brace paren link lead key before body hb =>
    exact .inr (endOfMember_reached (hb.bracketed body.reverse) h)
  | inBare brace paren link lead key before body c cs hb hc ho hr =>
    exact .inr (endOfMember_reached (hb.bare hc ho hr) h)
  | afterPart brace paren lead key _ hb => exact .inr (endOfMember_reached hb h)
  | afterElement brace _ hb =>
    cases brace with
    | none => cases h
    | some opened =>
      cases h
      exact .inr hb.unclosed
  | ended brace _ hb => cases h

end Scan

end OlapClient
