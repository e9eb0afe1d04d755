import Mathlib.Data.List.Forall2
import OlapClient.Proofs.Identifier.Recognition

/-!
# Tuples and lists of elements

A tuple is read as identifiers between commas, and a list as elements between commas, be they
identifiers or tuples. That a list joins its elements is shown once for both: all that it asks of an
element is that a scan which is ready for one reads it as it would alone (`Elements`).
-/

namespace OlapClient

namespace Spelling

/-- Texts with commas between them. -/
def joined (texts : List (List Char)) : List Char := [','].intercalate texts

theorem joined_singleton (text : List Char) : joined [text] = text := by simp [joined]

theorem joined_cons_cons (text text' : List Char) (texts : List (List Char)) :
    joined (text :: text' :: texts) = text ++ ',' :: joined (text' :: texts) := by
  simp [joined]

theorem joined_cons (text : List Char) (texts : List (List Char)) (h : texts ≠ []) :
    joined (text :: texts) = text ++ ',' :: joined texts := by
  obtain ⟨text', texts, rfl⟩ := List.exists_cons_of_ne_nil h
  exact joined_cons_cons text text' texts

/-- The first character that is no blank, where it can be the start of an element. -/
def Starts (text : List Char) : Prop :=
  ∃ c, (text.dropWhile Text.isBlank).head? = some c ∧ c ≠ '{' ∧ c ≠ '}'

theorem starts_cons (gap : List Char) (c : Char) (rest : List Char) (hg : Blanks gap)
    (hb : Text.isBlank c = false) (hc : c ≠ '{' ∧ c ≠ '}') : Starts (gap ++ c :: rest) :=
  ⟨c, by rw [dropWhile_first gap c rest hg hb]; rfl, hc⟩

theorem Starts.split {text : List Char} (h : Starts text) : ∃ gap c rest,
    text = gap ++ c :: rest ∧ Blanks gap ∧ Text.isBlank c = false ∧ c ≠ '{' ∧ c ≠ '}' := by
  obtain ⟨c, hc, hne⟩ := h
  rcases blanks_or_first text with hg | ⟨gap, c', rest, rfl, hg, hb⟩
  · have hd := dropWhile_blanks text [] hg
    rw [List.append_nil] at hd
    rw [hd] at hc
    cases hc
  · rw [dropWhile_first gap c' rest hg hb] at hc
    cases hc
    exact ⟨gap, c, rest, rfl, hg, hb, hne⟩

theorem Starts.append {text : List Char} (h : Starts text) (rest : List Char) :
    Starts (text ++ rest) := by
  obtain ⟨gap, c, rest', rfl, hg, hb, hne⟩ := h.split
  rw [List.append_assoc, List.cons_append]
  exact starts_cons gap c (rest' ++ rest) hg hb hne

/-- The first character of an identifier opens neither a tuple nor a list and closes no list. -/
theorem Reads.first {text : List Char} {i : Identifier} (h : Reads text i) : ∃ gap c rest,
    text = gap ++ c :: rest ∧ Blanks gap ∧ Text.isBlank c = false ∧ c ≠ '(' ∧
      c ≠ '{' ∧ c ≠ '}' := by
  obtain ⟨pieces, ⟨opening, text, rest, link, name, pieces, ho, hp, -⟩, -⟩ := h
  obtain ⟨c, cs, rfl, hb, hr, hparen, hbrace⟩ := hp.head
  have hclose : c ≠ '}' := by
    rintro rfl
    exact hr (by decide)
  cases ho with
  | name _ hg => exact ⟨opening, c, cs ++ rest, by simp, hg, hb, hparen, hbrace, hclose⟩
  | key gap gap' hg _ =>
    exact ⟨gap, '&', gap' ++ c :: cs ++ rest, by simp, hg, by decide, by decide,
      by decide, by decide⟩

theorem Reads.starts {text : List Char} {i : Identifier} (h : Reads text i) : Starts text := by
  obtain ⟨gap, c, rest, rfl, hg, hb, -, hc⟩ := h.first
  exact starts_cons gap c rest hg hb hc

/-- A text reads as a tuple: identifiers in parentheses, commas between them. -/
def ReadsTuple (text : List Char) (t : Tuple) : Prop :=
  ∃ gap texts gap', text = gap ++ '(' :: (joined texts ++ ')' :: gap') ∧ Blanks gap ∧ Blanks gap' ∧
    texts ≠ [] ∧ List.Forall₂ Reads texts t.members

/-- A text reads as elements with commas between them, or as none if it is blank. -/
def Listed {α : Type} (reads : List Char → α → Prop) (text : List Char)
    (elements : List α) : Prop :=
  (Blanks text ∧ elements = []) ∨
    ∃ texts, texts ≠ [] ∧ text = joined texts ∧ List.Forall₂ reads texts elements

end Spelling

namespace Scan

open Spelling

variable (s : Scan) (position : Nat)

/-! ### Elements in turn -/

/-- Elements are read in turn: `next` reads one up to what stops it, then `behind` reads on, and
behind a comma it is the turn of `next` again. -/
structure Alternate {α : Type} (reads : List Char → α → Prop) (events : α → List Event)
    (next behind : Nat → List Char → Reading Unit) : Prop where
  run : ∀ position text a rest, reads text a → Stops rest →
    next position (text ++ rest) = .after (events a) (behind (position + text.length) rest)
  accepted : ∀ position cs, (next position cs).2 = .ok () →
    ∃ text a rest, cs = text ++ rest ∧ reads text a ∧ Stops rest
  comma : ∀ position cs, behind position (',' :: cs) = next (position + 1) cs

namespace Alternate

variable {α : Type} {reads : List Char → α → Prop} {events : α → List Event}
variable {next behind : Nat → List Char → Reading Unit}

theorem run_joined (r : Alternate reads events next behind) (texts : List (List Char))
    (elements : List α) (h : List.Forall₂ reads texts elements) (hne : texts ≠ [])
    (rest : List Char) (hr : Stops rest) :
    next position (joined texts ++ rest) =
      .after (elements.flatMap events) (behind (position + (joined texts).length) rest) := by
  induction h generalizing position with
  | nil => exact absurd rfl hne
  | @cons text a texts elements ha hall ih =>
    cases texts with
    | nil =>
      cases hall
      rw [joined_singleton, r.run position text a rest ha hr]
      simp
    | cons text' texts =>
      have he : joined (text :: text' :: texts) ++ rest =
          text ++ ',' :: (joined (text' :: texts) ++ rest) := by
        simp [joined_cons_cons]
      have hl : position + text.length + 1 + (joined (text' :: texts)).length =
          position + (joined (text :: text' :: texts)).length := by
        rw [joined_cons_cons, List.length_append, List.length_cons]
        omega
      rw [he, r.run position text a _ ha (stops_cons ',' _ (by decide)), r.comma, ih _ (by simp),
        Reading.after_after, hl]
      simp

/-- An accepted text begins with elements, and behind the last of them there is no comma. -/
theorem joined_of_accepted (r : Alternate reads events next behind) (cs : List Char)
    (h : (next position cs).2 = .ok ()) :
    ∃ texts elements rest, cs = joined texts ++ rest ∧ texts ≠ [] ∧
      List.Forall₂ reads texts elements ∧ Stops rest ∧ rest.head? ≠ some ',' := by
  induction hn : cs.length using Nat.strongRecOn generalizing position cs with
  | ind n ih =>
    obtain ⟨text, a, rest, rfl, ha, hr⟩ := r.accepted position cs h
    rw [r.run position text a rest ha hr, Reading.after_snd] at h
    by_cases hc : rest.head? = some ','
    · obtain ⟨cs', rfl⟩ := List.head?_eq_some_iff.mp hc
      rw [r.comma] at h
      have hlt : cs'.length < n := by
        simp only [List.length_append, List.length_cons] at hn
        omega
      obtain ⟨texts, elements, rest, rfl, hne, hall, hr, hhead⟩ := ih cs'.length hlt _ cs' h rfl
      refine ⟨text :: texts, a :: elements, rest, ?_, by simp, .cons ha hall, hr, hhead⟩
      simp [joined_cons text texts hne]
    · exact ⟨[text], [a], rest, by rw [joined_singleton], by simp, .cons ha .nil, hr, hc⟩

end Alternate

/-! ### Tuples -/

/-- What is reported for a tuple. -/
def tupleEvents (t : Tuple) : List Event := t.members.flatMap memberEvents ++ [.tuple]

theorem resume_comma (hp : s.paren.isSome = true) (cs : List Char) :
    s.resume position (',' :: cs) = (s.goTo (.beforePart .name [])).run (position + 1) cs := by
  have ha : s.afterMember position ',' = .quiet (s.goTo (.beforePart .name [])) := by
    simp [afterMember, hp]
  rw [resume, ha, Reading.quiet_andThen]

theorem resume_paren (hp : s.paren.isSome = true) (cs : List Char) :
    s.resume position (')' :: cs) = .after [.tuple] (s.elementDone.run (position + 1) cs) := by
  have ha : s.afterMember position ')' = .after [.tuple] (.quiet s.elementDone) := by
    simp [afterMember, hp]
  rw [resume, ha, Reading.after_andThen, Reading.quiet_andThen]

/-- The identifiers of a tuple. -/
theorem members_alternate (hp : s.paren.isSome = true) :
    Alternate Reads memberEvents (s.goTo (.beforePart .name [])).run s.resume where
  run position text i rest hi hr := s.run_spelled position hi rest hr
  accepted position cs h := by
    obtain ⟨text, rest, i, hcs, hi, hr, -⟩ := s.spelled_of_accepted position cs h
    exact ⟨text, i, rest, hcs, hi, hr⟩
  comma position cs := s.resume_comma position hp cs

theorem run_members (hp : s.paren.isSome = true) (texts : List (List Char))
    (members : List Identifier) (h : List.Forall₂ Reads texts members) (hne : texts ≠ [])
    (rest : List Char) :
    (s.goTo (.beforePart .name [])).run position (joined texts ++ ')' :: rest) =
      .after (members.flatMap memberEvents ++ [.tuple])
        (s.elementDone.run (position + (joined texts).length + 1) rest) := by
  rw [(s.members_alternate hp).run_joined position texts members h hne _
    (stops_cons ')' rest (by decide)), s.resume_paren _ hp, Reading.after_after]

theorem members_of_accepted (hp : s.paren.isSome = true) (cs : List Char)
    (h : ((s.goTo (.beforePart .name [])).run position cs).2 = .ok ()) :
    ∃ texts members rest, cs = joined texts ++ ')' :: rest ∧ texts ≠ [] ∧
      List.Forall₂ Reads texts members := by
  obtain ⟨texts, members, rest, rfl, hne, hall, hr, hcomma⟩ :=
    (s.members_alternate hp).joined_of_accepted position cs h
  rw [(s.members_alternate hp).run_joined position texts members hall hne rest hr,
    Reading.after_snd] at h
  cases rest with
  | nil =>
    obtain ⟨opened, ho⟩ := Option.isSome_iff_exists.mp hp
    simp [resume, endOfMember, ho, Reading.refuse] at h
  | cons c rest =>
    rcases hr c rfl with rfl | rfl | rfl
    · exact absurd rfl hcomma
    · exact ⟨texts, members, rest, rfl, hne, hall⟩
    · have hs : ∀ p, s.afterMember p '}' = .refuse (.strayInTuple '}') p := by
        intro p
        simp [afterMember, hp]
      rw [resume, hs] at h
      cases h

/-- A scan that is ready for a tuple reads the parenthesis and what it encloses. -/
theorem run_parenthesised (ht : s.shape.ofTuples = true) (texts : List (List Char))
    (members : List Identifier) (h : List.Forall₂ Reads texts members) (hne : texts ≠ [])
    (rest : List Char) :
    ((s.elementStart position '(').andThen fun next =>
        next.run (position + 1) (joined texts ++ ')' :: rest)) =
      .after (tupleEvents ⟨members⟩)
        (s.elementDone.run (position + 1 + (joined texts).length + 1) rest) := by
  have hs : s.elementStart position '(' =
      .quiet { s with paren := some position, stage := .beforePart .name [] } := by
    simp [elementStart, ht]
  rw [hs, Reading.quiet_andThen]
  exact run_members { s with paren := some position } (position + 1) rfl texts members h hne rest

theorem parenthesised_of_accepted (ht : s.shape.ofTuples = true) (c : Char) (cs : List Char)
    (h : ((s.elementStart position c).andThen fun next => next.run (position + 1) cs).2 = .ok ()) :
    c = '(' ∧ ∃ texts members rest, cs = joined texts ++ ')' :: rest ∧ texts ≠ [] ∧
      List.Forall₂ Reads texts members := by
  by_cases hc : c = '('
  · subst hc
    have hs : s.elementStart position '(' =
        .quiet { s with paren := some position, stage := .beforePart .name [] } := by
      simp [elementStart, ht]
    rw [hs, Reading.quiet_andThen] at h
    exact ⟨rfl, members_of_accepted { s with paren := some position } (position + 1) rfl cs h⟩
  · have hs : s.elementStart position c = .refuse (.notATuple (some c)) position := by
      simp [elementStart, ht, hc]
    rw [hs] at h
    cases h

/-! ### Where elements start and end -/

/-- The stages at which the next character but for blanks starts an element. -/
def Awaits (stage : ScanStage) : Prop :=
  stage = .listStart ∨ stage = .braceOpened ∨ stage = .afterComma

theorem skips_awaiting (stage : ScanStage) (h : Awaits stage) : (s.goTo stage).Skips := by
  intro p c hc
  rcases h with rfl | rfl | rfl <;> simp [step, goTo, hc]

theorem step_awaiting (stage : ScanStage) (h : Awaits stage) (c : Char)
    (hb : Text.isBlank c = false) (hc : c ≠ '{' ∧ c ≠ '}') :
    (s.goTo stage).step position c = s.elementStart position c := by
  rcases h with rfl | rfl | rfl
  · simp only [step, goTo, hb, if_neg hc.1]
    rfl
  · simp only [step, goTo, hb, if_neg hc.2]
    rfl
  · simp only [step, goTo, hb, if_neg hc.2]
    rfl

theorem skips_afterElement : (s.goTo .afterElement).Skips := by
  intro p c hc
  simp [step, goTo, separator, hc]

theorem skips_ended : (s.goTo .ended).Skips := by
  intro p c hc
  simp [step, goTo, separator, hc]

theorem run_ended (gap : List Char) (hg : Blanks gap) :
    (s.goTo .ended).run position gap = .quiet () := by
  rw [s.skips_ended.run_end position gap hg]
  rfl

theorem blanks_of_ended (cs : List Char) (h : ((s.goTo .ended).run position cs).2 = .ok ()) :
    Blanks cs := by
  rcases blanks_or_first cs with hg | ⟨gap, c, rest, rfl, hg, hb⟩
  · exact hg
  · have hs : ∀ p, (s.goTo .ended).step p c = .refuse (.strayAtEnd c) p := by
      intro p
      simp [step, goTo, separator, hb]
    rw [s.skips_ended.run position gap _ hg, run_cons, hs] at h
    cases h

theorem step_afterElement_comma (hl : s.shape.isList = true) :
    (s.goTo .afterElement).step position ',' = .quiet (s.goTo .afterComma) := by
  simp only [step, goTo, separator, hl]
  rfl

theorem step_afterElement_brace (hl : s.shape.isList = true) (hb : s.brace.isSome = true) :
    (s.goTo .afterElement).step position '}' = .quiet (s.goTo .ended) := by
  simp only [step, goTo, separator, hl, hb]
  rfl

theorem step_afterElement_paren (hl : s.shape.isList = true) :
    (s.goTo .afterElement).step position ')' = .refuse (.strayInList ')') position := by
  simp only [step, goTo, separator, hl]
  rfl

/-- Behind an element only a comma or a brace is read on. -/
theorem stops_of_afterElement (hl : s.shape.isList = true) (cs : List Char)
    (hb : ∀ c, cs.head? = some c → Text.isBlank c = false)
    (h : ((s.goTo .afterElement).run position cs).2 = .ok ()) : Stops cs := by
  cases cs with
  | nil => exact stops_nil
  | cons c cs =>
    have hblank := hb c rfl
    refine stops_cons c cs ?_
    refine Classical.byContradiction fun hc => ?_
    simp only [not_or] at hc
    have hs : (s.goTo .afterElement).step position c = .refuse (.strayInList c) position := by
      simp [step, goTo, separator, hblank, hl, hc]
    rw [run_cons, hs] at h
    cases h

theorem elementStart_brace (c : Char) (hc : c = '{' ∨ c = '}') :
    ∃ reason, s.elementStart position c = .refuse reason position := by
  cases ht : s.shape.ofTuples with
  | true =>
    have hne : c ≠ '(' := by rcases hc with rfl | rfl <;> decide
    exact ⟨.notATuple (some c), by simp [elementStart, ht, hne]⟩
  | false =>
    have hs : s.elementStart position c = s.partStart position .name [] c := by
      simp [elementStart, ht]
    exact ⟨.notASegment c, by rcases hc with rfl | rfl <;> exact hs⟩

/-- No element starts with a brace. Where the stage has no use for a brace of its own, the text is
refused. -/
theorem ne_brace_of_accepted (stage : ScanStage) (gap : List Char) (c : Char) (rest : List Char)
    (hst : Awaits stage) (hg : Blanks gap)
    (hs : ∀ p, (s.goTo stage).step p c = (s.goTo stage).elementStart p c)
    (h : ((s.goTo stage).run position (gap ++ c :: rest)).2 = .ok ()) : ¬ (c = '{' ∨ c = '}') := by
  intro hc
  obtain ⟨reason, hr⟩ := (s.goTo stage).elementStart_brace (position + gap.length) c hc
  rw [(s.skips_awaiting stage hst).run position gap _ hg, run_cons, hs, hr] at h
  cases h

/-- Behind a comma there is an element. -/
theorem starts_of_afterComma (cs : List Char)
    (h : ((s.goTo .afterComma).run position cs).2 = .ok ()) : Starts cs := by
  have haw : Awaits .afterComma := .inr (.inr rfl)
  rcases blanks_or_first cs with hg | ⟨gap, c, rest, rfl, hg, hb⟩
  · rw [(s.skips_awaiting _ haw).run_end position cs hg] at h
    cases h
  · refine starts_cons gap c rest hg hb ⟨?_, ?_⟩
    · rintro rfl
      exact s.ne_brace_of_accepted position _ gap '{' rest haw hg (fun _ => rfl) h (.inl rfl)
    · rintro rfl
      rw [(s.skips_awaiting _ haw).run position gap _ hg, run_cons] at h
      cases h

/-- Where an element starts, all stages that await one read the same. -/
theorem run_awaiting (stage : ScanStage) (hst : Awaits stage) (cs : List Char) (hcs : Starts cs) :
    (s.goTo stage).run position cs = (s.goTo .afterComma).run position cs := by
  have haw : Awaits .afterComma := .inr (.inr rfl)
  obtain ⟨gap, c, rest, rfl, hg, hb, hc⟩ := hcs.split
  rw [(s.skips_awaiting stage hst).run position gap _ hg,
    (s.skips_awaiting _ haw).run position gap _ hg, run_cons, run_cons,
    s.step_awaiting _ stage hst c hb hc, s.step_awaiting _ _ haw c hb hc]

/-! ### Elements of lists -/

/-- Which texts read as an element of a list, and what is reported for one. -/
structure Elements {α : Type} (reads : List Char → α → Prop) (events : α → List Event) : Prop where
  isList : s.shape.isList = true
  starts : ∀ text a, reads text a → Starts text
  alternate : Alternate reads events (s.goTo .afterComma).run (s.goTo .afterElement).run

theorem elementDone_eq (hl : s.shape.isList = true) (hp : s.paren = none) :
    s.elementDone = s.goTo .afterElement := by
  simp [elementDone, goTo, hl, hp]

theorem resume_element (hl : s.shape.isList = true) (hp : s.paren = none) (rest : List Char) :
    s.resume position rest = (s.goTo .afterElement).run position rest := by
  cases rest with
  | nil =>
    have he : s.endOfMember = s.endOfList := by simp [endOfMember, hp]
    exact he
  | cons c cs =>
    have ha : s.afterMember position c = (s.goTo .afterElement).step position c := by
      simp only [afterMember, hp, elementDone_eq s hl hp]
      rfl
    rw [resume, run_cons, ha]

theorem run_afterElement_comma (hl : s.shape.isList = true) (cs : List Char) :
    (s.goTo .afterElement).run position (',' :: cs) =
      (s.goTo .afterComma).run (position + 1) cs := by
  rw [run_cons, s.step_afterElement_comma _ hl, Reading.quiet_andThen]

/-- Identifiers as elements. -/
theorem memberElements (hs : s.shape = .memberList) (hp : s.paren = none) :
    s.Elements Reads memberEvents := by
  have hl : s.shape.isList = true := by rw [hs]; rfl
  have ht : s.shape.ofTuples = false := by rw [hs]; rfl
  have haw : Awaits .afterComma := .inr (.inr rfl)
  -- A scan that awaits an identifier goes on like one that reads an identifier.
  have hrun : ∀ position cs, Starts cs →
      (s.goTo .afterComma).run position cs = (s.goTo (.beforePart .name [])).run position cs := by
    intro position cs hcs
    obtain ⟨gap, c, rest, rfl, hg, hb, hc⟩ := hcs.split
    have he : ∀ p, s.elementStart p c = (s.goTo (.beforePart .name [])).step p c := by
      intro p
      simp only [elementStart, ht, step, goTo]
      rfl
    rw [(s.skips_awaiting _ haw).run position gap _ hg,
      (s.skips_beforePart .name []).run position gap _ hg, run_cons, run_cons,
      s.step_awaiting _ _ haw c hb hc, he]
  refine ⟨hl, fun _ _ h => h.starts, ?_, ?_,
    fun position cs => s.run_afterElement_comma position hl cs⟩
  · intro position text i rest hi hr
    rw [hrun position _ (hi.starts.append rest), s.run_spelled position hi rest hr,
      s.resume_element _ hl hp]
  · intro position cs h
    rw [hrun position cs (s.starts_of_afterComma position cs h)] at h
    obtain ⟨text, rest, i, rfl, hi, hr, -⟩ := s.spelled_of_accepted position cs h
    exact ⟨text, i, rest, rfl, hi, hr⟩

/-- Tuples as elements. -/
theorem tupleElements (hs : s.shape = .tupleList) (hp : s.paren = none) :
    s.Elements ReadsTuple tupleEvents := by
  have hl : s.shape.isList = true := by rw [hs]; rfl
  have ht : s.shape.ofTuples = true := by rw [hs]; rfl
  have haw : Awaits .afterComma := .inr (.inr rfl)
  have hrun : ∀ position text t rest, ReadsTuple text t →
      (s.goTo .afterComma).run position (text ++ rest) =
        .after (tupleEvents t) ((s.goTo .afterElement).run (position + text.length) rest) := by
    rintro position text t rest ⟨gap, texts, gap', rfl, hg, hg', hne, hall⟩
    have he : gap ++ '(' :: (joined texts ++ ')' :: gap') ++ rest =
        gap ++ '(' :: (joined texts ++ ')' :: (gap' ++ rest)) := by simp
    have hlen : position + gap.length + 1 + (joined texts).length + 1 + gap'.length =
        position + (gap ++ '(' :: (joined texts ++ ')' :: gap')).length := by
      simp only [List.length_append, List.length_cons]
      omega
    rw [he, (s.skips_awaiting _ haw).run position gap _ hg, run_cons,
      s.step_awaiting _ _ haw '(' (by decide) (by decide),
      s.run_parenthesised _ ht texts t.members hall hne, elementDone_eq s hl hp,
      s.skips_afterElement.run _ gap' rest hg', hlen]
  refine ⟨hl, ?_, fun position text t rest h _ => hrun position text t rest h, ?_,
    fun position cs => s.run_afterElement_comma position hl cs⟩
  · rintro text t ⟨gap, texts, gap', rfl, hg, -⟩
    exact starts_cons gap '(' _ hg (by decide) (by decide)
  · intro position cs h
    obtain ⟨gap, c, cs', hsplit, hg, hb, hc⟩ := (s.starts_of_afterComma position cs h).split
    have h' := h
    rw [hsplit, (s.skips_awaiting _ haw).run position gap _ hg, run_cons,
      s.step_awaiting _ _ haw c hb hc] at h'
    obtain ⟨rfl, texts, members, rest, rfl, hne, hall⟩ :=
      s.parenthesised_of_accepted _ ht c cs' h'
    -- The blanks behind the parenthesis belong to the element.
    have hrest : rest = rest.takeWhile Text.isBlank ++ rest.dropWhile Text.isBlank :=
      List.takeWhile_append_dropWhile.symm
    have hreads : ReadsTuple
        (gap ++ '(' :: (joined texts ++ ')' :: rest.takeWhile Text.isBlank)) ⟨members⟩ :=
      ⟨gap, texts, _, rfl, hg, blanks_takeWhile rest, hne, hall⟩
    have hcs' : cs = gap ++ '(' :: (joined texts ++ ')' :: rest.takeWhile Text.isBlank) ++
        rest.dropWhile Text.isBlank := by
      rw [hsplit, List.append_assoc, List.cons_append, List.append_assoc, List.cons_append, ← hrest]
    rw [hcs', hrun position _ _ _ hreads, Reading.after_snd] at h
    exact ⟨_, _, _, hcs', hreads,
      s.stops_of_afterElement _ hl _ (not_blank_of_dropWhile rest) h⟩

namespace Elements

variable {s} {α : Type} {reads : List Char → α → Prop} {events : α → List Event}

theorem starts_joined (e : s.Elements reads events) (texts : List (List Char))
    (elements : List α) (h : List.Forall₂ reads texts elements) (hne : texts ≠ []) :
    Starts (joined texts) := by
  cases h with
  | nil => exact absurd rfl hne
  | @cons text a texts elements ha hall =>
    cases texts with
    | nil =>
      rw [joined_singleton]
      exact e.starts text a ha
    | cons text' texts =>
      rw [joined_cons_cons]
      exact (e.starts text a ha).append _

theorem run_joined (e : s.Elements reads events) (texts : List (List Char)) (elements : List α)
    (h : List.Forall₂ reads texts elements) (hne : texts ≠ []) (stage : ScanStage)
    (hst : Awaits stage) (rest : List Char) (hr : Stops rest) :
    (s.goTo stage).run position (joined texts ++ rest) =
      .after (elements.flatMap events)
        ((s.goTo .afterElement).run (position + (joined texts).length) rest) := by
  have hstarts := (e.starts_joined texts elements h hne).append rest
  rw [s.run_awaiting position stage hst _ hstarts,
    e.alternate.run_joined position texts elements h hne rest hr]

theorem joined_of_accepted (e : s.Elements reads events) (stage : ScanStage) (hst : Awaits stage)
    (cs : List Char) (hcs : Starts cs) (h : ((s.goTo stage).run position cs).2 = .ok ()) :
    ∃ texts elements rest, cs = joined texts ++ rest ∧ texts ≠ [] ∧
      List.Forall₂ reads texts elements ∧ Stops rest ∧ rest.head? ≠ some ',' := by
  rw [s.run_awaiting position stage hst cs hcs] at h
  exact e.alternate.joined_of_accepted position cs h

/-! ### Lists without and with braces -/

theorem run_unbraced (e : s.Elements reads events) (hb : s.brace = none) (text : List Char)
    (elements : List α) (h : Listed reads text elements) :
    (s.goTo .listStart).run position text = (elements.flatMap events, .ok ()) := by
  have haw : Awaits .listStart := .inl rfl
  obtain ⟨hg, rfl⟩ | ⟨texts, hne, rfl, hall⟩ := h
  · rw [(s.skips_awaiting _ haw).run_end position text hg]
    rfl
  · have hrun := e.run_joined position texts elements hall hne _ haw [] stops_nil
    have hend : (s.goTo .afterElement).run (position + (joined texts).length) [] = .quiet () := by
      show (s.goTo .afterElement).endOfList = .quiet ()
      simp only [endOfList, goTo, hb]
    rw [List.append_nil, hend] at hrun
    rw [hrun]
    simp [Reading.after, Reading.quiet]

theorem listed_of_unbraced (e : s.Elements reads events) (hb : s.brace = none) (cs : List Char)
    (hcs : (cs.dropWhile Text.isBlank).head? ≠ some '{')
    (h : ((s.goTo .listStart).run position cs).2 = .ok ()) :
    ∃ elements, Listed reads cs elements := by
  rcases blanks_or_first cs with hg | ⟨gap, c, rest, rfl, hg, hblank⟩
  · exact ⟨[], .inl ⟨hg, rfl⟩⟩
  · have haw : Awaits .listStart := .inl rfl
    have hopen : c ≠ '{' := by
      rintro rfl
      exact hcs (by rw [dropWhile_first gap '{' rest hg hblank]; rfl)
    have hclose : c ≠ '}' := by
      rintro rfl
      exact s.ne_brace_of_accepted position _ gap '}' rest haw hg (fun _ => rfl) h (.inr rfl)
    obtain ⟨texts, elements, rest', hsplit, hne, hall, hr, hcomma⟩ :=
      e.joined_of_accepted position _ haw _ (starts_cons gap c rest hg hblank ⟨hopen, hclose⟩) h
    rw [hsplit, e.run_joined position texts elements hall hne _ haw rest' hr,
      Reading.after_snd] at h
    have hrest : rest' = [] := by
      cases rest' with
      | nil => rfl
      | cons c' rest' =>
        rcases hr c' rfl with rfl | rfl | rfl
        · exact absurd rfl hcomma
        · rw [run_cons, s.step_afterElement_paren _ e.isList] at h
          cases h
        · have hs : ∀ p, (s.goTo .afterElement).step p '}' = .refuse .unopenedBrace p := by
            intro p
            simp only [step, goTo, separator, e.isList, hb]
            rfl
          rw [run_cons, hs] at h
          cases h
    rw [hrest, List.append_nil] at hsplit
    exact ⟨elements, .inr ⟨texts, hne, hsplit, hall⟩⟩

theorem run_braced (e : s.Elements reads events) (hb : s.brace.isSome = true) (text gap : List Char)
    (elements : List α) (h : Listed reads text elements) (hg : Blanks gap) :
    (s.goTo .braceOpened).run position (text ++ '}' :: gap) =
      (elements.flatMap events, .ok ()) := by
  have haw : Awaits .braceOpened := .inr (.inl rfl)
  obtain ⟨htext, rfl⟩ | ⟨texts, hne, rfl, hall⟩ := h
  · have hs : ∀ p, (s.goTo .braceOpened).step p '}' = .quiet (s.goTo .ended) := fun p => rfl
    rw [(s.skips_awaiting _ haw).run position text _ htext, run_cons, hs, Reading.quiet_andThen,
      s.run_ended _ gap hg]
    rfl
  · rw [e.run_joined position texts elements hall hne _ haw _ (stops_cons '}' gap (by decide)),
      run_cons, s.step_afterElement_brace _ e.isList hb, Reading.quiet_andThen,
      s.run_ended _ gap hg]
    simp [Reading.after, Reading.quiet]

theorem listed_of_braced (e : s.Elements reads events) (hb : s.brace.isSome = true)
    (cs : List Char) (h : ((s.goTo .braceOpened).run position cs).2 = .ok ()) :
    ∃ text gap elements, cs = text ++ '}' :: gap ∧ Blanks gap ∧ Listed reads text elements := by
  obtain ⟨opened, hopened⟩ := Option.isSome_iff_exists.mp hb
  have haw : Awaits .braceOpened := .inr (.inl rfl)
  rcases blanks_or_first cs with hg | ⟨gap, c, rest, rfl, hg, hblank⟩
  · have hend : ∀ p, (s.goTo .braceOpened).finish p = .refuse .unclosedBrace opened := by
      intro p
      show (s.goTo .braceOpened).endOfList = _
      simp only [endOfList, goTo, hopened]
    rw [(s.skips_awaiting _ haw).run_end position cs hg, hend] at h
    cases h
  · by_cases hclose : c = '}'
    · subst hclose
      have hs : ∀ p, (s.goTo .braceOpened).step p '}' = .quiet (s.goTo .ended) := fun p => rfl
      rw [(s.skips_awaiting _ haw).run position gap _ hg, run_cons, hs, Reading.quiet_andThen] at h
      exact ⟨gap, rest, [], rfl, s.blanks_of_ended _ rest h, .inl ⟨hg, rfl⟩⟩
    · have hopen : c ≠ '{' := by
        rintro rfl
        exact s.ne_brace_of_accepted position _ gap '{' rest haw hg (fun _ => rfl) h (.inl rfl)
      obtain ⟨texts, elements, rest', hsplit, hne, hall, hr, hcomma⟩ :=
        e.joined_of_accepted position _ haw _ (starts_cons gap c rest hg hblank ⟨hopen, hclose⟩) h
      rw [hsplit, e.run_joined position texts elements hall hne _ haw rest' hr,
        Reading.after_snd] at h
      cases rest' with
      | nil =>
        have hend : ∀ p, (s.goTo .afterElement).run p [] = .refuse .unclosedBrace opened := by
          intro p
          show (s.goTo .afterElement).endOfList = _
          simp only [endOfList, goTo, hopened]
        rw [hend] at h
        cases h
      | cons c' rest' =>
        rcases hr c' rfl with rfl | rfl | rfl
        · exact absurd rfl hcomma
        · rw [run_cons, s.step_afterElement_paren _ e.isList] at h
          cases h
        · rw [run_cons, s.step_afterElement_brace _ e.isList hb, Reading.quiet_andThen] at h
          exact ⟨joined texts, rest', elements, hsplit, s.blanks_of_ended _ rest' h,
            .inr ⟨texts, hne, rfl, hall⟩⟩

end Elements

end Scan

end OlapClient
