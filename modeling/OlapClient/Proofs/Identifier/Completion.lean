import OlapClient.Proofs.Identifier.Reached

/-!
# Texts that go on

Wherever a scan stands, some text leads it to an accepted end: what is expected next, and then a
closing parenthesis and a closing brace if they are open (`completes`). A refusal reports no more
than is reported on that way, since what is held back when it comes is held back there too
(`pending`). So the front of a text that was read before the refusal can be completed, and what was
reported with the refusal is the beginning of what is reported then (`run_refused`).
-/

namespace OlapClient

open Spelling

/-- What is reported at once if the identifier ends here. -/
def ScanStage.pending : ScanStage → List Event
  | .closingBracket _ lead key body =>
    let (events, key) := completePart lead key (Scan.quotedPart body)
    events ++ heldKey key ++ [.member]
  | .inBare lead key body =>
    let (events, key) := completePart lead key (Scan.barePart body)
    events ++ heldKey key ++ [.member]
  | .afterPart _ key => heldKey key ++ [.member]
  | _ => []

namespace Scan

/-! ### Refusals -/

section Refusals

variable (s : Scan) (position : Nat) (lead : Lead) (key : List Name) (c : Char)
variable {events : List Event} {refusal : Refusal}

theorem partStart_refused (h : s.partStart position lead key c = (events, .error refusal)) :
    events = [] ∧ refusal.position = position := by
  unfold partStart at h
  split_ifs at h <;> cases h <;> exact ⟨rfl, rfl⟩

theorem elementStart_refused (h : s.elementStart position c = (events, .error refusal)) :
    events = [] ∧ refusal.position = position := by
  unfold elementStart at h
  split_ifs at h
  · cases h
  · cases h
    exact ⟨rfl, rfl⟩
  · exact s.partStart_refused position _ _ c h

theorem separator_refused (h : s.separator position c = (events, .error refusal)) :
    events = [] ∧ refusal.position = position := by
  unfold separator at h
  split_ifs at h <;> cases h <;> exact ⟨rfl, rfl⟩

theorem afterMember_refused (h : s.afterMember position c = (events, .error refusal)) :
    events = [] ∧ refusal.position = position := by
  unfold afterMember at h
  split_ifs at h
  · cases h
  · cases h
  · cases h
    exact ⟨rfl, rfl⟩
  · exact s.elementDone.separator_refused position c h

theorem partEnd_refused (h : s.partEnd position lead key c = (events, .error refusal)) :
    events = heldKey key ++ [.member] ∧ refusal.position = position := by
  unfold partEnd at h
  split_ifs at h
  · cases h
  · cases h
  · cases h
  · cases h
  · obtain ⟨behind, ha, rfl⟩ := (Reading.after_eq_iff _ _ _ _).mp h
    obtain ⟨rfl, hp⟩ := s.afterMember_refused position c ha
    exact ⟨by simp, hp⟩

theorem partDone_refused (part : Name)
    (h : s.partDone position lead key part c = (events, .error refusal)) :
    events = (completePart lead key part).1 ++ heldKey (completePart lead key part).2 ++ [.member] ∧
      refusal.position = position := by
  have hdone : Reading.after (completePart lead key part).1
      (s.partEnd position lead (completePart lead key part).2 c) = (events, .error refusal) := h
  obtain ⟨behind, ha, rfl⟩ := (Reading.after_eq_iff _ _ _ _).mp hdone
  obtain ⟨rfl, hp⟩ := s.partEnd_refused position _ _ c ha
  exact ⟨by rw [List.append_assoc], hp⟩

/-- A character is refused at its own offset. -/
theorem step_refused (h : s.step position c = (events, .error refusal)) :
    events = s.stage.pending ∧ refusal.position = position := by
  cases hstage : s.stage with
  | listStart =>
    simp only [step, hstage] at h
    split_ifs at h
    · cases h
    · cases h
    · exact s.elementStart_refused position c h
  | braceOpened =>
    simp only [step, hstage] at h
    split_ifs at h
    · cases h
    · cases h
    · exact s.elementStart_refused position c h
  | afterComma =>
    simp only [step, hstage] at h
    split_ifs at h
    · cases h
    · cases h
      exact ⟨rfl, rfl⟩
    · exact s.elementStart_refused position c h
  | tupleStart =>
    simp only [step, hstage] at h
    split_ifs at h
    · cases h
    · exact s.elementStart_refused position c h
  | beforePart lead key =>
    simp only [step, hstage] at h
    exact s.partStart_refused position lead key c h
  | inBrackets opened lead key body =>
    simp only [step, hstage] at h
    split_ifs at h <;> cases h
  | closingBracket opened lead key body =>
    simp only [step, hstage] at h
    split_ifs at h
    · cases h
    · exact s.partDone_refused position lead key c _ h
  | inBare lead key body =>
    simp only [step, hstage] at h
    split_ifs at h
    · exact s.partDone_refused position lead key c _ h
    · cases h
  | afterPart lead key =>
    simp only [step, hstage] at h
    exact s.partEnd_refused position lead key c h
  | afterElement =>
    simp only [step, hstage] at h
    exact s.separator_refused position c h
  | ended =>
    simp only [step, hstage] at h
    exact s.separator_refused position c h

theorem endOfList_refused (h : s.endOfList = (events, .error refusal)) : events = [] := by
  unfold endOfList at h
  split at h <;> cases h
  rfl

theorem endOfMember_refused (before : List Event)
    (h : Reading.after before s.endOfMember = (events, .error refusal)) : events = before := by
  obtain ⟨behind, hm, rfl⟩ := (Reading.after_eq_iff _ _ _ _).mp h
  have hbehind : behind = [] := by
    unfold endOfMember at hm
    split at hm
    · cases hm
      rfl
    · exact s.endOfList_refused hm
  rw [hbehind, List.append_nil]

theorem finish_refused (h : s.finish position = (events, .error refusal)) :
    events = s.stage.pending := by
  cases hstage : s.stage <;> simp only [finish, hstage] at h
  case listStart | ended => cases h
  case afterComma | tupleStart | beforePart | inBrackets =>
    cases h
    rfl
  case braceOpened | afterElement => exact s.endOfList_refused h
  case closingBracket | inBare | afterPart => exact s.endOfMember_refused _ h

end Refusals

/-! ### What leads to the end -/

/-- What closes the brace that is open. -/
def closingBrace (s : Scan) : List Char := if s.brace.isSome then ['}'] else []

/-- What closes the parenthesis and the brace that are open. -/
def closing (s : Scan) : List Char :=
  if s.paren.isSome then ')' :: s.closingBrace else s.closingBrace

/-- Some text is read to its end from here, and what is held back is reported first. -/
def Completes (s : Scan) : Prop := ∀ position, ∃ more events,
  s.run position more = .after s.stage.pending (events, .ok ())

theorem stops_closingBrace (s : Scan) : Stops s.closingBrace := by
  unfold closingBrace
  split
  · exact stops_cons '}' [] (by decide)
  · exact stops_nil

theorem stops_closing (s : Scan) : Stops s.closing := by
  unfold closing
  split
  · exact stops_cons ')' _ (by decide)
  · exact s.stops_closingBrace

section Completions

variable {s : Scan} (hb : s.brace.isSome = true → s.shape.isList = true) (position : Nat)

include hb

theorem run_afterElement : ((s.goTo .afterElement).run position s.closingBrace).2 = .ok () := by
  unfold closingBrace
  split_ifs with hbrace
  · rw [run_cons, s.step_afterElement_brace position (hb hbrace) hbrace]
    rfl
  · rw [Option.not_isSome_iff_eq_none] at hbrace
    rw [run]
    show (s.goTo .afterElement).endOfList.2 = _
    simp only [endOfList, goTo, hbrace]
    rfl

theorem run_elementDone : (s.elementDone.run position s.closingBrace).2 = .ok () := by
  cases hl : s.shape.isList with
  | true =>
    have he : s.elementDone = ({ s with paren := none }).goTo .afterElement := by
      simp [elementDone, goTo, hl]
    rw [he]
    exact run_afterElement (s := { s with paren := none }) hb position
  | false =>
    have hbrace : s.brace.isSome = false := by
      rw [Bool.eq_false_iff]
      intro hsome
      rw [hb hsome] at hl
      cases hl
    have he : s.elementDone = ({ s with paren := none }).goTo .ended := by
      simp [elementDone, goTo, hl]
    rw [he, closingBrace, hbrace]
    rfl

theorem resume_closing : (s.resume position s.closing).2 = .ok () := by
  unfold closing
  split_ifs with hparen
  · rw [s.resume_paren position hparen, Reading.after_snd]
    exact run_elementDone hb (position + 1)
  · rw [Option.not_isSome_iff_eq_none] at hparen
    cases hl : s.shape.isList with
    | true =>
      rw [s.resume_element position hl hparen]
      exact run_afterElement hb position
    | false =>
      have hbrace : s.brace = none := by
        rw [← Option.not_isSome_iff_eq_none]
        intro hsome
        rw [hb hsome] at hl
        cases hl
      simp [closingBrace, hbrace, resume, endOfMember, endOfList, hparen, Reading.quiet]

theorem run_closing_afterPart (lead : Lead) (key : List Name) : ∃ events,
    (s.goTo (.afterPart lead key)).run position s.closing =
      .after (heldKey key ++ [.member]) (events, .ok ()) := by
  refine ⟨(s.resume position s.closing).1, ?_⟩
  rw [s.run_stops position lead key _ s.stops_closing, ← resume_closing hb position]

/-- A part that ends before what closes the text. -/
theorem partDone_completes (stage : ScanStage) (lead : Lead) (key : List Name) (part : Name)
    (hp : stage.pending =
      (completePart lead key part).1 ++ heldKey (completePart lead key part).2 ++ [.member])
    (hrun : ∀ position, (s.goTo stage).run position s.closing =
      .after (completePart lead key part).1
        ((s.goTo (.afterPart lead (completePart lead key part).2)).run position s.closing)) :
    (s.goTo stage).Completes := by
  intro position
  obtain ⟨events, he⟩ := run_closing_afterPart hb position lead (completePart lead key part).2
  refine ⟨s.closing, events, ?_⟩
  have hstage : (s.goTo stage).stage = stage := rfl
  rw [hrun, he, Reading.after_after, hstage, hp, List.append_assoc]

theorem closingBracket_completes (opened : Nat) (lead : Lead) (key : List Name) (body : List Char) :
    (s.goTo (.closingBracket opened lead key body)).Completes := by
  refine partDone_completes hb _ lead key (quotedPart body) rfl fun position => ?_
  refine s.run_partDone position _ lead key (quotedPart body) _ (fun p => rfl) ?_
  intro c hc p
  have hne : c ≠ ']' := by
    rintro rfl
    rcases s.stops_closing ']' hc with h | h | h <;> cases h
  simp only [step, goTo, if_neg hne]
  rfl

theorem inBare_completes (lead : Lead) (key : List Name) (body : List Char) :
    (s.goTo (.inBare lead key body)).Completes := by
  refine partDone_completes hb _ lead key (barePart body) rfl fun position => ?_
  refine s.run_inBare position lead key body _ ?_
  rw [s.stops_closing.dropWhile]
  exact s.stops_closing.reserved

omit hb in
/-- Where a character leads on quietly, it can be put first. -/
theorem Completes.of_step (hs : s.stage.pending = [])
    (c : Char) (h : ∀ position, ∃ next, s.step position c = .quiet next ∧ next.Completes) :
    s.Completes := by
  intro position
  obtain ⟨next, hstep, hn⟩ := h position
  obtain ⟨more, events, hmore⟩ := hn (position + 1)
  refine ⟨c :: more, next.stage.pending ++ events, ?_⟩
  rw [run_cons, hstep, Reading.quiet_andThen, hmore, hs]
  rfl

theorem inBrackets_completes (opened : Nat) (lead : Lead) (key : List Name) (body : List Char) :
    (s.goTo (.inBrackets opened lead key body)).Completes :=
  .of_step rfl ']' fun _ => ⟨_, rfl, closingBracket_completes hb opened lead key body⟩

theorem beforePart_completes (lead : Lead) (key : List Name) :
    (s.goTo (.beforePart lead key)).Completes :=
  .of_step rfl '[' fun position => ⟨_, rfl, inBrackets_completes hb position lead key []⟩

omit hb in
theorem ended_completes : (s.goTo .ended).Completes := fun _ => ⟨[], [], rfl⟩

/-- An element can start with a parenthesis or with a bracket. -/
theorem awaiting_completes (stage : ScanStage) (hs : stage.pending = [])
    (h : ∀ position c, c = '(' ∨ c = '[' →
      (s.goTo stage).step position c = (s.goTo stage).elementStart position c) :
    (s.goTo stage).Completes := by
  cases ht : s.shape.ofTuples with
  | true =>
    refine .of_step hs '(' fun position =>
      ⟨_, ?_, beforePart_completes (s := { s with paren := some position }) hb .name []⟩
    rw [h position '(' (.inl rfl)]
    simp [elementStart, goTo, ht]
  | false =>
    refine .of_step hs '[' fun position => ⟨_, ?_, inBrackets_completes hb position .name [] []⟩
    rw [h position '[' (.inr rfl)]
    simp only [elementStart, goTo, ht]
    rfl

theorem stage_completes (stage : ScanStage) : (s.goTo stage).Completes := by
  cases stage with
  | listStart => exact fun _ => ⟨[], [], rfl⟩
  | braceOpened => exact .of_step rfl '}' fun _ => ⟨_, rfl, ended_completes⟩
  | afterComma =>
    refine awaiting_completes hb _ rfl fun position c hc => ?_
    rcases hc with rfl | rfl <;> rfl
  | tupleStart =>
    refine awaiting_completes hb _ rfl fun position c hc => ?_
    rcases hc with rfl | rfl <;> rfl
  | beforePart lead key => exact beforePart_completes hb lead key
  | inBrackets opened lead key body => exact inBrackets_completes hb opened lead key body
  | closingBracket opened lead key body => exact closingBracket_completes hb opened lead key body
  | inBare lead key body => exact inBare_completes hb lead key body
  | afterPart lead key =>
    exact fun position => ⟨_, run_closing_afterPart hb position lead key⟩
  | afterElement =>
    intro position
    have hr := run_afterElement hb position
    exact ⟨s.closingBrace, _, Prod.ext rfl hr⟩
  | ended => exact ended_completes

/-- From every place in a text, some text leads to its end. -/
theorem completes : s.Completes := stage_completes hb s.stage

end Completions

theorem Reached.completed {shape : Shape} {s : Scan} {text : List Char}
    (hr : Reached shape s text) :
    ∃ more total, s.run text.length more = (total, .ok ()) ∧ s.stage.pending <+: total := by
  obtain ⟨more, total, hmore⟩ := completes hr.brace_isList text.length
  exact ⟨more, _, hmore, List.prefix_append _ _⟩

/-- A text is refused behind a front that can be completed, and what was reported is then the
beginning of what is reported. The refusal stands behind the front, and no text is accepted that has
the next character there too; or else the front is the text, and something in it is not closed. -/
theorem Reached.run_refused {shape : Shape} {s : Scan} {text : List Char}
    (hr : Reached shape s text) (cs : List Char) {events : List Event} {refusal : Refusal}
    (h : s.run text.length cs = (events, .error refusal)) : ∃ front behind, cs = front ++ behind ∧
      (∃ more total, s.run text.length (front ++ more) = (total, .ok ()) ∧ events <+: total) ∧
      ((refusal.position = (text ++ front).length ∧ ∀ c rest, behind = c :: rest →
          ∀ more, (s.run text.length (front ++ c :: more)).2 ≠ .ok ()) ∨
        behind = [] ∧ Unclosed shape (text ++ front) refusal.position) := by
  induction cs generalizing s text events with
  | nil =>
    have hevents := s.finish_refused text.length h
    refine ⟨[], [], rfl, hevents ▸ hr.completed, ?_⟩
    rw [List.append_nil]
    rcases hr.finish (congrArg Prod.snd h) with hp | hu
    · exact .inl ⟨hp, fun c rest hc => by cases hc⟩
    · exact .inr ⟨rfl, hu⟩
  | cons c cs ih =>
    rw [run_cons] at h
    rcases hs : s.step text.length c with ⟨before, refusal' | next⟩
    · rw [hs] at h
      cases h
      obtain ⟨hevents, hp⟩ := s.step_refused text.length c hs
      refine ⟨[], c :: cs, rfl, hevents ▸ hr.completed, .inl ⟨by rw [hp, List.append_nil], ?_⟩⟩
      rintro c' rest ⟨⟩ more hok
      rw [List.nil_append, run_cons, hs] at hok
      cases hok
    · rw [hs] at h
      obtain ⟨behind, hnext, rfl⟩ := (Reading.after_eq_iff _ _ _ _).mp h
      have hl : (text ++ [c]).length = text.length + 1 := List.length_append
      have hrun : ∀ cs', s.run text.length (c :: cs') =
          .after before (next.run (text ++ [c]).length cs') := by
        intro cs'
        rw [run_cons, hs, hl]
        rfl
      obtain ⟨front, rest, rfl, ⟨more, total, hmore, hbegins⟩, hplace⟩ :=
        ih (hr.step c (congrArg Prod.snd hs)) (hl ▸ hnext)
      refine ⟨c :: front, rest, rfl, ⟨more, before ++ total, ?_, ?_⟩, ?_⟩
      · rw [List.cons_append, hrun, hmore]
        rfl
      · exact (List.prefix_append_right_inj before).mpr hbegins
      · have ha : text ++ c :: front = text ++ [c] ++ front := by simp
        rw [ha]
        refine hplace.imp_left fun ⟨hp, hnone⟩ => ⟨hp, fun c' rest' hc' more' => ?_⟩
        rw [List.cons_append, hrun, Reading.after_snd]
        exact hnone c' rest' hc' more'

end Scan

end OlapClient
