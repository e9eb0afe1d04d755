import OlapClient.Proofs.Identifier.Elements
import OlapClient.Proofs.Identifier.Parsing

/-!
# Which texts are tuples and lists

A tuple is what stands in its parentheses, cut at commas into texts that are identifiers of their
own; a list is the same with or without braces, and its elements are identifiers or tuples. A comma
inside brackets is no cut, and what decides is that the texts between the cuts are elements. Blanks
around a text do not matter. For a list without braces this is read off the scan, which passes over
blanks at the end of a text as if they were not there (`run_append_blanks`).
-/

namespace OlapClient

open Spelling

/-! ### Blanks at the end of a text -/

namespace Reading

variable {α : Type}

theorem after_eq_iff (before events : List Event) (r : Reading α) (result : Except Refusal α) :
    after before r = (events, result) ↔
      ∃ behind, r = (behind, result) ∧ events = before ++ behind := by
  obtain ⟨behind, result'⟩ := r
  constructor
  · intro h
    simp only [after, Prod.mk.injEq] at h
    obtain ⟨rfl, rfl⟩ := h
    exact ⟨behind, rfl, rfl⟩
  · rintro ⟨behind', h, rfl⟩
    cases h
    rfl

/-- Two ways to go on that succeed alike. -/
theorem andThen_congr (r : Reading α) (next next' : α → Reading Unit)
    (h : ∀ a events, next a = (events, .ok ()) ↔ next' a = (events, .ok ())) (events : List Event) :
    r.andThen next = (events, .ok ()) ↔ r.andThen next' = (events, .ok ()) := by
  obtain ⟨before, a | a⟩ := r
  · rfl
  · simp only [andThen, after_eq_iff, h]

end Reading

namespace Scan

/-- Where the text ends matters only to the refusal. -/
theorem finish_eq_ok (s : Scan) (position position' : Nat) (events : List Event) :
    s.finish position = (events, .ok ()) ↔ s.finish position' = (events, .ok ()) := by
  cases hs : s.stage <;> simp [finish, hs, Reading.refuse]

/-- A text that ends with a blank ends as it would have before the blank. -/
theorem finish_after_blank (s : Scan) (position position' : Nat) (c : Char)
    (hc : Text.isBlank c = true) :
    ((s.step position c).andThen fun next => next.finish position') = s.finish position' := by
  have hend : endsBareName c = false := by
    have hr := not_reserved_of_blank c hc
    rw [← endsBareName_iff] at hr
    simpa using hr
  have hbracket : c ≠ ']' := by
    rintro rfl
    cases hc
  cases hs : s.stage with
  | inBrackets opened lead key body => simp [step, finish, hs, hbracket, goTo]
  | closingBracket opened lead key body =>
    simp [step, finish, hs, hbracket, partDone, partEnd, hc, goTo, endOfPart,
      endOfMember, endOfList]
  | inBare lead key body =>
    simp [step, finish, hs, hend, barePart_blank c body hc, goTo, endOfPart, endOfMember, endOfList]
  | _ => simp [step, finish, hs, hc, partStart, partEnd, separator, goTo, endOfMember, endOfList]

theorem run_blanks (s : Scan) (position position' : Nat) (gap : List Char) (hg : Blanks gap)
    (events : List Event) :
    s.run position gap = (events, .ok ()) ↔ s.finish position' = (events, .ok ()) := by
  induction gap generalizing s position events with
  | nil => exact s.finish_eq_ok position position' events
  | cons c gap ih =>
    have hc : Text.isBlank c = true := hg c List.mem_cons_self
    have hgap : Blanks gap := fun c' hc' => hg c' (List.mem_cons_of_mem _ hc')
    rw [run_cons, Reading.andThen_congr _ _ (fun next => next.finish position')
      (fun next events => ih next (position + 1) hgap events), s.finish_after_blank _ _ c hc]

theorem run_append_blanks (s : Scan) (position : Nat) (text gap : List Char) (hg : Blanks gap)
    (events : List Event) :
    s.run position (text ++ gap) = (events, .ok ()) ↔ s.run position text = (events, .ok ()) := by
  induction text generalizing s position events with
  | nil => exact s.run_blanks position position gap hg events
  | cons c text ih =>
    rw [List.cons_append, run_cons, run_cons]
    exact Reading.andThen_congr _ _ _ (fun next events => ih next (position + 1) events) events

end Scan

/-! ### Blanks around a text -/

namespace Spelling

theorem trim_split (text : List Char) : ∃ gap gap', text = gap ++ (Text.trimChars text ++ gap') ∧
    Blanks gap ∧ Blanks gap' := by
  obtain ⟨gap', hrest, hg'⟩ := split_trailing (text.dropWhile Text.isBlank)
  refine ⟨text.takeWhile Text.isBlank, gap', ?_, blanks_takeWhile text, hg'⟩
  rw [Text.trimChars, ← hrest, List.takeWhile_append_dropWhile]

theorem head?_trim (text : List Char) :
    (Text.trimChars text).head? = (text.dropWhile Text.isBlank).head? := by
  cases hd : text.dropWhile Text.isBlank with
  | nil => simp [Text.trimChars, hd, Text.dropTrailingBlanks]
  | cons c rest =>
    have hb : Text.isBlank c = false := not_blank_of_dropWhile text c (by rw [hd]; rfl)
    obtain ⟨gap, hrest, hg⟩ := split_trailing (c :: rest)
    rw [Text.trimChars, hd]
    cases hk : Text.dropTrailingBlanks (c :: rest) with
    | nil =>
      -- The character `c` would be one of the blanks.
      rw [hk, List.nil_append] at hrest
      have hc := hg c (by rw [← hrest]; exact List.mem_cons_self)
      rw [hb] at hc
      cases hc
    | cons c' kept =>
      rw [hk, List.cons_append] at hrest
      rw [(List.cons.inj hrest).1]
      rfl

theorem dropWhile_trim (text : List Char) :
    (Text.trimChars text).dropWhile Text.isBlank = Text.trimChars text := by
  have hhead := head?_trim text
  cases ht : Text.trimChars text with
  | nil => rfl
  | cons c rest =>
    rw [ht] at hhead
    have hb : Text.isBlank c = false := not_blank_of_dropWhile text c hhead.symm
    simp [hb]

theorem trim_brackets (gap text gap' : List Char) (c c' : Char) (hg : Blanks gap)
    (hg' : Blanks gap') (hc : Text.isBlank c = false) (hc' : Text.isBlank c' = false) :
    Text.trimChars (gap ++ c :: (text ++ c' :: gap')) = c :: (text ++ [c']) := by
  have hsplit : c :: (text ++ c' :: gap') = c :: (text ++ [c']) ++ gap' := by simp
  rw [hsplit]
  refine trim_enclosed gap _ gap' hg hg' ?_ ?_
  · intro d hd
    cases hd
    exact hc
  · intro d hd
    rw [← List.cons_append, List.getLast?_concat] at hd
    cases hd
    exact hc'

theorem trim_eq_iff (s before body behind : String) : Text.trim s = before ++ body ++ behind ↔
    Text.trimChars s.toList = before.toList ++ (body.toList ++ behind.toList) := by
  rw [← String.toList_inj, Text.trim, String.toList_ofList, String.toList_append,
    String.toList_append, List.append_assoc]

/-! ### Elements between commas -/

/-- A text is elements with commas between them. -/
def JoinOf {α : Type} (parse : String → Except IdentifierError α) (text : String)
    (elements : List α) : Prop :=
  ∃ texts, texts ≠ [] ∧ text = ",".intercalate texts ∧
    List.Forall₂ (fun text a => parse text = .ok a) texts elements

/-- A text is a list: elements with commas between them or none at all, in braces or without. -/
def ListOf {α : Type} (parse : String → Except IdentifierError α) (text : String)
    (elements : List α) : Prop :=
  ∃ body, (Text.trim text = "\x7b" ++ body ++ "\x7d" ∨
      Text.trim text = body ∧ body.toList.head? ≠ some '{') ∧
    (Text.isBlankText body = true ∧ elements = [] ∨ JoinOf parse body elements)

theorem joinOf_iff {α : Type} {parse : String → Except IdentifierError α}
    {reads : List Char → α → Prop} (h : ∀ text a, parse text = .ok a ↔ reads text.toList a)
    (text : String) (elements : List α) : JoinOf parse text elements ↔
      ∃ texts, texts ≠ [] ∧ text.toList = joined texts ∧ List.Forall₂ reads texts elements := by
  have hcomma : ",".toList = [','] := rfl
  constructor
  · rintro ⟨texts, hne, rfl, hall⟩
    refine ⟨texts.map String.toList, by simpa using hne, ?_, ?_⟩
    · rw [String.toList_intercalate, hcomma, joined]
    · rw [List.forall₂_map_left_iff]
      exact hall.imp fun text a => (h text a).mp
  · rintro ⟨texts, hne, htext, hall⟩
    refine ⟨texts.map String.ofList, by simpa using hne, ?_, ?_⟩
    · rw [← String.toList_inj, String.toList_intercalate, hcomma, htext, joined, List.map_map]
      simp [Function.comp_def]
    · rw [List.forall₂_map_left_iff]
      refine hall.imp fun text a ha => (h _ a).mpr ?_
      rwa [String.toList_ofList]

theorem listed_iff {α : Type} {parse : String → Except IdentifierError α}
    {reads : List Char → α → Prop} (h : ∀ text a, parse text = .ok a ↔ reads text.toList a)
    (text : String) (elements : List α) :
    (Text.isBlankText text = true ∧ elements = [] ∨ JoinOf parse text elements) ↔
      Listed reads text.toList elements := by
  rw [joinOf_iff h, Listed, Text.isBlankText, List.all_eq_true]
  rfl

end Spelling

/-! ### Kinds of lists -/

/-- What the lists of identifiers and the lists of tuples have in common. -/
structure ElementKind (α : Type) where
  shape : Shape
  reads : List Char → α → Prop
  events : α → List Event
  collect : Assembly → List α
  start_eq : Scan.start shape = { shape := shape, stage := .listStart }
  elements : ∀ s : Scan, s.shape = shape → s.paren = none → s.Elements reads events
  collect_events : ∀ as, collect (.ofEvents (as.flatMap events)) = as

namespace ElementKind

variable {α : Type} (k : ElementKind α)

def start : Scan := { shape := k.shape, stage := .listStart }

/-- The events of a list tell its elements. -/
theorem flatMap_injective (as bs : List α) (h : as.flatMap k.events = bs.flatMap k.events) :
    as = bs := by
  rw [← k.collect_events as, h, k.collect_events bs]

theorem starts_of_listed {text : List Char} {elements : List α}
    (h : Listed k.reads text elements) : (text.dropWhile Text.isBlank).head? ≠ some '{' := by
  obtain ⟨hg, -⟩ | ⟨texts, hne, rfl, hall⟩ := h
  · have hd := dropWhile_blanks text [] hg
    rw [List.append_nil] at hd
    simp [hd]
  · have hstarts := (k.elements k.start rfl rfl).starts_joined texts elements hall hne
    obtain ⟨c, hc, hopen, -⟩ := hstarts
    rw [hc]
    simpa using hopen

/-- A text without a brace before it is scanned as a list exactly if it is one. -/
theorem listed_iff_run (position : Nat) (text : List Char) (elements : List α)
    (ht : (text.dropWhile Text.isBlank).head? ≠ some '{') :
    Listed k.reads text elements ↔
      k.start.run position text = (elements.flatMap k.events, .ok ()) := by
  have e := k.elements k.start rfl rfl
  refine ⟨e.run_unbraced position rfl text elements, fun h => ?_⟩
  obtain ⟨elements', hl⟩ := e.listed_of_unbraced position rfl text ht (congrArg Prod.snd h)
  have hrun : k.start.run position text = (elements'.flatMap k.events, .ok ()) :=
    e.run_unbraced position rfl text elements' hl
  rw [hrun] at h
  rwa [← k.flatMap_injective elements' elements (congrArg Prod.fst h)]

theorem listed_trim (text : List Char) (elements : List α)
    (ht : (text.dropWhile Text.isBlank).head? ≠ some '{') :
    Listed k.reads (Text.trimChars text) elements ↔ Listed k.reads text elements := by
  obtain ⟨gap, gap', hsplit, hg, hg'⟩ := trim_split text
  have htrim : ((Text.trimChars text).dropWhile Text.isBlank).head? ≠ some '{' := by
    rwa [dropWhile_trim, head?_trim]
  have hskip : k.start.run 0 text = k.start.run gap.length (Text.trimChars text ++ gap') := by
    have haw := k.start.skips_awaiting .listStart (.inl rfl)
    have hrun := haw.run 0 gap (Text.trimChars text ++ gap') hg
    rw [← hsplit, Nat.zero_add] at hrun
    exact hrun
  rw [k.listed_iff_run gap.length _ elements htrim, k.listed_iff_run 0 text elements ht, hskip,
    Scan.run_append_blanks _ _ _ gap' hg']

/-! ### Lists with and without braces -/

def IsList (text : List Char) (elements : List α) : Prop :=
  Listed k.reads text elements ∨ ∃ gap body gap', text = gap ++ '{' :: (body ++ '}' :: gap') ∧
    Blanks gap ∧ Blanks gap' ∧ Listed k.reads body elements

/-- A scan within the braces of a list. -/
def inner (opened : Nat) : Scan :=
  { shape := k.shape, brace := some opened, stage := .braceOpened }

theorem run_brace (gap rest : List Char) (hg : Blanks gap) :
    k.start.run 0 (gap ++ '{' :: rest) = (k.inner gap.length).run (gap.length + 1) rest := by
  have hskip := (k.start.skips_awaiting .listStart (.inl rfl)).run 0 gap ('{' :: rest) hg
  have hs : k.start.step gap.length '{' = .quiet (k.inner gap.length) := rfl
  have hgap : k.start.run 0 (gap ++ '{' :: rest) = k.start.run gap.length ('{' :: rest) := by
    rw [Nat.zero_add] at hskip
    exact hskip
  rw [hgap, Scan.run_cons, hs, Reading.quiet_andThen]

theorem run_list {text : List Char} {elements : List α} (h : k.IsList text elements) :
    (Scan.start k.shape).run 0 text = (elements.flatMap k.events, .ok ()) := by
  rw [k.start_eq]
  obtain hl | ⟨gap, body, gap', rfl, hg, hg', hl⟩ := h
  · exact (k.elements k.start rfl rfl).run_unbraced 0 rfl text elements hl
  · have e := k.elements (k.inner gap.length) rfl rfl
    exact (k.run_brace gap _ hg).trans (e.run_braced _ rfl body gap' elements hl hg')

theorem list_of_accepted (text : List Char)
    (h : ((Scan.start k.shape).run 0 text).2 = .ok ()) : ∃ elements, k.IsList text elements := by
  rw [k.start_eq] at h
  by_cases ht : (text.dropWhile Text.isBlank).head? = some '{'
  · obtain ⟨rest, hd⟩ := List.head?_eq_some_iff.mp ht
    have hsplit : text = text.takeWhile Text.isBlank ++ '{' :: rest := by
      rw [← hd]
      exact List.takeWhile_append_dropWhile.symm
    have hg := blanks_takeWhile text
    have e := k.elements (k.inner (text.takeWhile Text.isBlank).length) rfl rfl
    have hrun : (k.start.run 0 text).2 = .ok () := h
    rw [hsplit, k.run_brace _ rest hg] at hrun
    obtain ⟨body, gap', elements, rfl, hg', hl⟩ := e.listed_of_braced _ rfl rest hrun
    exact ⟨elements, .inr ⟨_, body, gap', hsplit, hg, hg', hl⟩⟩
  · have e := k.elements k.start rfl rfl
    obtain ⟨elements, hl⟩ := e.listed_of_unbraced 0 rfl text ht h
    exact ⟨elements, .inl hl⟩

theorem parse_eq_ok_iff (s : String) (elements : List α) :
    (Assembly.parse k.shape s).map k.collect = .ok elements ↔ k.IsList s.toList elements := by
  have hparse : ∀ elements, k.IsList s.toList elements →
      (Assembly.parse k.shape s).map k.collect = .ok elements := by
    intro elements h
    rw [Assembly.parse_of_scan k.shape s _ (k.run_list h), Except.map, k.collect_events]
  refine ⟨fun h => ?_, hparse elements⟩
  rcases Assembly.parse_cases k.shape s with ⟨refusal, he⟩ | hs
  · rw [he] at h
    cases h
  · obtain ⟨elements', hl⟩ := k.list_of_accepted s.toList hs
    rw [hparse elements' hl] at h
    cases h
    exact hl

theorem isList_iff_unbraced (text : List Char) (elements : List α)
    (ht : (text.dropWhile Text.isBlank).head? ≠ some '{') :
    k.IsList text elements ↔ Listed k.reads text elements := by
  refine ⟨?_, .inl⟩
  rintro (hl | ⟨gap, body, gap', rfl, hg, -⟩)
  · exact hl
  · rw [dropWhile_first gap '{' _ hg (by decide)] at ht
    exact absurd rfl ht

theorem isList_iff_braced (text body : List Char) (elements : List α)
    (ht : Text.trimChars text = '{' :: (body ++ ['}'])) :
    k.IsList text elements ↔ Listed k.reads body elements := by
  constructor
  · rintro (hl | ⟨gap, body', gap', rfl, hg, hg', hl⟩)
    · have hhead := head?_trim text
      rw [ht] at hhead
      exact absurd hhead.symm (k.starts_of_listed hl)
    · rw [trim_brackets gap body' gap' '{' '}' hg hg' (by decide) (by decide)] at ht
      have hbody := List.append_cancel_right (List.cons.inj ht).2
      rwa [← hbody]
  · intro hl
    obtain ⟨gap, gap', hsplit, hg, hg'⟩ := trim_split text
    rw [ht] at hsplit
    exact .inr ⟨gap, body, gap', by simp [hsplit], hg, hg', hl⟩

theorem isList_iff_listOf {parse : String → Except IdentifierError α}
    (h : ∀ text a, parse text = .ok a ↔ k.reads text.toList a) (s : String) (elements : List α) :
    k.IsList s.toList elements ↔ ListOf parse s elements := by
  simp only [ListOf, listed_iff h]
  constructor
  · rintro (hl | ⟨gap, body, gap', hs, hg, hg', hl⟩)
    · have ht := k.starts_of_listed hl
      refine ⟨Text.trim s, .inr ⟨rfl, ?_⟩, ?_⟩
      · rwa [Text.trim, String.toList_ofList, head?_trim]
      · rw [Text.trim, String.toList_ofList]
        exact (k.listed_trim s.toList elements ht).mpr hl
    · have hbody : (String.ofList body).toList = body := String.toList_ofList
      refine ⟨String.ofList body, .inl ?_, ?_⟩
      · rw [trim_eq_iff, hs, trim_brackets gap body gap' '{' '}' hg hg' (by decide) (by decide),
          hbody]
        rfl
      · rwa [hbody]
  · rintro ⟨body, hbody | ⟨rfl, ht⟩, hl⟩
    · exact (k.isList_iff_braced s.toList body.toList elements
        ((trim_eq_iff _ _ _ _).mp hbody)).mpr hl
    · rw [Text.trim, String.toList_ofList] at ht hl
      rw [head?_trim] at ht
      exact .inl ((k.listed_trim s.toList elements ht).mp hl)

/-- Braces around a list that has none change nothing. -/
theorem isList_add_braces (text : List Char) (elements : List α)
    (ht : (text.dropWhile Text.isBlank).head? ≠ some '{') :
    k.IsList text elements ↔ k.IsList ('{' :: (text ++ ['}'])) elements := by
  have htrim : Text.trimChars ('{' :: (text ++ ['}'])) = '{' :: (text ++ ['}']) :=
    trim_brackets [] text [] '{' '}' blanks_nil blanks_nil (by decide) (by decide)
  rw [k.isList_iff_unbraced text elements ht, k.isList_iff_braced _ text elements htrim]

end ElementKind

/-! ### Identifiers and tuples as elements -/

namespace Assembly

theorem add_members (a : Assembly) (ha : a.segments = []) (members : List Identifier) :
    (members.flatMap Scan.memberEvents).foldl add a =
      { a with members := a.members ++ members } := by
  induction members generalizing a with
  | nil => simp
  | cons i members ih =>
    rw [List.flatMap_cons, List.foldl_append, add_member a ha,
      ih { a with members := a.members ++ [i] } ha]
    simp

theorem add_tuples (a : Assembly) (ha : a.segments = []) (hm : a.members = [])
    (tuples : List Tuple) :
    (tuples.flatMap Scan.tupleEvents).foldl add a = { a with tuples := a.tuples ++ tuples } := by
  induction tuples generalizing a with
  | nil => simp
  | cons t tuples ih =>
    have ht : (Scan.tupleEvents t).foldl add a = { a with tuples := a.tuples ++ [t] } := by
      rw [Scan.tupleEvents, List.foldl_append, add_members a ha]
      simp [add, hm]
    rw [List.flatMap_cons, List.foldl_append, ht, ih { a with tuples := a.tuples ++ [t] } ha hm]
    simp

end Assembly

namespace Identifier

def elementKind : ElementKind Identifier where
  shape := .memberList
  reads := Reads
  events := Scan.memberEvents
  collect := Assembly.members
  start_eq := rfl
  elements s hs hp := s.memberElements hs hp
  collect_events members := by
    rw [Assembly.ofEvents, Assembly.add_members {} rfl]
    rfl

theorem parseList_iff (s : String) (members : List Identifier) :
    parseList s = .ok members ↔ elementKind.IsList s.toList members :=
  elementKind.parse_eq_ok_iff s members

end Identifier

namespace Tuple

def elementKind : ElementKind Tuple where
  shape := .tupleList
  reads := ReadsTuple
  events := Scan.tupleEvents
  collect := Assembly.tuples
  start_eq := rfl
  elements s hs hp := s.tupleElements hs hp
  collect_events tuples := by
    rw [Assembly.ofEvents, Assembly.add_tuples {} rfl rfl]
    rfl

theorem parseList_iff (s : String) (tuples : List Tuple) :
    parseList s = .ok tuples ↔ elementKind.IsList s.toList tuples :=
  elementKind.parse_eq_ok_iff s tuples

/-! ### One tuple -/

theorem skips_start : (Scan.start .tuple).Skips := by
  intro p c hc
  simp [Scan.step, Scan.start, hc]

theorem scan_of_reads (s : String) (t : Tuple) (h : ReadsTuple s.toList t) :
    Event.scan .tuple s = (Scan.tupleEvents t, .ok ()) := by
  obtain ⟨gap, texts, gap', hs, hg, hg', hne, hall⟩ := h
  have hstep : ∀ p, (Scan.start .tuple).step p '(' = (Scan.start .tuple).elementStart p '(' :=
    fun p => rfl
  have hdone : (Scan.start .tuple).elementDone = (Scan.start .tuple).goTo .ended := rfl
  rw [Event.scan, hs, skips_start.run 0 gap _ hg, Scan.run_cons, hstep,
    (Scan.start .tuple).run_parenthesised _ rfl texts t.members hall hne, hdone,
    (Scan.start .tuple).run_ended _ gap' hg']
  simp [Reading.after, Reading.quiet]

theorem reads_of_scan (s : String) (h : (Event.scan .tuple s).2 = .ok ()) :
    ∃ t, ReadsTuple s.toList t := by
  rw [Event.scan] at h
  rcases blanks_or_first s.toList with hg | ⟨gap, c, rest, hs, hg, hb⟩
  · rw [skips_start.run_end 0 s.toList hg] at h
    cases h
  · have hstep : ∀ p, (Scan.start .tuple).step p c = (Scan.start .tuple).elementStart p c := by
      intro p
      simp only [Scan.step, Scan.start, hb]
      rfl
    rw [hs, skips_start.run 0 gap _ hg, Scan.run_cons, hstep] at h
    obtain ⟨rfl, texts, members, gap', rfl, hne, hall⟩ :=
      (Scan.start .tuple).parenthesised_of_accepted _ rfl c rest h
    rw [(Scan.start .tuple).run_parenthesised _ rfl texts members hall hne, Reading.after_snd] at h
    have hg' : Blanks gap' := (Scan.start .tuple).blanks_of_ended _ gap' h
    exact ⟨⟨members⟩, gap, texts, gap', hs, hg, hg', hne, hall⟩

theorem parse_eq_ok_iff (s : String) (t : Tuple) :
    Tuple.parse s = .ok t ↔ ReadsTuple s.toList t := by
  have hparse : ∀ t, ReadsTuple s.toList t → Tuple.parse s = .ok t := by
    intro t h
    have ha := Assembly.parse_of_scan .tuple s _ (scan_of_reads s t h)
    have ht : (Assembly.ofEvents (Scan.tupleEvents t)).tuples = [t] := by
      have he : Scan.tupleEvents t = [t].flatMap Scan.tupleEvents := by simp
      rw [he]
      exact elementKind.collect_events [t]
    simp [Tuple.parse, ha, ht, bind, Except.bind]
  refine ⟨fun h => ?_, hparse t⟩
  rcases Assembly.parse_cases .tuple s with ⟨refusal, he⟩ | hs
  · simp [Tuple.parse, he, bind, Except.bind] at h
  · obtain ⟨t', ht⟩ := reads_of_scan s hs
    rw [hparse t' ht] at h
    cases h
    exact ht

theorem readsTuple_iff (s : String) (t : Tuple) : ReadsTuple s.toList t ↔
    ∃ body, Text.trim s = "(" ++ body ++ ")" ∧ JoinOf Identifier.parse body t.members := by
  simp only [joinOf_iff Identifier.parse_eq_ok_iff]
  constructor
  · rintro ⟨gap, texts, gap', hs, hg, hg', hne, hall⟩
    have hbody : (String.ofList (joined texts)).toList = joined texts := String.toList_ofList
    refine ⟨String.ofList (joined texts), ?_, texts, hne, hbody, hall⟩
    rw [trim_eq_iff, hs, trim_brackets gap _ gap' '(' ')' hg hg' (by decide) (by decide), hbody]
    rfl
  · rintro ⟨body, htrim, texts, hne, hbody, hall⟩
    obtain ⟨gap, gap', hsplit, hg, hg'⟩ := trim_split s.toList
    rw [(trim_eq_iff _ _ _ _).mp htrim, hbody] at hsplit
    refine ⟨gap, texts, gap', ?_, hg, hg', hne, hall⟩
    rw [hsplit]
    simp

end Tuple

/-- Tuples and lists are elements with commas between them, each of which is read as it would be
alone. -/
theorem Identifier.lists_are_joined (s : String) :
    (∀ t, Tuple.parse s = .ok t ↔
      ∃ body, Text.trim s = "(" ++ body ++ ")" ∧ JoinOf Identifier.parse body t.members) ∧
    (∀ members, Identifier.parseList s = .ok members ↔ ListOf Identifier.parse s members) ∧
    (∀ tuples, Tuple.parseList s = .ok tuples ↔ ListOf Tuple.parse s tuples) ∧
    ((s.toList.dropWhile Text.isBlank).head? ≠ some '{' →
      (∀ members, Identifier.parseList s = .ok members ↔
        Identifier.parseList ("\x7b" ++ s ++ "\x7d") = .ok members) ∧
      ∀ tuples, Tuple.parseList s = .ok tuples ↔
        Tuple.parseList ("\x7b" ++ s ++ "\x7d") = .ok tuples) := by
  have hbraces : ("\x7b" ++ s ++ "\x7d").toList = '{' :: (s.toList ++ ['}']) := by simp
  refine ⟨?_, ?_, ?_, fun hs => ⟨?_, ?_⟩⟩
  · intro t
    rw [Tuple.parse_eq_ok_iff, Tuple.readsTuple_iff]
  · intro members
    rw [Identifier.parseList_iff]
    exact Identifier.elementKind.isList_iff_listOf Identifier.parse_eq_ok_iff s members
  · intro tuples
    rw [Tuple.parseList_iff]
    exact Tuple.elementKind.isList_iff_listOf Tuple.parse_eq_ok_iff s tuples
  · intro members
    rw [Identifier.parseList_iff, Identifier.parseList_iff, hbraces]
    exact Identifier.elementKind.isList_add_braces s.toList members hs
  · intro tuples
    rw [Tuple.parseList_iff, Tuple.parseList_iff, hbraces]
    exact Tuple.elementKind.isList_add_braces s.toList tuples hs

/-- A comma in brackets joins nothing. -/
theorem Identifier.commas_join :
    Tuple.parse " ([a,b], c)" = .ok ⟨[⟨[.quoted "a,b"]⟩, ⟨[.unquoted "c"]⟩]⟩ ∧
    Identifier.parseList "\x7b[a,b], c\x7d" = .ok [⟨[.quoted "a,b"]⟩, ⟨[.unquoted "c"]⟩] := by
  have hjoin : JoinOf Identifier.parse "[a,b], c" [⟨[.quoted "a,b"]⟩, ⟨[.unquoted "c"]⟩] :=
    ⟨["[a,b]", " c"], by decide, rfl, .cons (by decide) (.cons (by decide) .nil)⟩
  have hlist : Identifier.parseList "[a,b], c" = .ok [⟨[.quoted "a,b"]⟩, ⟨[.unquoted "c"]⟩] :=
    ((lists_are_joined _).2.1 _).mpr ⟨"[a,b], c", .inr (by decide), .inr hjoin⟩
  exact ⟨((lists_are_joined _).1 _).mpr ⟨"[a,b], c", by decide, hjoin⟩,
    (((lists_are_joined "[a,b], c").2.2.2 (by decide)).1 _).mp hlist⟩

end OlapClient
