import OlapClient.Proofs.Identifier.Lists
import OlapClient.Proofs.Identifier.RoundTrip

/-!
# Lists and tuples written and read again

What is written puts a blank behind every comma, and the element behind it is read as if the blank
were not there. A list of identifiers and a tuple are read again as they were written. A list of
tuples is not, as soon as one of them has no member or a single one: the single one is written
without parentheses, and the scan stops there, whatever the tuples before it are.
-/

namespace OlapClient

namespace Spelling

/-! ### Blanks before an element -/

theorem blanks_append (gap gap' : List Char) (hg : Blanks gap) (hg' : Blanks gap') :
    Blanks (gap ++ gap') := by
  intro c hc
  rcases List.mem_append.mp hc with hc | hc
  · exact hg c hc
  · exact hg' c hc

theorem Opening.after_blanks {opening gap : List Char} {link : Link} (h : Opening opening link)
    (hg : Blanks gap) : Opening (gap ++ opening) link := by
  cases h with
  | name _ hg' => exact .name (gap ++ opening) (blanks_append gap opening hg hg')
  | key gap' gap'' hg' hg'' =>
    have hk := Opening.key (gap ++ gap') gap'' (blanks_append gap gap' hg hg') hg''
    simpa using hk

theorem Reads.after_blanks {text gap : List Char} {i : Identifier} (h : Reads text i)
    (hg : Blanks gap) : Reads (gap ++ text) i := by
  obtain ⟨pieces, ⟨opening, text, rest, link, name, pieces, ho, hp, ht⟩, hi⟩ := h
  have hs := Spelled.mk (gap ++ opening) text rest link name pieces (ho.after_blanks hg) hp ht
  refine ⟨_, ?_, hi⟩
  simpa using hs

theorem ReadsTuple.after_blanks {text gap : List Char} {t : Tuple} (h : ReadsTuple text t)
    (hg : Blanks gap) : ReadsTuple (gap ++ text) t := by
  obtain ⟨gap', texts, gap'', rfl, hg', hg'', hne, hall⟩ := h
  exact ⟨gap ++ gap', texts, gap'', by simp, blanks_append gap gap' hg hg', hg'', hne, hall⟩

theorem blanks_space : Blanks [' '] := by
  intro c hc
  cases List.mem_singleton.mp hc
  exact Text.isBlank_space

/-! ### Elements with a comma and a blank between them -/

theorem commaSeparated_cons_cons (item item' : List Char) (items : List (List Char)) :
    commaSeparated (item :: item' :: items) =
      item ++ ',' :: ' ' :: commaSeparated (item' :: items) := by
  simp [commaSeparated]

theorem commaSeparated_eq_joined (item : List Char) (items : List (List Char)) :
    commaSeparated (item :: items) = joined (item :: items.map (' ' :: ·)) := by
  induction items generalizing item with
  | nil => simp [commaSeparated, joined]
  | cons item' items ih =>
    -- The blank moves from the separator to the element behind it.
    have hblank : ∀ texts, ' ' :: joined (item' :: texts) = joined ((' ' :: item') :: texts) := by
      intro texts
      cases texts with
      | nil => simp [joined_singleton]
      | cons text texts => simp [joined_cons_cons]
    rw [commaSeparated_cons_cons, ih, List.map_cons, joined_cons_cons, hblank]

/-- What is written for elements is those elements with commas between them. -/
theorem listed_commaSeparated {α : Type} (reads : List Char → α → Prop) (chars : α → List Char)
    (elements : List α) (h : ∀ a ∈ elements, reads (chars a) a ∧ reads (' ' :: chars a) a)
    (hne : elements ≠ []) : ∃ texts, texts ≠ [] ∧
      commaSeparated (elements.map chars) = joined texts ∧ List.Forall₂ reads texts elements := by
  obtain ⟨a, elements, rfl⟩ := List.exists_cons_of_ne_nil hne
  refine ⟨chars a :: (elements.map chars).map (' ' :: ·), by simp, ?_, ?_⟩
  · rw [List.map_cons, commaSeparated_eq_joined]
  · have hrest : ∀ a' ∈ elements, reads (' ' :: chars a') a' := fun a' hmem =>
      (h a' (List.mem_cons_of_mem _ hmem)).2
    refine .cons (h a List.mem_cons_self).1 ?_
    rw [List.map_map, List.forall₂_map_left_iff, List.forall₂_same]
    exact hrest

end Spelling

open Spelling

/-! ### Lists of identifiers and tuples -/

theorem Identifier.reads_spaced (i : Identifier) (h : i.Writable) :
    Reads i.chars i ∧ Reads (' ' :: i.chars) i :=
  ⟨reads_chars i h, (reads_chars i h).after_blanks blanks_space⟩

theorem Tuple.reads_chars (t : Tuple) (hne : t.members ≠ []) (h : ∀ i ∈ t.members, i.Writable) :
    ReadsTuple t.chars t := by
  obtain ⟨texts, htexts, hchars, hall⟩ := listed_commaSeparated Reads Identifier.chars t.members
    (fun i hi => i.reads_spaced (h i hi)) hne
  exact ⟨[], texts, [], by rw [Tuple.chars, hchars, List.nil_append], blanks_nil, blanks_nil,
    htexts, hall⟩

theorem Identifier.parseList_text (members : List Identifier) (h : ∀ i ∈ members, i.Writable) :
    parseList (memberListText members) = .ok members := by
  rw [parseList_iff, memberListText, String.toList_ofList]
  refine .inr ⟨[], commaSeparated (members.map chars), [], rfl, blanks_nil, blanks_nil, ?_⟩
  cases members with
  | nil => exact .inl ⟨blanks_nil, rfl⟩
  | cons i members =>
    obtain ⟨texts, hne, hchars, hall⟩ := listed_commaSeparated Reads chars (i :: members)
      (fun i hi => i.reads_spaced (h i hi)) (by simp)
    exact .inr ⟨texts, hne, hchars, hall⟩

namespace Tuple

theorem parse_text (t : Tuple) (hne : t.members ≠ []) (h : ∀ i ∈ t.members, i.Writable) :
    parse t.text = .ok t := by
  rw [parse_eq_ok_iff, text, String.toList_ofList]
  exact t.reads_chars hne h

/-! ### Lists of tuples -/

theorem elementChars_eq (t : Tuple) (h : 2 ≤ t.size) : t.elementChars = t.chars := by
  obtain ⟨members⟩ := t
  match members with
  | [] => exact absurd h (by decide)
  | [_] => exact absurd h (by simp [size])
  | _ :: _ :: _ => rfl

theorem members_ne_nil (t : Tuple) (h : 2 ≤ t.size) : t.members ≠ [] := by
  intro hnil
  rw [size, hnil] at h
  exact absurd h (by decide)

theorem reads_element (t : Tuple) (hsize : 2 ≤ t.size) (h : ∀ i ∈ t.members, i.Writable) :
    ReadsTuple t.elementChars t := by
  rw [t.elementChars_eq hsize]
  exact t.reads_chars (t.members_ne_nil hsize) h

theorem parseList_text (tuples : List Tuple) (h : ∀ t ∈ tuples, ∀ i ∈ t.members, i.Writable)
    (hsize : ∀ t ∈ tuples, 2 ≤ t.size) : parseList (tupleListText tuples) = .ok tuples := by
  rw [parseList_iff, tupleListText, String.toList_ofList]
  refine .inr ⟨[], commaSeparated (tuples.map elementChars), [], rfl, blanks_nil, blanks_nil, ?_⟩
  cases tuples with
  | nil => exact .inl ⟨blanks_nil, rfl⟩
  | cons t tuples =>
    have hreads : ∀ t' ∈ t :: tuples,
        ReadsTuple t'.elementChars t' ∧ ReadsTuple (' ' :: t'.elementChars) t' := by
      intro t' ht'
      have hr := t'.reads_element (hsize t' ht') (h t' ht')
      exact ⟨hr, hr.after_blanks blanks_space⟩
    obtain ⟨texts, hne, hchars, hall⟩ := listed_commaSeparated ReadsTuple elementChars (t :: tuples)
      hreads (by simp)
    exact .inr ⟨texts, hne, hchars, hall⟩

/-- Where a tuple of fewer than two members is written, no tuple is read. -/
theorem refuses_short (s : Scan) (hs : s.shape.ofTuples = true) (position : Nat)
    (stage : ScanStage) (hst : Scan.Awaits stage) (gap : List Char) (hg : Blanks gap) (t : Tuple)
    (hsize : t.size < 2) (h : ∀ i ∈ t.members, i.Writable) (rest : List Char) :
    ((s.goTo stage).run position (gap ++ (t.elementChars ++ rest))).2 ≠ .ok () := by
  intro hok
  rw [(s.skips_awaiting stage hst).run position gap _ hg] at hok
  obtain ⟨members⟩ := t
  match members with
  | [] =>
    have helement : elementChars ⟨[]⟩ ++ rest = '(' :: ')' :: rest := rfl
    rw [helement, Scan.run_cons, s.step_awaiting _ stage hst '(' (by decide) (by decide)] at hok
    have hopen : ∀ p, s.elementStart p '(' =
        .quiet { s with paren := some p, stage := .beforePart .name [] } := by
      intro p
      simp [Scan.elementStart, hs]
    rw [hopen, Reading.quiet_andThen, Scan.run_cons] at hok
    cases hok
  | [i] =>
    have helement : elementChars ⟨[i]⟩ = i.chars := rfl
    obtain ⟨gap', c, rest', hi, hg', hb, hopen, hbrace⟩ :=
      (Spelling.reads_chars i (h i List.mem_cons_self)).first
    rw [helement, hi, List.append_assoc, List.cons_append,
      (s.skips_awaiting stage hst).run _ gap' _ hg', Scan.run_cons,
      s.step_awaiting _ stage hst c hb hbrace] at hok
    exact hopen (s.parenthesised_of_accepted _ hs c _ hok).1
  | _ :: _ :: _ => exact absurd hsize (by simp [size])

/-- The tuples before the first short one are read, and there the text is refused. -/
theorem refuses_list (s : Scan) (hs : s.shape = .tupleList) (hp : s.paren = none)
    (tuples : List Tuple) (h : ∀ t ∈ tuples, ∀ i ∈ t.members, i.Writable)
    (hshort : ∃ t ∈ tuples, t.size < 2) (position : Nat) (stage : ScanStage)
    (hst : Scan.Awaits stage) (gap : List Char) (hg : Blanks gap) (rest : List Char) :
    ((s.goTo stage).run position
      (gap ++ (commaSeparated (tuples.map elementChars) ++ rest))).2 ≠ .ok () := by
  induction tuples generalizing position stage gap with
  | nil =>
    obtain ⟨t, ht, -⟩ := hshort
    cases ht
  | cons t tuples ih =>
    have ht : ∀ i ∈ t.members, i.Writable := h t List.mem_cons_self
    have htuples : ∀ t' ∈ tuples, ∀ i ∈ t'.members, i.Writable := fun t' hmem =>
      h t' (List.mem_cons_of_mem _ hmem)
    have hof : s.shape.ofTuples = true := by rw [hs]; rfl
    obtain ⟨behind, hbehind⟩ : ∃ behind, commaSeparated ((t :: tuples).map elementChars) ++ rest =
        t.elementChars ++ behind := by
      cases tuples with
      | nil => exact ⟨rest, by simp [commaSeparated]⟩
      | cons t' tuples =>
        exact ⟨',' :: ' ' :: (commaSeparated ((t' :: tuples).map elementChars) ++ rest),
          by simp [commaSeparated_cons_cons]⟩
    rcases Nat.lt_or_ge t.size 2 with hsize | hsize
    · rw [hbehind]
      exact refuses_short s hof position stage hst gap hg t hsize ht behind
    · have hrest : ∃ t' ∈ tuples, t'.size < 2 := by
        obtain ⟨t', hmem, hlt⟩ := hshort
        rcases List.mem_cons.mp hmem with rfl | hmem
        · omega
        · exact ⟨t', hmem, hlt⟩
      obtain ⟨t', tuples', rfl⟩ :=
        List.exists_cons_of_ne_nil (List.ne_nil_of_mem hrest.choose_spec.1)
      have e := s.tupleElements hs hp
      have hreads := (t.reads_element hsize ht).after_blanks hg
      have hstarts := (e.starts _ t hreads).append
        (',' :: ([' '] ++ (commaSeparated ((t' :: tuples').map elementChars) ++ rest)))
      have hsplit : gap ++ (commaSeparated ((t :: t' :: tuples').map elementChars) ++ rest) =
          gap ++ t.elementChars ++
            ',' :: ([' '] ++ (commaSeparated ((t' :: tuples').map elementChars) ++ rest)) := by
        simp [commaSeparated_cons_cons]
      rw [hsplit, s.run_awaiting position stage hst _ hstarts,
        e.alternate.run position _ t _ hreads (stops_cons ',' _ (by decide)), e.alternate.comma,
        Reading.after_snd]
      exact ih htuples hrest _ .afterComma (.inr (.inr rfl)) [' '] blanks_space

theorem parseList_short (tuples : List Tuple) (h : ∀ t ∈ tuples, ∀ i ∈ t.members, i.Writable)
    (hshort : ∃ t ∈ tuples, t.size < 2) :
    ∃ refusal,
      parseList (tupleListText tuples) = .error (.refused refusal (tupleListText tuples)) := by
  rcases Assembly.parse_cases .tupleList (tupleListText tuples) with ⟨refusal, he⟩ | hok
  · exact ⟨refusal, by rw [parseList, he, Except.map]⟩
  · have hrun :=
      elementKind.run_brace [] (commaSeparated (tuples.map elementChars) ++ ['}']) blanks_nil
    have hrefused := refuses_list (elementKind.inner 0) rfl rfl tuples h hshort 1 .braceOpened
      (.inr (.inl rfl)) [] blanks_nil ['}']
    rw [Event.scan, tupleListText, String.toList_ofList, braced] at hok
    exact absurd (hrun ▸ hok) hrefused

end Tuple

/-- Lists of identifiers and tuples that can be written are read again as they were; lists of tuples
are exactly if each of the tuples has at least two members, and are refused if one has fewer. -/
theorem Tuple.lists_read_again :
    (∀ members : List Identifier, (∀ i ∈ members, i.Writable) →
      Identifier.parseList (memberListText members) = .ok members) ∧
    (∀ t : Tuple, t.members ≠ [] → (∀ i ∈ t.members, i.Writable) → Tuple.parse t.text = .ok t) ∧
    ∀ tuples : List Tuple, (∀ t ∈ tuples, ∀ i ∈ t.members, i.Writable) →
      ((∀ t ∈ tuples, 2 ≤ t.size) → Tuple.parseList (tupleListText tuples) = .ok tuples) ∧
      ((∃ t ∈ tuples, t.size < 2) → ∃ refusal, Tuple.parseList (tupleListText tuples) =
        .error (.refused refusal (tupleListText tuples))) :=
  ⟨Identifier.parseList_text, Tuple.parse_text, fun tuples h =>
    ⟨Tuple.parseList_text tuples h, Tuple.parseList_short tuples h⟩⟩

/-- A tuple of two members is read again; behind it the member alone is refused. -/
theorem Tuple.pair_read_again :
    let city : Identifier := ⟨[.quoted "a, b"]⟩
    let year : Identifier := ⟨[.unquoted "c d", .key [.unquoted "1", .quoted "]"]]⟩
    Identifier.parseList (memberListText [city, year]) = .ok [city, year] ∧
    Tuple.parse (Tuple.text ⟨[year]⟩) = .ok ⟨[year]⟩ ∧
    Tuple.parseList (tupleListText [⟨[city, year]⟩]) = .ok [⟨[city, year]⟩] ∧
    ∃ refusal, Tuple.parseList (tupleListText [⟨[city, year]⟩, ⟨[city]⟩]) =
      .error (.refused refusal (tupleListText [⟨[city, year]⟩, ⟨[city]⟩])) := by
  intro city year
  have hcity : city.Writable := ((Identifier.parse_eq_ok_iff "[a, b]" city).mp rfl).writable
  have hyear : year.Writable := ((Identifier.parse_eq_ok_iff "c d.&1&[]]]" year).mp rfl).writable
  have hpair : ∀ i ∈ [city, year], i.Writable := by
    intro i hi
    rcases List.mem_pair.mp hi with rfl | rfl
    · exact hcity
    · exact hyear
  obtain ⟨hmembers, htuple, htuples⟩ := lists_read_again
  refine ⟨hmembers _ hpair, htuple ⟨[year]⟩ (by simp) (by simpa using hyear), ?_, ?_⟩
  · exact (htuples [⟨[city, year]⟩] (by simpa using hpair)).1 (by simp [size])
  · have hall : ∀ t ∈ [(⟨[city, year]⟩ : Tuple), ⟨[city]⟩], ∀ i ∈ t.members, i.Writable := by
      intro t ht
      rcases List.mem_pair.mp ht with rfl | rfl
      · exact hpair
      · simpa using hcity
    exact (htuples _ hall).2 ⟨⟨[city]⟩, by simp, by decide⟩

end OlapClient
