import OlapClient.Proofs.Identifier.Scanning

/-!
# Accepted texts are spelled identifiers

The other direction: a text that a scan reads to its end begins with a spelled identifier, wherever
in a tuple or a list the scan stands. Together with the equations for spelled identifiers this says
which texts are identifiers and what they are read as, in terms of the grammar alone.
-/

namespace OlapClient

/-! ### Where parts end -/

namespace Spelling

/-- A bracket closes behind the body of a name, or the text is nothing but a body. -/
theorem escape_cases (text : List Char) :
    (∃ body rest, text = Name.escape body ++ ']' :: rest ∧ rest.head? ≠ some ']') ∨
      ∃ body, text = Name.escape body := by
  induction hn : text.length using Nat.strongRecOn generalizing text with
  | ind n ih =>
    have more : ∀ c rest, Name.escape [c] ++ rest = text →
        (∃ body rest, text = Name.escape body ++ ']' :: rest ∧ rest.head? ≠ some ']') ∨
          ∃ body, text = Name.escape body := by
      rintro c rest rfl
      have happ : ∀ body, Name.escape [c] ++ Name.escape body = Name.escape (c :: body) := by
        intro body
        by_cases hc : c = ']' <;> simp [Name.escape, hc]
      have hlt : rest.length < n := by
        have hpos : 0 < (Name.escape [c]).length := by
          by_cases hc : c = ']' <;> simp [Name.escape, hc]
        rw [List.length_append] at hn
        omega
      obtain ⟨body, rest', rfl, hr⟩ | ⟨body, rfl⟩ := ih rest.length hlt rest rfl
      · left
        refine ⟨c :: body, rest', ?_, hr⟩
        rw [← List.append_assoc, happ]
      · right
        exact ⟨c :: body, happ body⟩
    cases text with
    | nil => exact .inr ⟨[], rfl⟩
    | cons c rest =>
      by_cases hc : c = ']'
      · subst hc
        by_cases hr : rest.head? = some ']'
        · obtain ⟨rest', rfl⟩ := List.head?_eq_some_iff.mp hr
          exact more ']' rest' (by simp [Name.escape])
        · exact .inl ⟨[], rest, rfl, hr⟩
      · exact more c rest (by simp [Name.escape, hc])

theorem split_trailing (text : List Char) : ∃ gap, text = Text.dropTrailingBlanks text ++ gap ∧
    Blanks gap := by
  refine ⟨(text.reverse.takeWhile Text.isBlank).reverse, ?_, ?_⟩
  · rw [Text.dropTrailingBlanks, ← List.reverse_append, List.takeWhile_append_dropWhile,
      List.reverse_reverse]
  · intro c hc
    exact blanks_takeWhile text.reverse c (List.mem_reverse.mp hc)

/-- The blanks at the end of a text can be told apart from the rest. -/
theorem trailing_blanks (text : List Char) : ∃ kept gap, text = kept ++ gap ∧ Blanks gap ∧
    ∀ c, kept.getLast? = some c → Text.isBlank c = false := by
  obtain ⟨gap, hsplit, hg⟩ := split_trailing text
  refine ⟨_, gap, hsplit, hg, ?_⟩
  intro c hc
  rw [Text.dropTrailingBlanks, List.getLast?_reverse] at hc
  exact not_blank_of_dropWhile text.reverse c hc

theorem reserved_split (text : List Char) : ∃ run rest, text = run ++ rest ∧
    (∀ c ∈ run, c ∉ reserved) ∧ ∀ c, rest.head? = some c → c ∈ reserved := by
  let inside : Char → Bool := fun c => decide (c ∉ reserved)
  refine ⟨text.takeWhile inside, text.dropWhile inside, List.takeWhile_append_dropWhile.symm,
    ?_, ?_⟩
  · intro c hc
    exact of_decide_eq_true (List.all_eq_true.mp List.all_takeWhile c hc)
  · intro c hc
    have h := List.head?_dropWhile_not inside text
    rw [hc] at h
    simpa [inside] using h

/-- A bare name begins wherever a character stands that one may start with. -/
theorem bare_part (c : Char) (cs : List Char) (hb : Text.isBlank c = false) (ho : c ∉ openers)
    (hr : c ∉ reserved) : ∃ text rest, c :: cs = text ++ rest ∧
      Part text rest (.unquoted (String.ofList text)) := by
  obtain ⟨run, rest, hsplit, hrun, hrest⟩ := reserved_split cs
  obtain ⟨kept, gap, hkept, hgap, hlast⟩ := trailing_blanks (c :: run)
  have hin : ∀ c' ∈ kept, c' ∉ reserved := by
    intro c' hc'
    have hmem : c' ∈ c :: run := by
      rw [hkept]
      exact List.mem_append_left gap hc'
    rcases List.mem_cons.mp hmem with rfl | hc'
    · exact hr
    · exact hrun c' hc'
  have hend : ∀ c', ((gap ++ rest).dropWhile Text.isBlank).head? = some c' → c' ∈ reserved := by
    rw [dropWhile_reserved gap rest hgap hrest]
    exact hrest
  have hcs : c :: cs = kept ++ (gap ++ rest) := by
    rw [← List.append_assoc, ← hkept, hsplit, List.cons_append]
  cases kept with
  | nil =>
    -- The character `c` would be one of the blanks.
    have hblank := hgap c (by rw [List.nil_append] at hkept; rw [← hkept]; exact List.mem_cons_self)
    rw [hb] at hblank
    cases hblank
  | cons c' kept =>
    have hfirst : c = c' := (List.cons.inj hkept).1
    subst hfirst
    refine ⟨c :: kept, gap ++ rest, hcs, .bare _ _ ⟨by simp, ?_, hlast, hin⟩ hend⟩
    intro c' hc'
    cases hc'
    exact ⟨hb, ho⟩

end Spelling

namespace Scan

open Spelling

variable (s : Scan) (position : Nat)

theorem startsNoSegment_iff (c : Char) :
    startsNoSegment c = true ↔ c ∈ reserved ∨ c = '(' ∨ c = '{' ∨ c = ']' := by
  simp [startsNoSegment, endsBareName_iff, or_assoc]

/-! ### Accepted parts -/

/-- Behind the blanks an accepted text has a part, or the mark of a key if it has none yet. -/
theorem part_of_accepted (lead : Lead) (key : List Name) (cs : List Char)
    (h : ((s.goTo (.beforePart lead key)).run position cs).2 = .ok ()) :
    ∃ gap rest, cs = gap ++ rest ∧ Blanks gap ∧
      ((∃ text rest' name, rest = text ++ rest' ∧ Part text rest' name) ∨
        lead = .name ∧ ∃ rest', rest = '&' :: rest') := by
  rcases blanks_or_first cs with hg | ⟨gap, c, rest, rfl, hg, hb⟩
  · rw [(s.skips_beforePart lead key).run_end position cs hg] at h
    cases h
  · refine ⟨gap, c :: rest, rfl, hg, ?_⟩
    rw [(s.skips_beforePart lead key).run position gap _ hg, run_cons] at h
    by_cases hbracket : c = '['
    · subst hbracket
      left
      obtain ⟨body, rest', rfl, hr⟩ | ⟨body, rfl⟩ := escape_cases rest
      · refine ⟨Name.bracket body, rest', _, ?_, .bracketed body rest' hr⟩
        simp [Name.bracket]
      · -- The bracket is not closed.
        have hrun :=
          s.run_escape (position + gap.length + 1) (position + gap.length) lead key [] body
          []
        rw [List.append_nil] at hrun
        have hs : ∀ p, (s.goTo (.beforePart lead key)).step p '[' =
            .quiet (s.goTo (.inBrackets p lead key [])) := fun p => rfl
        rw [hs, Reading.quiet_andThen, hrun] at h
        cases h
    · by_cases hmark : c = '&'
      · subst hmark
        right
        cases lead with
        | name => exact ⟨rfl, rest, rfl⟩
        | _ => cases h
      · cases hn : startsNoSegment c with
        | true =>
          have hs : ∀ p, (s.goTo (.beforePart lead key)).step p c =
              .refuse (.notASegment c) p := by
            intro p
            simp [step, goTo, partStart, hb, hbracket, hmark, hn]
          rw [hs] at h
          cases h
        | false =>
          left
          have hnot : ¬ (c ∈ reserved ∨ c = '(' ∨ c = '{' ∨ c = ']') := by
            rw [← startsNoSegment_iff, hn]
            simp
          simp only [not_or] at hnot
          obtain ⟨hr, hpar, hbrace, hclose⟩ := hnot
          have ho : c ∉ openers := by simp [openers, hbracket, hpar, hbrace, hclose]
          obtain ⟨text, rest', hc, hp⟩ := bare_part c rest hb ho hr
          exact ⟨text, rest', _, hc, hp⟩

/-- Behind a mark, a part follows. -/
theorem marked_of_accepted (lead : Lead) (hlead : lead ≠ .name) (key : List Name) (cs : List Char)
    (h : ((s.goTo (.beforePart lead key)).run position cs).2 = .ok ()) :
    ∃ gap text rest name, cs = gap ++ text ++ rest ∧ Blanks gap ∧ Part text rest name ∧
      ∃ position' key', ((s.goTo (.afterPart lead key')).run position' rest).2 = .ok () := by
  obtain ⟨gap, rest, rfl, hg, ⟨text, rest', name, rfl, hp⟩ | ⟨hname, -⟩⟩ :=
    s.part_of_accepted position lead key cs h
  · rw [(s.skips_beforePart lead key).run position gap _ hg, s.run_part _ hp,
      Reading.after_snd] at h
    exact ⟨gap, text, rest', name, by rw [List.append_assoc], hg, hp, _, _, h⟩
  · exact absurd hname hlead

theorem opening_of_accepted (key : List Name) (cs : List Char)
    (h : ((s.goTo (.beforePart .name key)).run position cs).2 = .ok ()) :
    ∃ opening text rest link name, cs = opening ++ text ++ rest ∧ Opening opening link ∧
      Part text rest name ∧ ∃ position' before key',
        ((s.goTo (.afterPart before key')).run position' rest).2 = .ok () := by
  obtain ⟨gap, rest, rfl, hg, ⟨text, rest', name, rfl, hp⟩ | ⟨-, rest', rfl⟩⟩ :=
    s.part_of_accepted position .name key cs h
  · rw [(s.skips_beforePart .name key).run position gap _ hg, s.run_part _ hp,
      Reading.after_snd] at h
    exact ⟨gap, text, rest', .name, name, by rw [List.append_assoc], .name gap hg, hp, _, _, _, h⟩
  · have hs : ∀ p, (s.goTo (.beforePart .name key)).step p '&' =
        .quiet (s.goTo (.beforePart .firstKey key)) := fun p => rfl
    rw [(s.skips_beforePart .name key).run position gap _ hg, run_cons, hs,
      Reading.quiet_andThen] at h
    obtain ⟨gap', text, rest, name, rfl, hg', hp, position', key', ha⟩ :=
      s.marked_of_accepted _ .firstKey (by decide) key rest' h
    exact ⟨gap ++ ['&'] ++ gap', text, rest, .newKey, name, by simp, .key gap gap' hg hg', hp,
      position', .firstKey, key', ha⟩

/-! ### Accepted identifiers -/

theorem afterMember_refuses (c : Char) (hb : Text.isBlank c = false)
    (hc : ¬ (c = ',' ∨ c = ')' ∨ c = '}')) :
    ∃ reason, s.afterMember position c = .refuse reason position := by
  simp only [not_or] at hc
  obtain ⟨hcomma, hparen, hbrace⟩ := hc
  cases hp : s.paren with
  | some opened => exact ⟨.strayInTuple c, by simp [afterMember, hp, hcomma, hparen]⟩
  | none =>
    cases hl : s.shape.isList with
    | true =>
      exact ⟨.strayInList c, by simp [afterMember, hp, separator, elementDone, hb,
        hcomma, hbrace, hl]⟩
    | false => exact ⟨.strayAtEnd c, by simp [afterMember, hp, separator, elementDone, hb, hl]⟩

/-- Behind a complete identifier, only what stops one is read on. -/
theorem stops_of_accepted (c : Char) (cs : List Char) (hb : Text.isBlank c = false)
    (h : (s.resume position (c :: cs)).2 = .ok ()) : Stops (c :: cs) := by
  refine stops_cons c cs ?_
  refine Classical.byContradiction fun hc => ?_
  obtain ⟨reason, hr⟩ := s.afterMember_refuses position c hb hc
  rw [resume, hr] at h
  cases h

theorem tail_of_accepted (before : Lead) (key : List Name) (cs : List Char)
    (h : ((s.goTo (.afterPart before key)).run position cs).2 = .ok ()) :
    ∃ text rest pieces, cs = text ++ rest ∧ Tail text pieces ∧ Stops rest := by
  induction hn : cs.length using Nat.strongRecOn generalizing position before key cs with
  | ind n ih =>
    rcases blanks_or_first cs with hgap | ⟨gap, c, cs', hsplit, hgap, hb⟩
    · exact ⟨cs, [], [], by simp, .done cs hgap, stops_nil⟩
    · -- A separator and a part, and then a tail again.
      have more : ∀ separator text rest link name, cs = separator ++ text ++ rest →
          Separator separator link → Part text rest name →
          (∃ position' before' key',
            ((s.goTo (.afterPart before' key')).run position' rest).2 = .ok ()) →
          ∃ text rest pieces, cs = text ++ rest ∧ Tail text pieces ∧ Stops rest := by
        intro separator text rest link name hcs hs hp ⟨position', before', key', ha⟩
        have hlt : rest.length < n := by
          obtain ⟨c'', text', rfl, -⟩ := hp.head
          simp only [hcs, List.length_append, List.length_cons] at hn
          omega
        obtain ⟨text', rest', pieces, rfl, ht, hr⟩ := ih rest.length hlt position' before' key' rest
          ha rfl
        have htail := Tail.more separator text text' link name pieces hs hp.of_append ht
        exact ⟨_, rest', _, by simp [hcs], htail, hr⟩
      rw [hsplit, (s.skips_afterPart before key).run position gap _ hgap] at h
      by_cases hpoint : c = '.'
      · subst hpoint
        have hs : ∀ p, (s.goTo (.afterPart before key)).step p '.' =
            .quiet (s.goTo (.beforePart .name key)) := fun p => rfl
        rw [run_cons, hs, Reading.quiet_andThen] at h
        obtain ⟨opening, text, rest, link, name, rfl, ho, hp, ha⟩ :=
          s.opening_of_accepted _ key cs' h
        exact more (gap ++ ['.'] ++ opening) text rest link name (by simp [hsplit])
          (.point gap opening link hgap ho) hp ha
      · by_cases hmark : c = '&'
        · subst hmark
          have hs : ∀ p, (s.goTo (.afterPart before key)).step p '&' =
              .quiet (s.goTo (.beforePart (lead .key before) key)) := fun p => rfl
          have hl : lead .key before ≠ .name := by cases before <;> simp [lead]
          rw [run_cons, hs, Reading.quiet_andThen] at h
          obtain ⟨gap', text, rest, name, rfl, hg', hp, position', key', ha⟩ :=
            s.marked_of_accepted _ _ hl key cs' h
          exact more (gap ++ ['&'] ++ gap') text rest .key name (by simp [hsplit])
            (.mark gap gap' hgap hg') hp ⟨position', _, key', ha⟩
        · have hs : ∀ p, (s.goTo (.afterPart before key)).step p c =
              .after (heldKey key ++ [.member]) (s.afterMember p c) := by
            intro p
            simp only [step, goTo, partEnd, hb, hpoint, hmark, if_false]
            rfl
          rw [run_cons, hs, Reading.after_andThen, Reading.after_snd] at h
          exact ⟨gap, c :: cs', [], hsplit, .done gap hgap,
            s.stops_of_accepted (position + gap.length) c cs' hb h⟩

/-- An accepted text begins with a spelled identifier, and the scan goes on behind it. -/
theorem spelled_of_accepted (cs : List Char)
    (h : ((s.goTo (.beforePart .name [])).run position cs).2 = .ok ()) :
    ∃ text rest i, cs = text ++ rest ∧ Reads text i ∧ Stops rest ∧
      (s.resume (position + text.length) rest).2 = .ok () := by
  obtain ⟨opening, text, rest, link, name, hcs, ho, hp, position', before, key, ha⟩ :=
    s.opening_of_accepted position [] cs h
  obtain ⟨text', rest', pieces, rfl, ht, hr⟩ := s.tail_of_accepted position' before key rest ha
  have hspelled := Spelled.mk opening text text' link name pieces ho hp.of_append ht
  have hreads : Reads (opening ++ text ++ text') ⟨segments (⟨link, name⟩ :: pieces)⟩ :=
    ⟨_, hspelled, rfl⟩
  have hsplit : cs = opening ++ text ++ text' ++ rest' := by simp [hcs]
  rw [hsplit, s.run_spelled position hreads rest' hr, Reading.after_snd] at h
  exact ⟨_, rest', _, hsplit, hreads, hr, h⟩

end Scan

end OlapClient
