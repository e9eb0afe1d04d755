import OlapClient.Identifier.Scan
import OlapClient.Proofs.Identifier.Grammar

/-!
# Scanning a spelled identifier

What a scan reports for each piece of the grammar, and where it stands behind it. A piece is
followed by any text that may stand there, so that the equations can be put one after the other;
they end behind a whole identifier, in the middle of whatever shape is read (`run_spelled`).
-/

namespace OlapClient

/-! ### Readings one after the other -/

namespace Reading

variable {α β : Type}

/-- A reading that goes on from where another one leads. -/
def andThen (r : Reading α) (next : α → Reading β) : Reading β :=
  match r with
  | (events, .ok a) => .after events (next a)
  | (events, .error refusal) => (events, .error refusal)

@[simp] theorem quiet_andThen (a : α) (next : α → Reading β) : (quiet a).andThen next = next a :=
  rfl

@[simp] theorem after_after (events events' : List Event) (r : Reading α) :
    after events (after events' r) = after (events ++ events') r := by
  simp [after]

@[simp] theorem after_andThen (events : List Event) (r : Reading α) (next : α → Reading β) :
    (after events r).andThen next = after events (r.andThen next) := by
  obtain ⟨events', a | a⟩ := r
  · rfl
  · simp [andThen, after]

@[simp] theorem after_snd (events : List Event) (r : Reading α) : (after events r).2 = r.2 := rfl

end Reading

namespace Scan

open Spelling

variable (s : Scan) (position : Nat)

theorem run_cons (c : Char) (cs : List Char) :
    s.run position (c :: cs) =
      (s.step position c).andThen fun next => next.run (position + 1) cs := by
  rw [run]
  obtain ⟨events, next | refusal⟩ := s.step position c <;> rfl

/-! ### Blanks -/

/-- A scan that stays where it is at a blank. -/
def Skips : Prop := ∀ position c, Text.isBlank c = true → s.step position c = .quiet s

theorem skips_beforePart (lead : Lead) (key : List Name) :
    (s.goTo (.beforePart lead key)).Skips := by
  intro p c hc
  simp [step, goTo, partStart, hc]

theorem skips_afterPart (lead : Lead) (key : List Name) : (s.goTo (.afterPart lead key)).Skips := by
  intro p c hc
  simp [step, goTo, partEnd, hc]

variable {s} in
theorem Skips.run (hs : s.Skips) (gap rest : List Char) (hg : Blanks gap) :
    s.run position (gap ++ rest) = s.run (position + gap.length) rest := by
  induction gap generalizing position with
  | nil => rfl
  | cons c gap ih =>
    have hc : Text.isBlank c = true := hg c List.mem_cons_self
    have hgap : Blanks gap := fun c' hc' => hg c' (List.mem_cons_of_mem _ hc')
    have hp : position + 1 + gap.length = position + (c :: gap).length := by
      simp only [List.length_cons]
      omega
    rw [List.cons_append, run_cons, hs position c hc, Reading.quiet_andThen, ih (position + 1) hgap,
      hp]

variable {s} in
theorem Skips.run_end (hs : s.Skips) (gap : List Char) (hg : Blanks gap) :
    s.run position gap = s.finish (position + gap.length) := by
  have hrun := hs.run position gap [] hg
  rwa [List.append_nil] at hrun

/-! ### Parts -/

/-- A part ends where it is complete, with the text or before the next character. -/
theorem run_partDone (stage : ScanStage) (lead : Lead) (key : List Name) (part : Name)
    (rest : List Char)
    (hf : ∀ p, (s.goTo stage).finish p = s.endOfPart lead key part)
    (hs : ∀ c, rest.head? = some c → ∀ p, (s.goTo stage).step p c = s.partDone p lead key part c) :
    (s.goTo stage).run position rest = .after (completePart lead key part).1
      ((s.goTo (.afterPart lead (completePart lead key part).2)).run position rest) := by
  cases rest with
  | nil =>
    have he : s.endOfPart lead key part = .after (completePart lead key part).1
        ((s.goTo (.afterPart lead (completePart lead key part).2)).finish position) := by
      simp only [endOfPart, finish, goTo, Reading.after_after, List.append_assoc]
      rfl
    rw [run, run, hf, he]
  | cons c cs =>
    have he : s.partDone position lead key part c = .after (completePart lead key part).1
        ((s.goTo (.afterPart lead (completePart lead key part).2)).step position c) := rfl
    rw [run_cons, run_cons, hs c rfl, he, Reading.after_andThen]

/-- The body of a bracketed name. -/
theorem run_escape (opened : Nat) (lead : Lead) (key : List Name) (before body rest : List Char) :
    (s.goTo (.inBrackets opened lead key before)).run position (Name.escape body ++ rest) =
      (s.goTo (.inBrackets opened lead key (body.reverse ++ before))).run
        (position + (Name.escape body).length) rest := by
  induction body generalizing position before with
  | nil => rfl
  | cons c body ih =>
    have hb : (c :: body).reverse ++ before = body.reverse ++ c :: before := by simp
    by_cases hc : c = ']'
    · subst hc
      have hs : (s.goTo (.inBrackets opened lead key before)).step position ']' =
          .quiet (s.goTo (.closingBracket opened lead key before)) := rfl
      have hs' : (s.goTo (.closingBracket opened lead key before)).step (position + 1) ']' =
          .quiet (s.goTo (.inBrackets opened lead key (']' :: before))) := rfl
      have he : Name.escape (']' :: body) = ']' :: ']' :: Name.escape body := by simp [Name.escape]
      have hp : position + 1 + 1 + (Name.escape body).length =
          position + (']' :: ']' :: Name.escape body).length := by
        simp only [List.length_cons]
        omega
      rw [he, List.cons_append, List.cons_append, run_cons, hs, Reading.quiet_andThen, run_cons,
        hs', Reading.quiet_andThen, ih, hp, hb]
    · have hs : (s.goTo (.inBrackets opened lead key before)).step position c =
          .quiet (s.goTo (.inBrackets opened lead key (c :: before))) := by
        simp [step, goTo, hc]
      have he : Name.escape (c :: body) = c :: Name.escape body := by simp [Name.escape, hc]
      have hp : position + 1 + (Name.escape body).length =
          position + (c :: Name.escape body).length := by
        simp only [List.length_cons]
        omega
      rw [he, List.cons_append, run_cons, hs, Reading.quiet_andThen, ih, hp, hb]

theorem run_closing (opened : Nat) (lead : Lead) (key : List Name) (before rest : List Char)
    (hr : rest.head? ≠ some ']') :
    (s.goTo (.inBrackets opened lead key before)).run position (']' :: rest) =
      .after (completePart lead key (quotedPart before)).1
        ((s.goTo (.afterPart lead (completePart lead key (quotedPart before)).2)).run (position + 1)
          rest) := by
  have hs : (s.goTo (.inBrackets opened lead key before)).step position ']' =
      .quiet (s.goTo (.closingBracket opened lead key before)) := rfl
  rw [run_cons, hs, Reading.quiet_andThen]
  refine s.run_partDone _ _ lead key (quotedPart before) rest (fun p => rfl) ?_
  intro c hc p
  have hne : c ≠ ']' := by
    rintro rfl
    exact hr hc
  simp only [step, goTo, if_neg hne]
  rfl

theorem endsBareName_iff (c : Char) : endsBareName c = true ↔ c ∈ reserved := by
  simp [endsBareName, reserved, or_assoc]

theorem step_inBare (lead : Lead) (key : List Name) (before : List Char) (c : Char)
    (hc : c ∉ reserved) : (s.goTo (.inBare lead key before)).step position c =
      .quiet (s.goTo (.inBare lead key (c :: before))) := by
  rw [← endsBareName_iff] at hc
  simp [step, goTo, hc]

theorem barePart_blank (c : Char) (before : List Char) (hc : Text.isBlank c = true) :
    barePart (c :: before) = barePart before := by
  have ht : Text.trimChars (before.reverse ++ [c]) = Text.trimChars before.reverse := by
    simp only [Text.trimChars, Text.dropTrailingBlanks, List.dropWhile_append]
    cases hd : before.reverse.dropWhile Text.isBlank with
    | nil => simp [hc]
    | cons c' cs => simp [hc]
  simp [barePart, ht]

/-- A bare name is complete where only blanks stand before what ends it. -/
theorem run_inBare (lead : Lead) (key : List Name) (before rest : List Char)
    (hr : ∀ c, (rest.dropWhile Text.isBlank).head? = some c → c ∈ reserved) :
    (s.goTo (.inBare lead key before)).run position rest =
      .after (completePart lead key (barePart before)).1
        ((s.goTo (.afterPart lead (completePart lead key (barePart before)).2)).run position
          rest) := by
  induction rest generalizing position before with
  | nil =>
    refine s.run_partDone _ _ lead key (barePart before) [] (fun p => rfl) ?_
    intro c hc
    cases hc
  | cons c rest ih =>
    cases hb : Text.isBlank c with
    | true =>
      have hs := s.step_inBare position lead key before c (not_reserved_of_blank c hb)
      have hd : (c :: rest).dropWhile Text.isBlank = rest.dropWhile Text.isBlank := by
        simp [hb]
      rw [hd] at hr
      have hskip := s.skips_afterPart lead (completePart lead key (barePart before)).2 position c hb
      rw [run_cons, run_cons, hs, hskip, Reading.quiet_andThen, Reading.quiet_andThen,
        ih (position + 1) (c :: before) hr, barePart_blank c before hb]
    | false =>
      have hd : (c :: rest).dropWhile Text.isBlank = c :: rest := by
        simp [hb]
      rw [hd] at hr
      have he : endsBareName c = true := (endsBareName_iff c).mpr (hr c rfl)
      refine s.run_partDone _ _ lead key (barePart before) (c :: rest) (fun p => rfl) ?_
      intro c' hc' p
      cases hc'
      simp only [step, goTo, he, if_true]
      rfl

/-- Characters of a bare name. -/
theorem run_inBare_append (lead : Lead) (key : List Name) (before text rest : List Char)
    (ht : ∀ c ∈ text, c ∉ reserved) :
    (s.goTo (.inBare lead key before)).run position (text ++ rest) =
      (s.goTo (.inBare lead key (text.reverse ++ before))).run (position + text.length) rest := by
  induction text generalizing position before with
  | nil => rfl
  | cons c text ih =>
    have hs := s.step_inBare position lead key before c (ht c List.mem_cons_self)
    have htext : ∀ c' ∈ text, c' ∉ reserved := fun c' hc' => ht c' (List.mem_cons_of_mem _ hc')
    have hp : position + 1 + text.length = position + (c :: text).length := by
      simp only [List.length_cons]
      omega
    have hb : (c :: text).reverse ++ before = text.reverse ++ c :: before := by simp
    rw [List.cons_append, run_cons, hs, Reading.quiet_andThen,
      ih (position + 1) (c :: before) htext, hp, hb]

/-- A character that a bare name may start with. -/
theorem step_beforePart (lead : Lead) (key : List Name) (c : Char) (hb : Text.isBlank c = false)
    (ho : c ∉ openers) (hr : c ∉ reserved) :
    (s.goTo (.beforePart lead key)).step position c = .quiet (s.goTo (.inBare lead key [c])) := by
  have hn : startsNoSegment c = false := by
    simp only [openers, reserved, List.mem_cons, List.not_mem_nil, or_false, not_or] at ho hr
    simp [startsNoSegment, endsBareName, ho, hr]
  have hbracket : c ≠ '[' := by
    rintro rfl
    exact ho (by decide)
  have hmark : c ≠ '&' := by
    rintro rfl
    exact hr (by decide)
  simp [step, goTo, partStart, hb, hn, hbracket, hmark]

theorem trimChars_of_bare {text : List Char} (h : IsBare text) : Text.trimChars text = text := by
  have ht := trim_enclosed [] text [] blanks_nil blanks_nil (fun c hc => (h.first c hc).1) h.last
  rwa [List.append_nil] at ht

theorem run_part {text rest : List Char} {name : Name} (h : Part text rest name) (lead : Lead)
    (key : List Name) :
    (s.goTo (.beforePart lead key)).run position (text ++ rest) =
      .after (completePart lead key name).1
        ((s.goTo (.afterPart lead (completePart lead key name).2)).run (position + text.length)
          rest) := by
  cases h with
  | bracketed body _ hr =>
    have hs : (s.goTo (.beforePart lead key)).step position '[' =
        .quiet (s.goTo (.inBrackets position lead key [])) := rfl
    have hn : quotedPart (body.reverse ++ []) = .quoted (String.ofList body) := by
      simp [quotedPart]
    have ht : Name.bracket body ++ rest = '[' :: (Name.escape body ++ ']' :: rest) := by
      simp [Name.bracket]
    have hp : position + 1 + (Name.escape body).length + 1 =
        position + (Name.bracket body).length := by
      simp only [Name.bracket, List.length_cons, List.length_append, List.length_nil]
      omega
    rw [ht, run_cons, hs, Reading.quiet_andThen, s.run_escape _ position lead key [] body,
      s.run_closing _ position lead key _ rest hr, hn, hp]
  | bare _ _ ht hr =>
    have htrim := trimChars_of_bare ht
    obtain ⟨hne, hfirst, -, hin⟩ := ht
    cases text with
    | nil => exact absurd rfl hne
    | cons c cs =>
      obtain ⟨hb, ho⟩ := hfirst c rfl
      have hs := s.step_beforePart position lead key c hb ho (hin c List.mem_cons_self)
      have hcs : ∀ c' ∈ cs, c' ∉ reserved := fun c' hc' => hin c' (List.mem_cons_of_mem _ hc')
      have hn : barePart (cs.reverse ++ [c]) = .unquoted (String.ofList (c :: cs)) := by
        rw [← List.reverse_cons, barePart, List.reverse_reverse, htrim]
      have hp : position + 1 + cs.length = position + (c :: cs).length := by
        simp only [List.length_cons]
        omega
      rw [List.cons_append, run_cons, hs, Reading.quiet_andThen,
        s.run_inBare_append _ lead key [c] cs rest hcs, s.run_inBare _ lead key _ rest hr, hn, hp]

/-! ### Separators -/

/-- How a part is read behind another one that was read as `lead` says. -/
def lead (link : Link) (lead : Lead) : Lead :=
  match link with
  | .name => .name
  | .newKey => .firstKey
  | .key => if lead = .name then .firstKey else .nextKey

theorem run_opening {text : List Char} {link : Link} (h : Opening text link) (before : Lead)
    (key : List Name) (rest : List Char) :
    (s.goTo (.beforePart .name key)).run position (text ++ rest) =
      (s.goTo (.beforePart (lead link before) key)).run (position + text.length) rest := by
  cases h with
  | name _ hg => exact (s.skips_beforePart .name key).run position text rest hg
  | key gap gap' hg hg' =>
    have hmark : ∀ p, (s.goTo (.beforePart .name key)).step p '&' =
        .quiet (s.goTo (.beforePart .firstKey key)) := fun p => rfl
    have ht : gap ++ ['&'] ++ gap' ++ rest = gap ++ '&' :: (gap' ++ rest) := by simp
    have hp : position + gap.length + 1 + gap'.length =
        position + (gap ++ ['&'] ++ gap').length := by
      simp only [List.length_append, List.length_cons, List.length_nil]
      omega
    rw [ht, (s.skips_beforePart .name key).run position gap _ hg, run_cons, hmark,
      Reading.quiet_andThen, (s.skips_beforePart .firstKey key).run _ gap' _ hg', hp]
    rfl

theorem run_separator {text : List Char} {link : Link} (h : Separator text link) (before : Lead)
    (key : List Name) (rest : List Char) :
    (s.goTo (.afterPart before key)).run position (text ++ rest) =
      (s.goTo (.beforePart (lead link before) key)).run (position + text.length) rest := by
  cases h with
  | point gap opening _ hg ho =>
    have hpoint : ∀ p, (s.goTo (.afterPart before key)).step p '.' =
        .quiet (s.goTo (.beforePart .name key)) := fun p => rfl
    have ht : gap ++ ['.'] ++ opening ++ rest = gap ++ '.' :: (opening ++ rest) := by simp
    have hp : position + gap.length + 1 + opening.length =
        position + (gap ++ ['.'] ++ opening).length := by
      simp only [List.length_append, List.length_cons, List.length_nil]
      omega
    rw [ht, (s.skips_afterPart before key).run position gap _ hg, run_cons, hpoint,
      Reading.quiet_andThen, s.run_opening _ ho before key, hp]
  | mark gap gap' hg hg' =>
    have hmark : ∀ p, (s.goTo (.afterPart before key)).step p '&' =
        .quiet (s.goTo (.beforePart (lead .key before) key)) := fun p => rfl
    have ht : gap ++ ['&'] ++ gap' ++ rest = gap ++ '&' :: (gap' ++ rest) := by simp
    have hp : position + gap.length + 1 + gap'.length =
        position + (gap ++ ['&'] ++ gap').length := by
      simp only [List.length_append, List.length_cons, List.length_nil]
      omega
    rw [ht, (s.skips_afterPart before key).run position gap _ hg, run_cons, hmark,
      Reading.quiet_andThen, (s.skips_beforePart _ key).run _ gap' _ hg', hp]

/-! ### Whole identifiers -/

/-- What is reported for pieces behind a part, if `key` is held back. -/
def pieceEvents (before : Lead) (key : List Name) : List Piece → List Event
  | [] => heldKey key ++ [.member]
  | ⟨link, name⟩ :: pieces =>
    (completePart (lead link before) key name).1 ++
      pieceEvents (lead link before) (completePart (lead link before) key name).2 pieces

/-- The text behind a complete identifier. -/
def resume (s : Scan) (position : Nat) : List Char → Reading Unit
  | [] => s.endOfMember
  | c :: cs => (s.afterMember position c).andThen fun next => next.run (position + 1) cs

theorem run_stops (before : Lead) (key : List Name) (rest : List Char) (hr : Stops rest) :
    (s.goTo (.afterPart before key)).run position rest =
      .after (heldKey key ++ [.member]) (s.resume position rest) := by
  cases rest with
  | nil => rfl
  | cons c cs =>
    have hs : (s.goTo (.afterPart before key)).step position c =
        .after (heldKey key ++ [.member]) (s.afterMember position c) := by
      rcases hr c rfl with rfl | rfl | rfl <;> rfl
    rw [run_cons, hs, Reading.after_andThen, resume]

theorem run_tail {text : List Char} {pieces : List Piece} (h : Tail text pieces)
    (before : Lead) (key : List Name) (rest : List Char) (hr : Stops rest) :
    (s.goTo (.afterPart before key)).run position (text ++ rest) =
      .after (pieceEvents before key pieces) (s.resume (position + text.length) rest) := by
  induction h generalizing position before key with
  | done gap hg =>
    rw [(s.skips_afterPart before key).run position gap rest hg, s.run_stops _ before key rest hr]
    rfl
  | more separator text rest' link name pieces hs hp ht ih =>
    have he : separator ++ text ++ rest' ++ rest = separator ++ (text ++ (rest' ++ rest)) := by
      simp only [List.append_assoc]
    have hl : position + separator.length + text.length + rest'.length =
        position + (separator ++ text ++ rest').length := by
      simp only [List.length_append]
      omega
    rw [he, s.run_separator _ hs before key, s.run_part _ (hp.append hr), ih,
      Reading.after_after, hl]
    rfl

theorem run_pieces {text : List Char} {pieces : List Piece} (h : Spelled text pieces)
    (rest : List Char) (hr : Stops rest) :
    (s.goTo (.beforePart .name [])).run position (text ++ rest) =
      .after (pieceEvents .name [] pieces) (s.resume (position + text.length) rest) := by
  obtain ⟨opening, text, rest', link, name, pieces, ho, hp, ht⟩ := h
  have he : opening ++ text ++ rest' ++ rest = opening ++ (text ++ (rest' ++ rest)) := by
    simp only [List.append_assoc]
  have hl : position + opening.length + text.length + rest'.length =
      position + (opening ++ text ++ rest').length := by
    simp only [List.length_append]
    omega
  rw [he, s.run_opening _ ho .name [], s.run_part _ (hp.append hr), s.run_tail _ ht _ _ rest hr,
    Reading.after_after, hl]
  rfl

/-! ### Pieces and segments -/

/-- The key held back, as a segment. -/
def held (key : List Name) : List Segment := if key.isEmpty then [] else [.key key]

/-- What a scan knows behind a part: a key is held back exactly if the part belongs to one. -/
def Keeps (before : Lead) (key : List Name) (done : List Segment) : Prop :=
  match before with
  | .name => key = [] ∧ ∀ parts, done.getLast? ≠ some (.key parts)
  | .firstKey | .nextKey => key ≠ []

theorem heldKey_eq (key : List Name) : heldKey key = (held key).map .segment := by
  cases key <;> rfl

theorem extend_held (key : List Name) (done : List Segment) (name : Name) (h : key ≠ []) :
    extend (done ++ held key) ⟨.key, name⟩ = done ++ held (key ++ [name]) := by
  obtain ⟨n, ns, rfl⟩ := List.exists_cons_of_ne_nil h
  simp [extend, held]

/-- One more piece is one more piece of the segments, those held back included. -/
theorem extend_piece (before : Lead) (key : List Name) (done : List Segment) (piece : Piece)
    (h : Keeps before key done) : ∃ more,
      (completePart (lead piece.link before) key piece.name).1 = more.map .segment ∧
      Keeps (lead piece.link before) (completePart (lead piece.link before) key piece.name).2
        (done ++ more) ∧
      extend (done ++ held key) piece =
        done ++ more ++ held (completePart (lead piece.link before) key piece.name).2 := by
  obtain ⟨link, name⟩ := piece
  cases link with
  | name =>
    refine ⟨held key ++ [.name name], ?_, ⟨rfl, ?_⟩, ?_⟩
    · simp [completePart, lead, heldKey_eq]
    · simp [← List.append_assoc]
    · simp [extend, completePart, lead, held]
  | newKey =>
    refine ⟨held key, heldKey_eq key, ?_, ?_⟩
    · simp [Keeps, lead, completePart]
    · simp [extend, completePart, lead, held]
  | key =>
    cases before with
    | name =>
      obtain ⟨rfl, hdone⟩ := h
      refine ⟨[], rfl, ?_, ?_⟩
      · simp [Keeps, lead, completePart]
      · have he : extend done ⟨.key, name⟩ = done ++ [.key [name]] := by
          rcases hl : done.getLast? with - | n | parts
          · simp [extend, hl]
          · simp [extend, hl]
          · exact absurd hl (hdone parts)
        simpa [held, completePart, lead] using he
    | _ =>
      refine ⟨[], rfl, ?_, ?_⟩
      · simp [Keeps, lead, completePart]
      · rw [extend_held key done name h, List.append_nil]
        rfl

theorem pieceEvents_eq (pieces : List Piece) (before : Lead) (key : List Name)
    (done : List Segment) (h : Keeps before key done) :
    done.map .segment ++ pieceEvents before key pieces =
      (pieces.foldl extend (done ++ held key)).map .segment ++ [.member] := by
  induction pieces generalizing before key done with
  | nil => simp [pieceEvents, heldKey_eq]
  | cons piece pieces ih =>
    obtain ⟨more, hmore, hkeeps, he⟩ := extend_piece before key done piece h
    have hnext := ih _ _ (done ++ more) hkeeps
    rw [List.foldl_cons, he, ← hnext, pieceEvents, hmore, List.map_append, List.append_assoc]

/-- What is reported for an identifier. -/
def memberEvents (i : Identifier) : List Event := i.segments.map .segment ++ [.member]

theorem run_spelled {text : List Char} {i : Identifier} (h : Reads text i) (rest : List Char)
    (hr : Stops rest) :
    (s.goTo (.beforePart .name [])).run position (text ++ rest) =
      .after (memberEvents i) (s.resume (position + text.length) rest) := by
  obtain ⟨pieces, hp, hi⟩ := h
  have hk : Keeps .name [] [] := ⟨rfl, fun parts => by simp⟩
  have he : pieceEvents .name [] pieces = memberEvents i := by
    rw [memberEvents, ← hi]
    exact pieceEvents_eq pieces .name [] [] hk
  rw [s.run_pieces position hp rest hr, he]

end Scan

end OlapClient
