import OlapClient.Identifier.Parser
import OlapClient.Proofs.Identifier.Recognition

/-!
# Which texts are identifiers

A text is an identifier exactly if the grammar spells it, and it is read as the segments that its
pieces make. Blank texts are told from the others that are refused.
-/

namespace OlapClient

open Spelling

/-! ### Assembling events -/

namespace Assembly

theorem add_segments (a : Assembly) (segments : List Segment) :
    (segments.map Event.segment).foldl add a = { a with segments := a.segments ++ segments } := by
  induction segments generalizing a with
  | nil => simp
  | cons segment segments ih =>
    rw [List.map_cons, List.foldl_cons, ih]
    simp [add]

/-- A whole identifier becomes one more member. -/
theorem add_member (a : Assembly) (ha : a.segments = []) (i : Identifier) :
    (Scan.memberEvents i).foldl add a = { a with members := a.members ++ [i] } := by
  rw [Scan.memberEvents, List.foldl_append, add_segments]
  simp [add, ha]

theorem parse_of_scan (shape : Shape) (input : String) (events : List Event)
    (h : Event.scan shape input = (events, .ok ())) :
    parse shape input = .ok (ofEvents events) := by
  rw [parse, h]

/-- A text is refused, or it is scanned to its end. -/
theorem parse_cases (shape : Shape) (input : String) :
    (∃ refusal, parse shape input = .error (.refused refusal input)) ∨
      (Event.scan shape input).2 = .ok () := by
  rw [parse]
  obtain ⟨events, ⟨⟩ | refusal⟩ := Event.scan shape input
  · exact .inl ⟨_, rfl⟩
  · exact .inr rfl

end Assembly

/-! ### Identifiers -/

namespace Identifier

/-- Where a text is read as one identifier, nothing may stand behind it. -/
theorem resume_alone (position : Nat) (rest : List Char) (hr : Stops rest)
    (h : ((Scan.start .identifier).resume position rest).2 = .ok ()) : rest = [] := by
  cases rest with
  | nil => rfl
  | cons c cs => rcases hr c rfl with rfl | rfl | rfl <;> cases h

theorem scan_of_reads (s : String) (i : Identifier) (h : Reads s.toList i) :
    Event.scan .identifier s = (Scan.memberEvents i, .ok ()) := by
  have hrun := (Scan.start .identifier).run_spelled 0 h [] stops_nil
  rw [List.append_nil] at hrun
  rw [Event.scan]
  refine hrun.trans ?_
  simp [Scan.resume, Scan.start, Scan.endOfMember, Scan.endOfList, Reading.after, Reading.quiet]

theorem reads_of_scan (s : String) (h : (Event.scan .identifier s).2 = .ok ()) :
    ∃ i, Reads s.toList i := by
  obtain ⟨text, rest, i, hs, hi, hr, ha⟩ :=
    (Scan.start .identifier).spelled_of_accepted 0 s.toList h
  rw [resume_alone _ rest hr ha, List.append_nil] at hs
  rw [hs]
  exact ⟨i, hi⟩

theorem not_blank_of_reads (s : String) (i : Identifier) (h : Reads s.toList i) :
    Text.isBlankText s = false := by
  obtain ⟨pieces, hp, -⟩ := h
  obtain ⟨c, hc, hb⟩ : ∃ c, c ∈ s.toList ∧ Text.isBlank c = false := by
    generalize s.toList = cs at hp
    obtain ⟨opening, text, rest, link, name, pieces, -, hpart, -⟩ := hp
    obtain ⟨c, cs, rfl, hb, -⟩ := hpart.head
    exact ⟨c, by simp, hb⟩
  rw [Text.isBlankText, List.all_eq_false]
  exact ⟨c, hc, by simp [hb]⟩

theorem parse_of_reads (s : String) (i : Identifier) (h : Reads s.toList i) :
    Identifier.parse s = .ok i := by
  have hb := not_blank_of_reads s i h
  have ha := Assembly.parse_of_scan .identifier s _ (scan_of_reads s i h)
  have hm : (Assembly.ofEvents (Scan.memberEvents i)).members = [i] := by
    rw [Assembly.ofEvents, Assembly.add_member {} rfl]
    rfl
  simp [Identifier.parse, hb, ha, hm, bind, Except.bind]

theorem parse_eq_ok_iff (s : String) (i : Identifier) :
    Identifier.parse s = .ok i ↔ Reads s.toList i := by
  refine ⟨?_, parse_of_reads s i⟩
  intro h
  rcases Assembly.parse_cases .identifier s with ⟨refusal, he⟩ | hs
  · cases hb : Text.isBlankText s <;> simp [Identifier.parse, hb, he, bind, Except.bind] at h
  · obtain ⟨i', hi'⟩ := reads_of_scan s hs
    rw [parse_of_reads s i' hi'] at h
    cases h
    exact hi'

/-- The texts that are identifiers are those that the grammar spells, each read as its pieces say;
a blank text is reported as empty, and any other with the place where it is refused. -/
theorem parse_spelled_iff (s : String) :
    (∀ i, Identifier.parse s = .ok i ↔
      ∃ pieces, Spelled s.toList pieces ∧ Spelling.segments pieces = i.segments) ∧
    (Text.isBlankText s = true → Identifier.parse s = .error .empty) ∧
    (Text.isBlankText s = false → (∃ i, Identifier.parse s = .ok i) ∨
      ∃ refusal, Identifier.parse s = .error (.refused refusal s)) := by
  refine ⟨parse_eq_ok_iff s, ?_, ?_⟩
  · intro hb
    simp [Identifier.parse, hb]
  · intro hb
    rcases Assembly.parse_cases .identifier s with ⟨refusal, he⟩ | hs
    · right
      exact ⟨refusal, by simp [Identifier.parse, hb, he, bind, Except.bind]⟩
    · obtain ⟨i, hi⟩ := reads_of_scan s hs
      exact .inl ⟨i, parse_of_reads s i hi⟩

/-- The pieces of ` [a]]]&b & [].c d `: a name, a key of two parts, and a bare name with a blank
in it. -/
def mixedPieces : List Piece :=
  [⟨.name, .quoted "a]"⟩, ⟨.key, .unquoted "b"⟩, ⟨.key, .quoted ""⟩, ⟨.name, .unquoted "c d"⟩]

theorem spelled_mixed : Spelled " [a]]]&b & [].c d ".toList mixedPieces := by
  have hblank : Blanks [' '] := by
    intro c hc
    cases List.mem_singleton.mp hc
    rfl
  have hb : IsBare ['b'] := by
    refine ⟨by decide, ?_, ?_, ?_⟩
    · rintro c ⟨⟩
      decide
    · rintro c ⟨⟩
      decide
    · intro c hc
      cases List.mem_singleton.mp hc
      decide
  have hcd : IsBare ['c', ' ', 'd'] := by
    refine ⟨by decide, ?_, ?_, ?_⟩
    · rintro c ⟨⟩
      decide
    · rintro c ⟨⟩
      decide
    · intro c hc
      simp only [List.mem_cons, List.not_mem_nil, or_false] at hc
      rcases hc with rfl | rfl | rfl <;> decide
  have hlast : Tail ['.', 'c', ' ', 'd', ' '] [⟨.name, .unquoted "c d"⟩] :=
    .more ['.'] ['c', ' ', 'd'] [' '] _ _ _ (.point [] [] _ blanks_nil (.name [] blanks_nil))
      (.bare _ _ hcd (by rintro c ⟨⟩)) (.done [' '] hblank)
  have hempty := Tail.more [' ', '&', ' '] ['[', ']'] _ _ _ _ (.mark [' '] [' '] hblank hblank)
    (.bracketed [] ['.', 'c', ' ', 'd', ' '] (by decide)) hlast
  have hkey := Tail.more ['&'] ['b'] _ _ _ _ (.mark [] [] blanks_nil blanks_nil)
    (.bare _ _ hb (by rintro c ⟨⟩; decide)) hempty
  exact Spelled.mk [' '] _ _ _ _ _ (.name [' '] hblank)
    (.bracketed ['a', ']'] _ (by decide)) hkey

theorem mixed_parses : Identifier.parse " [a]]]&b & [].c d " = .ok
      ⟨[.name (.quoted "a]"), .key [.unquoted "b", .quoted ""], .name (.unquoted "c d")]⟩ ∧
    Identifier.parse " " = .error .empty :=
  ⟨((parse_spelled_iff _).1 _).mpr ⟨mixedPieces, spelled_mixed, rfl⟩,
    (parse_spelled_iff " ").2.1 (by decide)⟩

end Identifier

end OlapClient
