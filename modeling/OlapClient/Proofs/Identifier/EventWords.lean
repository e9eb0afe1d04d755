import Mathlib.Computability.Language
import OlapClient.Proofs.Identifier.Completion

/-!
# The order of events

What a scan reports is a word of the shape that is read, or the beginning of one if the text is
refused: an identifier is segments and then its completion, a tuple is identifiers and then its own,
a list is any number of either. For a text that is accepted this is read off its spelling; one that
is refused can be completed behind what was read, and then reports what it did and more.
-/

namespace OlapClient

open Spelling
open scoped Computability

/-! ### Words -/

/-- One word or more. -/
def oneOrMore (l : Language Event) : Language Event := l * l∗

/-- One segment, whichever it is. -/
def segmentWords : Language Event := {word | ∃ segment, word = [.segment segment]}

/-- An identifier. -/
def memberWords : Language Event := oneOrMore segmentWords * {[.member]}

/-- A tuple. -/
def tupleWords : Language Event := oneOrMore memberWords * {[.tuple]}

/-- What is reported for a text of the shape. -/
def Shape.words : Shape → Language Event
  | .identifier => memberWords
  | .memberList => memberWords∗
  | .tuple => tupleWords
  | .tupleList => tupleWords∗

theorem flatMap_mem_kstar {α : Type} {l : Language Event} (events : α → List Event) (as : List α)
    (h : ∀ a ∈ as, events a ∈ l) : as.flatMap events ∈ l∗ := by
  rw [List.flatMap_def]
  refine Language.join_mem_kstar fun word hword => ?_
  obtain ⟨a, ha, rfl⟩ := List.mem_map.mp hword
  exact h a ha

theorem flatMap_mem_oneOrMore {α : Type} {l : Language Event} (events : α → List Event)
    (as : List α) (hne : as ≠ []) (h : ∀ a ∈ as, events a ∈ l) :
    as.flatMap events ∈ oneOrMore l := by
  obtain ⟨a, as, rfl⟩ := List.exists_cons_of_ne_nil hne
  rw [List.flatMap_cons]
  exact Language.append_mem_mul (h a List.mem_cons_self)
    (flatMap_mem_kstar events as fun a' hmem => h a' (List.mem_cons_of_mem _ hmem))

theorem memberEvents_mem (i : Identifier) (h : i.Writable) : Scan.memberEvents i ∈ memberWords := by
  refine Language.append_mem_mul ?_ rfl
  rw [List.map_eq_flatMap]
  exact flatMap_mem_oneOrMore _ _ h.1 fun segment _ => ⟨segment, rfl⟩

theorem tupleEvents_mem (t : Tuple) (hne : t.members ≠ []) (h : ∀ i ∈ t.members, i.Writable) :
    Scan.tupleEvents t ∈ tupleWords :=
  Language.append_mem_mul
    (flatMap_mem_oneOrMore _ _ hne fun i hi => memberEvents_mem i (h i hi)) rfl

/-! ### Segments that are reported -/

/-- All segments among the events can be written. -/
def SegmentsWritable (events : List Event) : Prop :=
  ∀ segment, .segment segment ∈ events → segment.Writable

theorem memberEvents_writable (i : Identifier) (h : i.Writable) :
    SegmentsWritable (Scan.memberEvents i) := by
  intro segment hmem
  refine h.2 segment ?_
  simpa [Scan.memberEvents] using hmem

theorem tupleEvents_writable (t : Tuple) (h : ∀ i ∈ t.members, i.Writable) :
    SegmentsWritable (Scan.tupleEvents t) := by
  intro segment hmem
  simp only [Scan.tupleEvents, List.mem_append, List.mem_flatMap, List.mem_singleton,
    reduceCtorEq, or_false] at hmem
  obtain ⟨i, hi, hmem⟩ := hmem
  exact memberEvents_writable i (h i hi) segment hmem

theorem flatMap_writable {α : Type} (events : α → List Event) (as : List α)
    (h : ∀ a ∈ as, SegmentsWritable (events a)) : SegmentsWritable (as.flatMap events) := by
  intro segment hmem
  obtain ⟨a, ha, hmem⟩ := List.mem_flatMap.mp hmem
  exact h a ha segment hmem

/-! ### Texts that are accepted -/

theorem forall_of_reads {α : Type} {reads : List Char → α → Prop} {p : α → Prop}
    (hp : ∀ text a, reads text a → p a) {texts : List (List Char)} {elements : List α}
    (h : List.Forall₂ reads texts elements) : ∀ a ∈ elements, p a := by
  intro a ha
  obtain ⟨text, -, hread⟩ := exists_of_forall₂ h.flip a ha
  exact hp text a hread

theorem Spelling.ReadsTuple.writable {text : List Char} {t : Tuple} (h : ReadsTuple text t) :
    t.members ≠ [] ∧ ∀ i ∈ t.members, i.Writable := by
  obtain ⟨gap, texts, gap', rfl, hg, hg', hne, hall⟩ := h
  refine ⟨?_, forall_of_reads (fun text i hi => hi.writable) hall⟩
  intro hnil
  rw [hnil] at hall
  cases hall
  exact hne rfl

theorem ElementKind.forall_of_list {α : Type} (k : ElementKind α) {p : α → Prop}
    (hp : ∀ text a, k.reads text a → p a) {text : List Char} {elements : List α}
    (h : k.IsList text elements) : ∀ a ∈ elements, p a := by
  have listed : ∀ text, Listed k.reads text elements → ∀ a ∈ elements, p a := by
    rintro text (⟨-, rfl⟩ | ⟨texts, -, -, hall⟩)
    · simp
    · exact forall_of_reads hp hall
  rcases h with hl | ⟨gap, body, gap', -, -, -, hl⟩
  · exact listed _ hl
  · exact listed _ hl

/-- What is reported for a list that is accepted. -/
theorem ElementKind.list_words {α : Type} (k : ElementKind α) (l : Language Event)
    (hk : ∀ text a, k.reads text a → k.events a ∈ l ∧ SegmentsWritable (k.events a))
    (text : List Char) (h : ((Scan.start k.shape).run 0 text).2 = .ok ()) :
    ((Scan.start k.shape).run 0 text).1 ∈ l∗ ∧
      SegmentsWritable ((Scan.start k.shape).run 0 text).1 := by
  obtain ⟨elements, hl⟩ := k.list_of_accepted text h
  have hall := k.forall_of_list hk hl
  rw [k.run_list hl]
  exact ⟨flatMap_mem_kstar _ _ fun a ha => (hall a ha).1,
    flatMap_writable _ _ fun a ha => (hall a ha).2⟩

theorem Event.scan_accepted (shape : Shape) (input : String)
    (h : (Event.scan shape input).2 = .ok ()) :
    (Event.scan shape input).1 ∈ shape.words ∧ SegmentsWritable (Event.scan shape input).1 := by
  have member : ∀ text i, Reads text i →
      Scan.memberEvents i ∈ memberWords ∧ SegmentsWritable (Scan.memberEvents i) :=
    fun text i hi => ⟨memberEvents_mem i hi.writable, memberEvents_writable i hi.writable⟩
  have tuple : ∀ text t, ReadsTuple text t →
      Scan.tupleEvents t ∈ tupleWords ∧ SegmentsWritable (Scan.tupleEvents t) := by
    intro text t ht
    obtain ⟨hne, hw⟩ := ht.writable
    exact ⟨tupleEvents_mem t hne hw, tupleEvents_writable t hw⟩
  cases shape with
  | identifier =>
    obtain ⟨i, hi⟩ := Identifier.reads_of_scan input h
    rw [Identifier.scan_of_reads input i hi]
    exact member _ i hi
  | memberList => exact Identifier.elementKind.list_words memberWords member input.toList h
  | tuple =>
    obtain ⟨t, ht⟩ := Tuple.reads_of_scan input h
    rw [Tuple.scan_of_reads input t ht]
    exact tuple _ t ht
  | tupleList => exact Tuple.elementKind.list_words tupleWords tuple input.toList h

/-! ### All texts -/

/-- A text that is refused can be made one that is accepted and reports the same and more. -/
theorem Event.scan_extends (shape : Shape) (input : String) : ∃ input',
    (Event.scan shape input').2 = .ok () ∧
      (Event.scan shape input).1 <+: (Event.scan shape input').1 := by
  rcases h : Event.scan shape input with ⟨events, refusal | ⟨⟩⟩
  · obtain ⟨front, behind, -, ⟨more, total, htotal, hbegins⟩, -⟩ :=
      (Scan.reached_start shape).run_refused input.toList h
    have hscan : Event.scan shape (String.ofList (front ++ more)) = (total, .ok ()) := by
      rw [Event.scan, String.toList_ofList]
      exact htotal
    exact ⟨String.ofList (front ++ more), by rw [hscan], by rwa [hscan]⟩
  · exact ⟨input, by rw [h], by rw [h]⟩

theorem Identifier.parse_empty_iff (s : String) :
    Identifier.parse s = .error .empty ↔ Text.isBlankText s = true := by
  constructor
  · intro h
    cases hb : Text.isBlankText s with
    | true => rfl
    | false =>
      rcases Assembly.parse_cases .identifier s with ⟨refusal, he⟩ | hs
      · simp [Identifier.parse, hb, he, bind, Except.bind] at h
      · obtain ⟨i, hi⟩ := reads_of_scan s hs
        rw [parse_of_reads s i hi] at h
        cases h
  · intro hb
    simp [Identifier.parse, hb]

theorem Tuple.parse_ne_empty (s : String) : Tuple.parse s ≠ .error .empty := by
  intro h
  rcases Assembly.parse_cases .tuple s with ⟨refusal, he⟩ | hs
  · simp [Tuple.parse, he, bind, Except.bind] at h
  · obtain ⟨t, ht⟩ := reads_of_scan s hs
    rw [(parse_eq_ok_iff s t).mpr ht] at h
    cases h

/-- For every text, what is reported is the beginning of a word of the shape, and a whole word if
the text is accepted; every segment reported is one that can be written, with key parts if it is a
key and with bare names that are bare. So only a blank text is reported to be an empty identifier,
and none to be an empty tuple. -/
theorem Event.scan_is_ordered (input : String) :
    (∀ shape : Shape,
      (∃ word ∈ shape.words, (Event.scan shape input).1 <+: word) ∧
      ((Event.scan shape input).2 = .ok () → (Event.scan shape input).1 ∈ shape.words) ∧
      ∀ segment, .segment segment ∈ (Event.scan shape input).1 → segment.Writable) ∧
    (Identifier.parse input = .error .empty ↔ Text.isBlankText input = true) ∧
    Tuple.parse input ≠ .error .empty := by
  refine ⟨fun shape => ?_, Identifier.parse_empty_iff input, Tuple.parse_ne_empty input⟩
  obtain ⟨input', hok, hbegins⟩ := Event.scan_extends shape input
  obtain ⟨hword, hwritable⟩ := Event.scan_accepted shape input' hok
  exact ⟨⟨_, hword, hbegins⟩, fun h => (Event.scan_accepted shape input h).1,
    fun segment hmem => hwritable segment (hbegins.subset hmem)⟩

/-- A list that breaks off within its second identifier, behind a key that was held back; a text
that is complete; blanks, which are an empty identifier and an unfinished tuple. -/
theorem Event.unfinished_list_is_ordered :
    (Event.scan .memberList "\x7ba.&1&[2], [b").1 =
      [.segment (.name (.unquoted "a")), .segment (.key [.unquoted "1", .quoted "2"]), .member] ∧
    (∃ word ∈ Shape.words .memberList, [.segment (.name (.unquoted "a")),
      .segment (.key [.unquoted "1", .quoted "2"]), .member] <+: word) ∧
    Segment.Writable (.key [.unquoted "1", .quoted "2"]) ∧
    [.segment (.name (.unquoted "a")), .member] ∈ Shape.words .identifier ∧
    Identifier.parse " " = .error .empty ∧ Tuple.parse " " ≠ .error .empty := by
  have hevents : (Event.scan .memberList "\x7ba.&1&[2], [b").1 =
      [.segment (.name (.unquoted "a")), .segment (.key [.unquoted "1", .quoted "2"]),
        .member] := by
    decide
  obtain ⟨hword, -, hwritable⟩ := (Event.scan_is_ordered "\x7ba.&1&[2], [b").1 .memberList
  obtain ⟨-, hempty, htuple⟩ := Event.scan_is_ordered " "
  rw [hevents] at hword hwritable
  exact ⟨hevents, hword, hwritable _ (by simp),
    ((Event.scan_is_ordered "a").1 .identifier).2.1 (by decide), hempty.mpr (by decide), htuple⟩

end OlapClient
