import OlapClient.Proofs.Identifier.ListRoundTrip
import OlapClient.Proofs.Traversal

/-!
# Unfinished texts

The front of a text that may go on: what stands before an element, before an identifier and before a
part of one, and which bracket of it was opened and is not closed. The grammar of whole texts is
taken for all that is complete; nothing here looks at a scan.
-/

namespace OlapClient

namespace Spelling

/-! ### What stands before -/

/-- Texts with a comma behind each. -/
def followed (texts : List (List Char)) : List Char := texts.flatMap (· ++ [','])

/-- A text is an element of the shape: a tuple or an identifier. -/
def IsElement (shape : Shape) (text : List Char) : Prop :=
  if shape.ofTuples then ∃ t, ReadsTuple text t else ∃ i, Reads text i

/-- The text up to the elements, and where a brace stands in it. -/
inductive ListOpening (shape : Shape) : Option Nat → List Char → Prop where
  | none : ListOpening shape none []
  | brace (gap : List Char) (hl : shape.isList = true) (hg : Blanks gap) :
      ListOpening shape (some gap.length) (gap ++ ['{'])

/-- What stands before an element: all elements before it, with a comma behind each, and blanks. -/
inductive BeforeElement (shape : Shape) (brace : Option Nat) : List Char → Prop where
  | mk (opening : List Char) (texts : List (List Char)) (gap : List Char)
      (ho : ListOpening shape brace opening) (hl : texts ≠ [] → shape.isList = true)
      (ht : ∀ text ∈ texts, IsElement shape text) (hg : Blanks gap) :
      BeforeElement shape brace (opening ++ followed texts ++ gap)

/-- What stands before an identifier, and where the parenthesis around it opened. -/
inductive BeforeMember (shape : Shape) (brace : Option Nat) : Option Nat → List Char → Prop where
  | alone (text : List Char) (hs : shape.ofTuples = false) (hb : BeforeElement shape brace text) :
      BeforeMember shape brace none text
  | inTuple (before : List Char) (texts : List (List Char)) (hs : shape.ofTuples = true)
      (hb : BeforeElement shape brace before) (ht : ∀ text ∈ texts, ∃ i, Reads text i) :
      BeforeMember shape brace (some before.length) (before ++ '(' :: followed texts)

/-- What stands before a part of an identifier, and how that part is introduced. -/
inductive BeforePart : Link → List Char → Prop where
  | first (opening : List Char) (link : Link) (ho : Opening opening link) : BeforePart link opening
  | next (text separator : List Char) (i : Identifier) (link : Link) (hi : Reads text i)
      (hs : Separator separator link) : BeforePart link (text ++ separator)

/-- What stands before a name in the whole text. -/
inductive BeforeName (shape : Shape) (brace paren : Option Nat) (link : Link) :
    List Char → Prop where
  | mk (head part : List Char) (hm : BeforeMember shape brace paren head)
      (hp : BeforePart link part) : BeforeName shape brace paren link (head ++ part)

/-- What stands behind a part of an identifier that may end there. -/
inductive BehindPart (shape : Shape) (brace paren : Option Nat) : List Char → Prop where
  | mk (head text : List Char) (i : Identifier) (hm : BeforeMember shape brace paren head)
      (hi : Reads text i) : BehindPart shape brace paren (head ++ text)

/-- What stands behind an element of a list. -/
inductive BehindElement (shape : Shape) (brace : Option Nat) : List Char → Prop where
  | mk (opening : List Char) (texts : List (List Char)) (text : List Char)
      (hl : shape.isList = true) (ho : ListOpening shape brace opening)
      (ht : ∀ text ∈ texts, IsElement shape text) (he : IsElement shape text) :
      BehindElement shape brace (opening ++ followed texts ++ text)

/-- A bracket, a parenthesis or a brace opened at the given offset, and the text ends before it is
closed. -/
inductive Unclosed (shape : Shape) : List Char → Nat → Prop where
  | bracket (brace paren : Option Nat) (link : Link) (before body : List Char)
      (hb : BeforeName shape brace paren link before) :
      Unclosed shape (before ++ '[' :: Name.escape body) before.length
  | paren (brace : Option Nat) (before : List Char) (texts : List (List Char))
      (hs : shape.ofTuples = true) (hb : BeforeElement shape brace before) (hne : texts ≠ [])
      (ht : ∀ text ∈ texts, ∃ i, Reads text i) :
      Unclosed shape (before ++ '(' :: joined texts) before.length
  | brace (gap inside : List Char) (hl : shape.isList = true) (hg : Blanks gap)
      (hi : Blanks inside ∨
        ∃ texts, texts ≠ [] ∧ inside = joined texts ∧ ∀ text ∈ texts, IsElement shape text) :
      Unclosed shape (gap ++ '{' :: inside) gap.length

/-! ### Longer texts -/

theorem followed_concat (texts : List (List Char)) (text : List Char) :
    followed (texts ++ [text]) = followed texts ++ text ++ [','] := by
  simp [followed]

theorem joined_concat (texts : List (List Char)) (text : List Char) :
    joined (texts ++ [text]) = followed texts ++ text := by
  induction texts with
  | nil => simp [joined_singleton, followed]
  | cons first texts ih =>
    rw [List.cons_append, joined_cons first _ (by simp), ih]
    simp [followed]

theorem forall_mem_concat {α : Type} {p : α → Prop} {as : List α} {a : α} (h : ∀ a ∈ as, p a)
    (ha : p a) : ∀ a' ∈ as ++ [a], p a' :=
  List.forall_mem_append.mpr ⟨h, List.forall_mem_singleton.mpr ha⟩

/-- What ends a part: blanks up to something reserved or to the end. -/
def EndsPart (rest : List Char) : Prop :=
  rest.head? ≠ some ']' ∧ ∀ c, (rest.dropWhile Text.isBlank).head? = some c → c ∈ reserved

theorem endsPart_append (gap rest : List Char) (hg : Blanks gap)
    (hr : ∀ c, rest.head? = some c → c ∈ reserved) : EndsPart (gap ++ rest) := by
  refine ⟨?_, ?_⟩
  · cases gap with
    | nil =>
      intro hc
      exact absurd (hr ']' hc) (by decide)
    | cons c gap =>
      rintro ⟨⟩
      exact absurd (hg ']' List.mem_cons_self) (by decide)
  · rw [dropWhile_reserved gap rest hg hr]
    exact hr

theorem endsPart_blanks (gap : List Char) (hg : Blanks gap) : EndsPart gap := by
  have h := endsPart_append gap [] hg (fun c hc => by cases hc)
  rwa [List.append_nil] at h

theorem Separator.endsPart {separator : List Char} {link : Link} (h : Separator separator link)
    (rest : List Char) : EndsPart (separator ++ rest) := by
  have hreserved : ∀ c rest, c ∈ reserved → ∀ c', (c :: rest : List Char).head? = some c' →
      c' ∈ reserved := by
    rintro c rest hc c' ⟨⟩
    exact hc
  cases h with
  | point gap opening _ hg _ =>
    have he := endsPart_append gap ('.' :: (opening ++ rest)) hg (hreserved '.' _ (by decide))
    simpa using he
  | mark gap gap' hg _ =>
    have he := endsPart_append gap ('&' :: (gap' ++ rest)) hg (hreserved '&' _ (by decide))
    simpa using he

theorem Tail.endsPart {text : List Char} {pieces : List Piece} (h : Tail text pieces) :
    EndsPart text := by
  cases h with
  | done gap hg => exact endsPart_blanks _ hg
  | more separator text rest link name pieces hs =>
    rw [List.append_assoc]
    exact hs.endsPart _

theorem Part.before {text rest outer : List Char} {name : Name} (h : Part text rest name)
    (ho : EndsPart outer) : Part text (rest ++ outer) name := by
  cases h with
  | bracketed body _ h =>
    refine .bracketed body (rest ++ outer) ?_
    cases rest with
    | nil => exact ho.1
    | cons c rest => exact h
  | bare _ _ ht h =>
    refine .bare text (rest ++ outer) ht fun c hc => ?_
    rw [List.dropWhile_append] at hc
    cases hr : rest.dropWhile Text.isBlank with
    | nil =>
      rw [hr] at hc
      exact ho.2 c hc
    | cons c' rest' =>
      rw [hr] at hc h
      exact h c hc

theorem Separator.after_blanks {separator gap : List Char} {link : Link}
    (h : Separator separator link) (hg : Blanks gap) : Separator (gap ++ separator) link := by
  cases h with
  | point gap' opening _ hg' ho =>
    have hs := Separator.point (gap ++ gap') opening link (blanks_append gap gap' hg hg') ho
    simpa using hs
  | mark gap' gap'' hg' hg'' =>
    have hs := Separator.mark (gap ++ gap') gap'' (blanks_append gap gap' hg hg') hg''
    simpa using hs

theorem Tail.after_blanks {text gap : List Char} {pieces : List Piece} (h : Tail text pieces)
    (hg : Blanks gap) : Tail (gap ++ text) pieces := by
  cases h with
  | done gap' hg' => exact .done _ (blanks_append gap _ hg hg')
  | more separator text rest link name pieces hs hp ht =>
    have hmore := Tail.more _ text rest link name pieces (hs.after_blanks hg) hp ht
    simpa using hmore

theorem Tail.append {text outer : List Char} {pieces more : List Piece} (h : Tail text pieces)
    (ho : Tail outer more) : Tail (text ++ outer) (pieces ++ more) := by
  induction h with
  | done gap hg => exact ho.after_blanks hg
  | more separator text rest link name pieces hs hp ht ih =>
    have hmore := Tail.more separator text _ link name _ hs (hp.before ho.endsPart) ih
    simpa using hmore

theorem Spelled.reads {text : List Char} {pieces : List Piece} (h : Spelled text pieces) :
    ∃ i, Reads text i := ⟨⟨segments pieces⟩, pieces, h, rfl⟩

/-- An identifier goes on where a tail of one follows. -/
theorem Reads.append {text outer : List Char} {i : Identifier} {more : List Piece}
    (h : Reads text i) (ho : Tail outer more) : ∃ i', Reads (text ++ outer) i' := by
  obtain ⟨pieces, ⟨opening, text, rest, link, name, pieces, hopening, hp, ht⟩, -⟩ := h
  have hs := Spelled.mk opening text (rest ++ outer) link name _ hopening (hp.before ho.endsPart)
    (ht.append ho)
  have hreads := hs.reads
  simpa using hreads

theorem Reads.before_blanks {text gap : List Char} {i : Identifier} (h : Reads text i)
    (hg : Blanks gap) : ∃ i', Reads (text ++ gap) i' := h.append (.done gap hg)

theorem Opening.before_blanks {opening gap : List Char} {link : Link} (h : Opening opening link)
    (hg : Blanks gap) : Opening (opening ++ gap) link := by
  cases h with
  | name _ hg' => exact .name _ (blanks_append opening gap hg' hg)
  | key gap' gap'' hg' hg'' =>
    have ho := Opening.key gap' (gap'' ++ gap) hg' (blanks_append gap'' gap hg'' hg)
    simpa using ho

theorem Separator.before_blanks {separator gap : List Char} {link : Link}
    (h : Separator separator link) (hg : Blanks gap) : Separator (separator ++ gap) link := by
  cases h with
  | point gap' opening _ hg' ho =>
    have hs := Separator.point gap' (opening ++ gap) link hg' (ho.before_blanks hg)
    simpa using hs
  | mark gap' gap'' hg' hg'' =>
    have hs := Separator.mark gap' (gap'' ++ gap) hg' (blanks_append gap'' gap hg'' hg)
    simpa using hs

namespace BeforePart

variable {link : Link} {text : List Char}

theorem before_blanks (h : BeforePart link text) {gap : List Char} (hg : Blanks gap) :
    BeforePart link (text ++ gap) := by
  cases h with
  | first opening _ ho => exact .first _ link (ho.before_blanks hg)
  | next text separator i _ hi hs =>
    rw [List.append_assoc]
    exact .next text _ i link hi (hs.before_blanks hg)

/-- A key mark makes a key of a name. -/
theorem mark (h : BeforePart .name text) : BeforePart .newKey (text ++ ['&']) := by
  have hopening : ∀ {opening}, Opening opening .name → Opening (opening ++ ['&']) .newKey := by
    intro opening ho
    cases ho with
    | name _ hg =>
      have hk := Opening.key opening [] hg blanks_nil
      simpa using hk
  cases h with
  | first opening _ ho => exact .first _ _ (hopening ho)
  | next text separator i _ hi hs =>
    rw [List.append_assoc]
    refine .next text _ i _ hi ?_
    cases hs with
    | point gap opening _ hg ho =>
      have hs := Separator.point gap _ _ hg (hopening ho)
      simpa using hs

/-- Behind a part the identifier may end. -/
theorem part (h : BeforePart link text) {part rest : List Char} {name : Name}
    (hp : Part part rest name) (hr : Blanks rest) : ∃ i, Reads (text ++ (part ++ rest)) i := by
  cases h with
  | first opening _ ho =>
    rw [← List.append_assoc]
    exact (Spelled.mk text part rest link name [] ho hp (.done rest hr)).reads
  | next text separator i _ hi hs =>
    have hmore := hi.append (.more separator part rest link name [] hs hp (.done rest hr))
    simpa using hmore

/-- The characters of a bare name that is not complete, or that is. -/
theorem bare (h : BeforePart link text) {c : Char} {cs : List Char} (hb : Text.isBlank c = false)
    (ho : c ∉ openers) (hr : ∀ c' ∈ c :: cs, c' ∉ reserved) : ∃ i, Reads (text ++ c :: cs) i := by
  obtain ⟨kept, gap, hsplit, hg, hlast⟩ := trailing_blanks (c :: cs)
  have hbare : IsBare kept := by
    refine ⟨?_, ?_, hlast, fun c' hc' => hr c' (by rw [hsplit]; exact List.mem_append_left gap hc')⟩
    · rintro rfl
      rw [List.nil_append] at hsplit
      have hblank := hg c (hsplit ▸ List.mem_cons_self)
      rw [hb] at hblank
      cases hblank
    · intro c' hc'
      obtain ⟨kept', rfl⟩ := List.head?_eq_some_iff.mp hc'
      rw [← (List.cons.inj hsplit).1]
      exact ⟨hb, ho⟩
  have hend := (endsPart_blanks gap hg).2
  rw [hsplit]
  exact h.part (.bare kept gap hbare hend) hg

end BeforePart

/-! ### Steps along a text -/

variable {shape : Shape} {brace paren : Option Nat} {text : List Char}

theorem IsElement.before_blanks {gap : List Char} (h : IsElement shape text) (hg : Blanks gap) :
    IsElement shape (text ++ gap) := by
  cases hs : shape.ofTuples with
  | false =>
    simp only [IsElement, hs] at h ⊢
    obtain ⟨i, hi⟩ := h
    exact hi.before_blanks hg
  | true =>
    simp only [IsElement, hs, if_true] at h ⊢
    obtain ⟨t, gap', texts, gap'', rfl, hg', hg'', hne, hall⟩ := h
    exact ⟨t, gap', texts, gap'' ++ gap, by simp, hg', blanks_append gap'' gap hg'' hg, hne, hall⟩

/-- Identifiers between parentheses are a tuple. -/
theorem isElement_paren (hs : shape.ofTuples = true) {gap : List Char} (hg : Blanks gap)
    {texts : List (List Char)} (hne : texts ≠ []) (ht : ∀ text ∈ texts, ∃ i, Reads text i) :
    IsElement shape (gap ++ '(' :: (joined texts ++ [')'])) := by
  obtain ⟨members, hall⟩ := exists_forall₂ ht
  simp only [IsElement, hs, if_true]
  exact ⟨⟨members⟩, gap, texts, [], rfl, hg, blanks_nil, hne, hall⟩

namespace BeforeElement

theorem before_blanks (h : BeforeElement shape brace text) {gap : List Char} (hg : Blanks gap) :
    BeforeElement shape brace (text ++ gap) := by
  obtain ⟨opening, texts, gap', ho, hl, ht, hg'⟩ := h
  rw [List.append_assoc]
  exact .mk opening texts _ ho hl ht (blanks_append gap' gap hg' hg)

theorem start {gap : List Char} (hg : Blanks gap) : BeforeElement shape none gap := by
  have h : BeforeElement shape none ([] ++ followed [] ++ gap) :=
    .mk [] [] gap .none (by simp) (by simp) hg
  simpa [followed] using h

theorem brace_isList (h : BeforeElement shape brace text) (hb : brace.isSome = true) :
    shape.isList = true := by
  obtain ⟨opening, texts, gap, ho, -⟩ := h
  cases ho with
  | none => cases hb
  | brace gap' hl hg' => exact hl

theorem element (h : BeforeElement shape brace text) (hl : shape.isList = true)
    {element : List Char} (he : ∀ gap, Blanks gap → IsElement shape (gap ++ element)) :
    BehindElement shape brace (text ++ element) := by
  obtain ⟨opening, texts, gap, ho, -, ht, hg⟩ := h
  rw [List.append_assoc]
  exact .mk opening texts _ hl ho ht (he gap hg)

theorem openTuple (h : BeforeElement shape brace text) (hs : shape.ofTuples = true) :
    BeforeName shape brace (some text.length) .name (text ++ ['(']) := by
  have hm := BeforeMember.inTuple text [] hs h (by simp)
  have hn := BeforeName.mk _ [] hm (.first [] .name (.name [] blanks_nil))
  simpa [followed] using hn

theorem name (h : BeforeElement shape brace text) (hs : shape.ofTuples = false) :
    BeforeName shape brace none .name text := by
  have hn := BeforeName.mk _ [] (.alone text hs h) (.first [] .name (.name [] blanks_nil))
  rwa [List.append_nil] at hn

end BeforeElement

theorem BeforeMember.brace_isList (h : BeforeMember shape brace paren text)
    (hb : brace.isSome = true) : shape.isList = true := by
  cases h with
  | alone _ hs h => exact h.brace_isList hb
  | inTuple before texts hs h ht => exact h.brace_isList hb

namespace BeforeName

variable {link : Link}

theorem brace_isList (h : BeforeName shape brace paren link text) (hb : brace.isSome = true) :
    shape.isList = true := by
  obtain ⟨head, part, hm, hp⟩ := h
  exact hm.brace_isList hb

theorem before_blanks (h : BeforeName shape brace paren link text) {gap : List Char}
    (hg : Blanks gap) : BeforeName shape brace paren link (text ++ gap) := by
  obtain ⟨head, part, hm, hp⟩ := h
  rw [List.append_assoc]
  exact .mk head _ hm (hp.before_blanks hg)

theorem mark (h : BeforeName shape brace paren .name text) :
    BeforeName shape brace paren .newKey (text ++ ['&']) := by
  obtain ⟨head, part, hm, hp⟩ := h
  rw [List.append_assoc]
  exact .mk head _ hm hp.mark

theorem bracketed (h : BeforeName shape brace paren link text) (body : List Char) :
    BehindPart shape brace paren (text ++ Name.bracket body) := by
  obtain ⟨head, part, hm, hp⟩ := h
  obtain ⟨i, hi⟩ := hp.part (.bracketed body [] (by simp)) blanks_nil
  rw [List.append_nil] at hi
  rw [List.append_assoc]
  exact .mk head _ i hm hi

theorem bare (h : BeforeName shape brace paren link text) {c : Char} {cs : List Char}
    (hb : Text.isBlank c = false) (ho : c ∉ openers) (hr : ∀ c' ∈ c :: cs, c' ∉ reserved) :
    BehindPart shape brace paren (text ++ c :: cs) := by
  obtain ⟨head, part, hm, hp⟩ := h
  obtain ⟨i, hi⟩ := hp.bare hb ho hr
  rw [List.append_assoc]
  exact .mk head _ i hm hi

end BeforeName

namespace BehindPart

theorem before_blanks (h : BehindPart shape brace paren text) {gap : List Char} (hg : Blanks gap) :
    BehindPart shape brace paren (text ++ gap) := by
  obtain ⟨head, text, i, hm, hi⟩ := h
  obtain ⟨i', hi'⟩ := hi.before_blanks hg
  rw [List.append_assoc]
  exact .mk head _ i' hm hi'

theorem separator (h : BehindPart shape brace paren text) {separator : List Char} {link : Link}
    (hs : Separator separator link) : BeforeName shape brace paren link (text ++ separator) := by
  obtain ⟨head, text, i, hm, hi⟩ := h
  rw [List.append_assoc]
  exact .mk head _ hm (.next text separator i link hi hs)

/-- Behind an identifier of a tuple another one may stand. -/
theorem comma (h : BehindPart shape brace paren text) (hp : paren.isSome = true) :
    BeforeName shape brace paren .name (text ++ [',']) := by
  obtain ⟨head, text, i, hm, hi⟩ := h
  cases hm with
  | alone => cases hp
  | inTuple before texts hs hb ht =>
    have hm := BeforeMember.inTuple before (texts ++ [text]) hs hb (forall_mem_concat ht ⟨i, hi⟩)
    have hn := BeforeName.mk _ [] hm (.first [] .name (.name [] blanks_nil))
    simpa [followed_concat] using hn

/-- Behind the parenthesis that closes a tuple, the tuple is an element of a list. -/
theorem close (h : BehindPart shape brace paren text) (hp : paren.isSome = true)
    (hl : shape.isList = true) : BehindElement shape brace (text ++ [')']) := by
  obtain ⟨head, text, i, hm, hi⟩ := h
  cases hm with
  | alone => cases hp
  | inTuple before texts hs hb ht =>
    have ht' := forall_mem_concat ht ⟨i, hi⟩
    have he := hb.element hl fun gap hg => isElement_paren hs hg (by simp) ht'
    simpa [joined_concat] using he

/-- An identifier that stands in no tuple is an element of a list. -/
theorem element (h : BehindPart shape brace none text) (hl : shape.isList = true) :
    BehindElement shape brace text := by
  obtain ⟨head, text, i, hm, hi⟩ := h
  cases hm with
  | alone _ hs hb =>
    refine hb.element hl fun gap hg => ?_
    simp only [IsElement, hs]
    exact ⟨i, hi.after_blanks hg⟩

theorem brace_isList (h : BehindPart shape brace paren text) (hb : brace.isSome = true) :
    shape.isList = true := by
  obtain ⟨head, text, i, hm, hi⟩ := h
  exact hm.brace_isList hb

theorem unclosed {opened : Nat} (h : BehindPart shape brace (some opened) text) :
    Unclosed shape text opened := by
  obtain ⟨head, text, i, hm, hi⟩ := h
  cases hm with
  | inTuple before texts hs hb ht =>
    have hu := Unclosed.paren brace before (texts ++ [text]) hs hb (by simp)
      (forall_mem_concat ht ⟨i, hi⟩)
    simpa [joined_concat] using hu

end BehindPart

namespace BehindElement

theorem brace_isList (h : BehindElement shape brace text) : shape.isList = true := by
  obtain ⟨opening, texts, text, hl, -⟩ := h
  exact hl

theorem before_blanks (h : BehindElement shape brace text) {gap : List Char} (hg : Blanks gap) :
    BehindElement shape brace (text ++ gap) := by
  obtain ⟨opening, texts, text, hl, ho, ht, he⟩ := h
  rw [List.append_assoc]
  exact .mk opening texts _ hl ho ht (he.before_blanks hg)

theorem comma (h : BehindElement shape brace text) : BeforeElement shape brace (text ++ [',']) := by
  obtain ⟨opening, texts, text, hl, ho, ht, he⟩ := h
  have hb := BeforeElement.mk opening (texts ++ [text]) [] ho (fun _ => hl)
    (forall_mem_concat ht he) blanks_nil
  simpa [followed_concat] using hb

theorem unclosed {opened : Nat} (h : BehindElement shape (some opened) text) :
    Unclosed shape text opened := by
  obtain ⟨opening, texts, text, hl, ho, ht, he⟩ := h
  cases ho with
  | brace gap _ hg =>
    have hu := Unclosed.brace gap (joined (texts ++ [text])) hl hg
      (.inr ⟨_, by simp, rfl, forall_mem_concat ht he⟩)
    simpa [joined_concat] using hu

end BehindElement

end Spelling

end OlapClient
