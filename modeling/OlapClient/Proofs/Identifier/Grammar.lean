import OlapClient.Identifier.Basic
import OlapClient.Text.Blank

/-!
# How an identifier is spelled

An identifier is one part or more, with separators between them and blanks around everything: a
point, a key mark, or a point and a key mark. The grammar of that is given here without regard to
how a text is scanned. A part is taken together with the text behind it, since neither kind of part
may end earlier than it has to. What the parts are read as is a second matter (`segments`).
-/

namespace OlapClient.Spelling

/-- What no bare name contains. -/
def reserved : List Char := ['.', ',', ')', '}', '&']

/-- What no bare name starts with, although it may contain it. -/
def openers : List Char := ['[', ']', '(', '{']

def Blanks (gap : List Char) : Prop := ∀ c ∈ gap, Text.isBlank c = true

/-- What can stand for a name without brackets. -/
structure IsBare (text : List Char) : Prop where
  nonempty : text ≠ []
  first : ∀ c, text.head? = some c → Text.isBlank c = false ∧ c ∉ openers
  last : ∀ c, text.getLast? = some c → Text.isBlank c = false
  inside : ∀ c ∈ text, c ∉ reserved

/-- A part, the text behind it, and what it names. -/
inductive Part : List Char → List Char → Name → Prop where
  /-- The bracket that closes has no other one behind it. -/
  | bracketed (body rest : List Char) (h : rest.head? ≠ some ']') :
      Part (Name.bracket body) rest (.quoted (String.ofList body))
  /-- A bare name extends, but for blanks, to the next reserved character or to the end. -/
  | bare (text rest : List Char) (ht : IsBare text)
      (h : ∀ c, (rest.dropWhile Text.isBlank).head? = some c → c ∈ reserved) :
      Part text rest (.unquoted (String.ofList text))

/-- How a part is introduced. -/
inductive Link where
  /-- By nothing or by a point. -/
  | name
  /-- By a key mark at the start or behind a point. -/
  | newKey
  /-- By a key mark directly behind another part. -/
  | key
  deriving DecidableEq, Repr

/-- What stands before the first part, and before a part behind a point. -/
inductive Opening : List Char → Link → Prop where
  | name (gap : List Char) (hg : Blanks gap) : Opening gap .name
  | key (gap gap' : List Char) (hg : Blanks gap) (hg' : Blanks gap') :
      Opening (gap ++ ['&'] ++ gap') .newKey

/-- What stands between two parts. -/
inductive Separator : List Char → Link → Prop where
  | point (gap opening : List Char) (link : Link) (hg : Blanks gap) (ho : Opening opening link) :
      Separator (gap ++ ['.'] ++ opening) link
  | mark (gap gap' : List Char) (hg : Blanks gap) (hg' : Blanks gap') :
      Separator (gap ++ ['&'] ++ gap') .key

structure Piece where
  link : Link
  name : Name
  deriving DecidableEq, Repr

/-- The text behind a part: more parts, each with a separator before it, and blanks. -/
inductive Tail : List Char → List Piece → Prop where
  | done (gap : List Char) (hg : Blanks gap) : Tail gap []
  | more (separator text rest : List Char) (link : Link) (name : Name) (pieces : List Piece)
      (hs : Separator separator link) (hp : Part text rest name) (ht : Tail rest pieces) :
      Tail (separator ++ text ++ rest) (⟨link, name⟩ :: pieces)

/-- A whole text. -/
inductive Spelled : List Char → List Piece → Prop where
  | mk (opening text rest : List Char) (link : Link) (name : Name) (pieces : List Piece)
      (ho : Opening opening link) (hp : Part text rest name) (ht : Tail rest pieces) :
      Spelled (opening ++ text ++ rest) (⟨link, name⟩ :: pieces)

/-- One more part: a segment of its own, or one more part of the key at the end. -/
def extend (segments : List Segment) (piece : Piece) : List Segment :=
  match piece.link with
  | .name => segments ++ [.name piece.name]
  | .newKey => segments ++ [.key [piece.name]]
  | .key =>
    match segments.getLast? with
    | some (.key parts) => segments.dropLast ++ [.key (parts ++ [piece.name])]
    | _ => segments ++ [.key [piece.name]]

def segments (pieces : List Piece) : List Segment := pieces.foldl extend []

/-- A text is spelled out so that it reads as the identifier. -/
def Reads (text : List Char) (i : Identifier) : Prop :=
  ∃ pieces, Spelled text pieces ∧ segments pieces = i.segments

/-! ### Characters -/

theorem not_reserved_of_blank (c : Char) (h : Text.isBlank c = true) : c ∉ reserved := by
  intro hc
  simp only [reserved, List.mem_cons, List.not_mem_nil, or_false] at hc
  rcases hc with rfl | rfl | rfl | rfl | rfl <;> cases h

theorem blanks_nil : Blanks [] := fun c hc => by cases hc

theorem blanks_takeWhile (text : List Char) : Blanks (text.takeWhile Text.isBlank) :=
  List.all_eq_true.mp List.all_takeWhile

theorem dropWhile_blanks (gap rest : List Char) (h : Blanks gap) :
    (gap ++ rest).dropWhile Text.isBlank = rest.dropWhile Text.isBlank :=
  List.dropWhile_append_of_pos h

theorem not_blank_of_dropWhile (text : List Char) (c : Char)
    (h : (text.dropWhile Text.isBlank).head? = some c) : Text.isBlank c = false := by
  have hd := List.head?_dropWhile_not Text.isBlank text
  rw [h] at hd
  simpa using hd

/-- A text is blank, or behind the blanks there is a first character. -/
theorem blanks_or_first (text : List Char) : Blanks text ∨ ∃ gap c rest,
    text = gap ++ c :: rest ∧ Blanks gap ∧ Text.isBlank c = false := by
  have hsplit : text.takeWhile Text.isBlank ++ text.dropWhile Text.isBlank = text :=
    List.takeWhile_append_dropWhile
  have hgap := blanks_takeWhile text
  cases hd : text.dropWhile Text.isBlank with
  | nil =>
    rw [hd, List.append_nil] at hsplit
    rw [hsplit] at hgap
    exact .inl hgap
  | cons c rest =>
    have hb : Text.isBlank c = false := not_blank_of_dropWhile text c (by rw [hd]; rfl)
    rw [hd] at hsplit
    exact .inr ⟨_, c, rest, hsplit.symm, hgap, hb⟩

theorem dropWhile_first (gap : List Char) (c : Char) (rest : List Char) (hg : Blanks gap)
    (hb : Text.isBlank c = false) : (gap ++ c :: rest).dropWhile Text.isBlank = c :: rest := by
  rw [dropWhile_blanks gap _ hg]
  simp [hb]

/-- What is reserved is no blank, so that blanks before it end there. -/
theorem dropWhile_reserved (gap rest : List Char) (hg : Blanks gap)
    (hr : ∀ c, rest.head? = some c → c ∈ reserved) :
    (gap ++ rest).dropWhile Text.isBlank = rest := by
  rw [dropWhile_blanks gap rest hg]
  cases rest with
  | nil => rfl
  | cons c rest =>
    cases hb : Text.isBlank c with
    | true => exact absurd (hr c rfl) (not_reserved_of_blank c hb)
    | false => simp [hb]

/-- Blanks are cut off up to the first and the last character that is none. -/
theorem trim_enclosed (gap text gap' : List Char) (hg : Blanks gap) (hg' : Blanks gap')
    (hfirst : ∀ c, text.head? = some c → Text.isBlank c = false)
    (hlast : ∀ c, text.getLast? = some c → Text.isBlank c = false) :
    Text.trimChars (gap ++ (text ++ gap')) = text := by
  have hrev : Blanks gap'.reverse := fun c hc => hg' c (List.mem_reverse.mp hc)
  cases text with
  | nil =>
    have hd : gap'.dropWhile Text.isBlank = [] := by
      have h := dropWhile_blanks gap' [] hg'
      rwa [List.append_nil] at h
    rw [Text.trimChars, dropWhile_blanks gap _ hg, List.nil_append, hd]
    rfl
  | cons c rest =>
    obtain ⟨c', rest', hr⟩ : ∃ c' rest', (c :: rest).reverse = c' :: rest' :=
      List.exists_cons_of_ne_nil (by simp)
    have hb : Text.isBlank c' = false := by
      refine hlast c' ?_
      rw [List.getLast?_eq_head?_reverse, hr]
      rfl
    rw [Text.trimChars, List.cons_append, dropWhile_first gap c _ hg (hfirst c rfl),
      Text.dropTrailingBlanks, ← List.cons_append, List.reverse_append, hr,
      dropWhile_first _ c' rest' hrev hb, ← hr, List.reverse_reverse]

/-! ### The end of an identifier -/

/-- What may stand behind an identifier in a tuple or a list. -/
def Stops (rest : List Char) : Prop := ∀ c, rest.head? = some c → c = ',' ∨ c = ')' ∨ c = '}'

theorem stops_nil : Stops [] := fun c hc => by cases hc

theorem stops_cons (c : Char) (rest : List Char) (h : c = ',' ∨ c = ')' ∨ c = '}') :
    Stops (c :: rest) := fun c' hc' => by
  cases hc'
  exact h

theorem Stops.reserved {rest : List Char} (h : Stops rest) (c : Char)
    (hc : rest.head? = some c) : c ∈ reserved := by
  rcases h c hc with rfl | rfl | rfl <;> decide

/-- What stops an identifier stands at once behind the blanks. -/
theorem Stops.dropWhile {rest : List Char} (h : Stops rest) :
    rest.dropWhile Text.isBlank = rest :=
  dropWhile_reserved [] rest blanks_nil h.reserved

namespace Part

theorem append {text rest outer : List Char} {name : Name} (h : Part text rest name)
    (ho : Stops outer) : Part text (rest ++ outer) name := by
  cases h with
  | bracketed body _ h =>
    refine .bracketed body (rest ++ outer) ?_
    cases rest with
    | nil =>
      intro hc
      rcases ho ']' hc with hc | hc | hc <;> cases hc
    | cons c rest => exact h
  | bare _ _ ht h =>
    refine .bare text (rest ++ outer) ht ?_
    intro c hc
    rw [List.dropWhile_append, ho.dropWhile] at hc
    cases hr : rest.dropWhile Text.isBlank with
    | nil =>
      rw [hr] at hc
      exact ho.reserved c hc
    | cons c' rest' =>
      rw [hr] at hc h
      exact h c hc

theorem of_append {text rest outer : List Char} {name : Name}
    (h : Part text (rest ++ outer) name) : Part text rest name := by
  cases h with
  | bracketed body _ h =>
    refine .bracketed body rest ?_
    cases rest with
    | nil => simp
    | cons c rest => exact h
  | bare _ _ ht h =>
    refine .bare text rest ht ?_
    intro c hc
    refine h c ?_
    rw [List.dropWhile_append]
    cases hr : rest.dropWhile Text.isBlank with
    | nil =>
      rw [hr] at hc
      cases hc
    | cons c' rest' =>
      rw [hr] at hc
      exact hc

/-- Every part starts with a character of its own: no blank and nothing reserved. -/
theorem head {text rest : List Char} {name : Name} (h : Part text rest name) :
    ∃ c cs, text = c :: cs ∧ Text.isBlank c = false ∧ c ∉ reserved ∧ c ≠ '(' ∧ c ≠ '{' := by
  cases h with
  | bracketed body => exact ⟨'[', _, rfl, by decide, by decide, by decide, by decide⟩
  | bare _ _ ht _ =>
    obtain ⟨hne, hfirst, -, hin⟩ := ht
    cases text with
    | nil => exact absurd rfl hne
    | cons c cs =>
      obtain ⟨hb, ho⟩ := hfirst c rfl
      have hr := hin c List.mem_cons_self
      refine ⟨c, cs, rfl, hb, hr, ?_, ?_⟩
      · rintro rfl
        exact ho (by decide)
      · rintro rfl
        exact ho (by decide)

end Part

end OlapClient.Spelling
