import OlapClient.Proofs.Identifier.Parsing

/-!
# Identifiers written and read again

An identifier is written without blanks, with a point between segments and a key mark before every
part of a key. What is written is spelled in the pieces that the segments are made of, provided that
each name can be written as it is quoted; so it is read again as the same identifier. Whatever has
been read can be written.
-/

namespace OlapClient

open Spelling

/-! ### What can be written -/

/-- Brackets take every name; a name without them has to be a bare one. -/
def Name.Writable (n : Name) : Prop := n.quoting = .unquoted → IsBare n.value.toList

def Segment.Writable : Segment → Prop
  | .name n => n.Writable
  | .key parts => parts ≠ [] ∧ ∀ n ∈ parts, n.Writable

def Identifier.Writable (i : Identifier) : Prop :=
  i.segments ≠ [] ∧ ∀ segment ∈ i.segments, segment.Writable

namespace Spelling

/-! ### What was read -/

theorem Part.writable {text rest : List Char} {name : Name} (h : Part text rest name) :
    name.Writable := by
  cases h with
  | bracketed body =>
    intro hq
    cases hq
  | bare _ _ ht _ =>
    intro _
    simpa [Name.unquoted] using ht

theorem Tail.writable {text : List Char} {pieces : List Piece} (h : Tail text pieces) :
    ∀ piece ∈ pieces, piece.name.Writable := by
  induction h with
  | done gap hg => simp
  | more separator text rest link name pieces hs hp ht ih =>
    intro piece hpiece
    rcases List.mem_cons.mp hpiece with rfl | hmem
    · exact hp.writable
    · exact ih piece hmem

theorem Spelled.writable {text : List Char} {pieces : List Piece} (h : Spelled text pieces) :
    pieces ≠ [] ∧ ∀ piece ∈ pieces, piece.name.Writable := by
  obtain ⟨opening, text, rest, link, name, pieces, ho, hp, ht⟩ := h
  refine ⟨by simp, fun piece hpiece => ?_⟩
  rcases List.mem_cons.mp hpiece with rfl | hmem
  · exact hp.writable
  · exact ht.writable piece hmem

theorem extend_writable (done : List Segment) (piece : Piece)
    (hd : ∀ segment ∈ done, segment.Writable) (hp : piece.name.Writable) :
    ∀ segment ∈ extend done piece, segment.Writable := by
  have hkey : Segment.Writable (.key [piece.name]) := ⟨by simp, by simpa using hp⟩
  have happend : ∀ done' : List Segment, (∀ segment ∈ done', segment.Writable) → ∀ last,
      last.Writable → ∀ segment ∈ done' ++ [last], segment.Writable := by
    intro done' hd' last hlast segment hs
    rcases List.mem_append.mp hs with hs | hs
    · exact hd' segment hs
    · cases List.mem_singleton.mp hs
      exact hlast
  obtain ⟨link, name⟩ := piece
  cases link with
  | name => exact happend done hd _ hp
  | newKey => exact happend done hd _ hkey
  | key =>
    rcases hl : done.getLast? with - | n | parts
    · simpa [extend, hl] using happend done hd _ hkey
    · simpa [extend, hl] using happend done hd _ hkey
    · have hparts : Segment.Writable (.key parts) := hd _ (List.mem_of_getLast? hl)
      have hlonger : Segment.Writable (.key (parts ++ [name])) := by
        refine ⟨by simp, fun n hn => ?_⟩
        rcases List.mem_append.mp hn with hn | hn
        · exact hparts.2 n hn
        · cases List.mem_singleton.mp hn
          exact hp
      have hinit : ∀ segment ∈ done.dropLast, segment.Writable := fun segment hs =>
        hd segment (List.dropLast_subset done hs)
      simpa [extend, hl] using happend done.dropLast hinit _ hlonger

theorem extend_ne_nil (done : List Segment) (piece : Piece) : extend done piece ≠ [] := by
  unfold extend
  split
  · simp
  · simp
  · split <;> simp

theorem foldl_extend_writable (pieces : List Piece) (done : List Segment)
    (hp : ∀ piece ∈ pieces, piece.name.Writable) (hd : ∀ segment ∈ done, segment.Writable) :
    ∀ segment ∈ pieces.foldl extend done, segment.Writable := by
  induction pieces generalizing done with
  | nil => exact hd
  | cons piece pieces ih =>
    have hpiece := hp piece List.mem_cons_self
    have hpieces : ∀ piece' ∈ pieces, piece'.name.Writable := fun piece' hmem =>
      hp piece' (List.mem_cons_of_mem _ hmem)
    exact ih (extend done piece) hpieces (extend_writable done piece hd hpiece)

theorem foldl_extend_ne_nil (pieces : List Piece) (done : List Segment)
    (h : pieces ≠ [] ∨ done ≠ []) : pieces.foldl extend done ≠ [] := by
  induction pieces generalizing done with
  | nil => simpa using h
  | cons piece pieces ih => exact ih (extend done piece) (.inr (extend_ne_nil done piece))

theorem Reads.writable {text : List Char} {i : Identifier} (h : Reads text i) : i.Writable := by
  obtain ⟨pieces, hs, hi⟩ := h
  obtain ⟨hne, hp⟩ := hs.writable
  rw [Identifier.Writable, ← hi]
  exact ⟨foldl_extend_ne_nil pieces [] (.inl hne), foldl_extend_writable pieces [] hp (by simp)⟩

/-! ### The pieces of what is written -/

def keyPieces (parts : List Name) : List Piece := parts.map fun n => ⟨.key, n⟩

def segmentPieces : Segment → List Piece
  | .name n => [⟨.name, n⟩]
  | .key [] => []
  | .key (n :: parts) => ⟨.newKey, n⟩ :: keyPieces parts

theorem foldl_keyPieces (done : List Segment) (before parts : List Name) :
    (keyPieces parts).foldl extend (done ++ [.key before]) = done ++ [.key (before ++ parts)] := by
  induction parts generalizing before with
  | nil => simp [keyPieces]
  | cons n parts ih =>
    have he : extend (done ++ [.key before]) ⟨.key, n⟩ = done ++ [.key (before ++ [n])] := by
      simp [extend]
    have hcons : keyPieces (n :: parts) = ⟨.key, n⟩ :: keyPieces parts := rfl
    rw [hcons, List.foldl_cons, he, ih]
    simp

theorem foldl_segmentPieces (done : List Segment) (segment : Segment) (h : segment.Writable) :
    (segmentPieces segment).foldl extend done = done ++ [segment] := by
  cases segment with
  | name n => rfl
  | key parts =>
    obtain ⟨n, parts, rfl⟩ := List.exists_cons_of_ne_nil h.1
    exact foldl_keyPieces done [n] parts

theorem foldl_flatMap_pieces (segments done : List Segment)
    (h : ∀ segment ∈ segments, segment.Writable) :
    (segments.flatMap segmentPieces).foldl extend done = done ++ segments := by
  induction segments generalizing done with
  | nil => simp
  | cons segment segments ih =>
    have hs := h segment List.mem_cons_self
    have hrest : ∀ segment' ∈ segments, segment'.Writable := fun segment' hmem =>
      h segment' (List.mem_cons_of_mem _ hmem)
    rw [List.flatMap_cons, List.foldl_append, foldl_segmentPieces done segment hs, ih _ hrest]
    simp

/-! ### Spelling what is written -/

/-- Behind a part that is written stands a point, a key mark or nothing. -/
def Follows (rest : List Char) : Prop := ∀ c, rest.head? = some c → c = '.' ∨ c = '&'

theorem follows_cons (c : Char) (rest : List Char) (h : c = '.' ∨ c = '&') :
    Follows (c :: rest) := fun c' hc' => by
  cases hc'
  exact h

theorem follows_flatMap {α : Type} (c : Char) (h : c = '.' ∨ c = '&') (chars : α → List Char)
    (items : List α) (rest : List Char) (hr : Follows rest) :
    Follows ((items.flatMap fun item => c :: chars item) ++ rest) := by
  cases items with
  | nil => exact hr
  | cons item items => exact follows_cons c _ h

theorem part_of_writable (n : Name) (h : n.Writable) (rest : List Char) (hr : Follows rest) :
    Part n.chars rest n := by
  obtain ⟨value, ⟨⟩ | ⟨⟩⟩ := n
  · have hclose : rest.head? ≠ some ']' := by
      intro hc
      rcases hr ']' hc with hc | hc <;> cases hc
    have hp := Part.bracketed value.toList rest hclose
    rwa [String.ofList_toList] at hp
  · have hres : ∀ c, rest.head? = some c → c ∈ reserved := by
      intro c hc
      rcases hr c hc with rfl | rfl <;> decide
    have hend : ∀ c, (rest.dropWhile Text.isBlank).head? = some c → c ∈ reserved := by
      rw [← List.nil_append rest, dropWhile_reserved [] rest blanks_nil hres]
      exact hres
    have hp := Part.bare value.toList rest (h rfl) hend
    rwa [String.ofList_toList] at hp

theorem tail_keyPieces (parts : List Name) (h : ∀ n ∈ parts, n.Writable) (rest : List Char)
    (pieces : List Piece) (ht : Tail rest pieces) (hr : Follows rest) :
    Tail ((parts.flatMap fun n => '&' :: n.chars) ++ rest) (keyPieces parts ++ pieces) := by
  induction parts with
  | nil => exact ht
  | cons n parts ih =>
    have hparts : ∀ n' ∈ parts, n'.Writable := fun n' hmem => h n' (List.mem_cons_of_mem _ hmem)
    have hp := part_of_writable n (h n List.mem_cons_self) _
      (follows_flatMap '&' (.inr rfl) Name.chars parts rest hr)
    have htail := Tail.more _ _ _ _ _ _ (.mark [] [] blanks_nil blanks_nil) hp (ih hparts)
    simpa [keyPieces] using htail

theorem spelled_segment (segment : Segment) (h : segment.Writable) (rest : List Char)
    (pieces : List Piece) (ht : Tail rest pieces) (hr : Follows rest) :
    Spelled (segment.chars ++ rest) (segmentPieces segment ++ pieces) := by
  cases segment with
  | name n =>
    have hp := part_of_writable n h rest hr
    exact Spelled.mk [] _ _ _ _ _ (.name [] blanks_nil) hp ht
  | key parts =>
    obtain ⟨hne, hparts⟩ := h
    obtain ⟨n, parts, rfl⟩ := List.exists_cons_of_ne_nil hne
    have hrest : ∀ n' ∈ parts, n'.Writable := fun n' hmem => hparts n' (List.mem_cons_of_mem _ hmem)
    have hp := part_of_writable n (hparts n List.mem_cons_self) _
      (follows_flatMap '&' (.inr rfl) Name.chars parts rest hr)
    have hs := Spelled.mk _ _ _ _ _ _ (.key [] [] blanks_nil blanks_nil) hp
      (tail_keyPieces parts hrest rest pieces ht hr)
    simpa [Segment.chars, segmentPieces] using hs

/-- Behind a point a whole text may stand. -/
theorem Spelled.tail {text : List Char} {pieces : List Piece} (h : Spelled text pieces) :
    Tail ('.' :: text) pieces := by
  obtain ⟨opening, text, rest, link, name, pieces, ho, hp, ht⟩ := h
  exact Tail.more (['.'] ++ opening) text rest link name pieces
    (.point [] opening link blanks_nil ho)
    hp ht

theorem tail_segments (segments : List Segment) (h : ∀ segment ∈ segments, segment.Writable) :
    Tail (segments.flatMap fun segment => '.' :: segment.chars)
      (segments.flatMap segmentPieces) := by
  induction segments with
  | nil => exact .done [] blanks_nil
  | cons segment segments ih =>
    have hrest : ∀ segment' ∈ segments, segment'.Writable := fun segment' hmem =>
      h segment' (List.mem_cons_of_mem _ hmem)
    have hfollows := follows_flatMap '.' (.inl rfl) Segment.chars segments []
      (fun c hc => by cases hc)
    rw [List.append_nil] at hfollows
    exact (spelled_segment segment (h segment List.mem_cons_self) _ _ (ih hrest) hfollows).tail

theorem intercalate_cons {α : Type} (separator : α) (text : List α) (texts : List (List α)) :
    [separator].intercalate (text :: texts) =
      text ++ texts.flatMap fun text' => separator :: text' := by
  induction texts generalizing text with
  | nil => simp
  | cons text' texts ih =>
    rw [List.intercalate_cons_cons, ih text']
    simp

theorem reads_chars (i : Identifier) (h : i.Writable) : Reads i.chars i := by
  obtain ⟨segments⟩ := i
  obtain ⟨hne, hw⟩ := h
  obtain ⟨segment, segments, rfl⟩ := List.exists_cons_of_ne_nil hne
  have hrest : ∀ segment' ∈ segments, segment'.Writable := fun segment' hmem =>
    hw segment' (List.mem_cons_of_mem _ hmem)
  have hfollows := follows_flatMap '.' (.inl rfl) Segment.chars segments []
    (fun c hc => by cases hc)
  rw [List.append_nil] at hfollows
  have hs := spelled_segment segment (hw segment List.mem_cons_self) _ _
    (tail_segments segments hrest) hfollows
  have hchars : Identifier.chars ⟨segment :: segments⟩ =
      segment.chars ++ segments.flatMap fun segment' => '.' :: segment'.chars := by
    rw [Identifier.chars, List.map_cons, intercalate_cons, List.flatMap_map]
  rw [hchars]
  refine ⟨_, hs, ?_⟩
  have hfold := foldl_flatMap_pieces (segment :: segments) [] hw
  simpa [Spelling.segments] using hfold

end Spelling

namespace Identifier

/-- An identifier that is written is read again as itself exactly if it can be written, and whatever
is read can be. -/
theorem parse_text_iff :
    (∀ i, Identifier.parse i.text = .ok i ↔ i.Writable) ∧
    ∀ s i, Identifier.parse s = .ok i → i.Writable ∧ Identifier.parse i.text = .ok i := by
  have hiff : ∀ i, Identifier.parse i.text = .ok i ↔ i.Writable := by
    intro i
    rw [parse_eq_ok_iff, text, String.toList_ofList]
    exact ⟨Reads.writable, reads_chars i⟩
  refine ⟨hiff, fun s i h => ?_⟩
  have hw : i.Writable := ((parse_eq_ok_iff s i).mp h).writable
  exact ⟨hw, (hiff i).mpr hw⟩

theorem spaced_parses_again :
    Identifier.parse " [a]]b] . & c &[]" =
      .ok ⟨[.name (.quoted "a]b"), .key [.unquoted "c", .quoted ""]]⟩ ∧
    Identifier.parse "[a]]b].&c&[]" =
      .ok ⟨[.name (.quoted "a]b"), .key [.unquoted "c", .quoted ""]]⟩ :=
  ⟨rfl, (parse_text_iff.2 " [a]]b] . & c &[]"
    ⟨[.name (.quoted "a]b"), .key [.unquoted "c", .quoted ""]]⟩ rfl).2⟩

end Identifier

end OlapClient
