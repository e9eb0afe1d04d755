import OlapClient.Proofs.Markup.TopLevel

/-!
# Open elements and their names

While a document is read, the reader keeps the names of the open elements and the builder keeps the
elements, and neither looks at the other. What each of them has is decided by the start tags that
are open (`openTags`): the reader has their names (`Course.Sound`), the builder an element for each
one, which is filled by what has stood in it so far (`Grows`). So both stay in step, an end tag
closes the element of its own start tag, and the builder never gets one too many.
-/

namespace OlapClient.Markup

/-! ### The course of a document -/

/-- A document under way: how far the reader and the builder have come, the tokens so far, and the
number of bytes in which they were. -/
structure Course where
  reader : Reader := {}
  builder : Builder := {}
  tokens : List Token := []
  before : Nat := 0

namespace Course

def add (c : Course) (byte : UInt8) : Except DocumentError Course := do
  let (token?, r) ← (c.reader.step c.before byte).mapError .malformed
  let b ← c.builder.add? token?
  return ⟨r, b, c.tokens ++ token?.toList, c.before + 1⟩

/-- The end of the input, where character data may be left to be heard. -/
def last (c : Course) : Except DocumentError Course := do
  let token? ← (c.reader.finish c.before).mapError .malformed
  let b ← c.builder.add? token?
  return ⟨c.reader, b, c.tokens ++ token?.toList, c.before⟩

theorem add_eq_ok {c c' : Course} {byte : UInt8} : c.add byte = .ok c' ↔ ∃ token? r b,
    c.reader.step c.before byte = .ok (token?, r) ∧ c.builder.add? token? = .ok b ∧
      c' = ⟨r, b, c.tokens ++ token?.toList, c.before + 1⟩ := by
  simp only [add, bind_eq_ok, mapError_eq_ok]
  constructor
  · intro h
    obtain ⟨⟨token?, r⟩, hstep, b, hadd, hc⟩ := h
    cases hc
    exact ⟨token?, r, b, hstep, hadd, rfl⟩
  · intro h
    obtain ⟨token?, r, b, hstep, hadd, rfl⟩ := h
    exact ⟨(token?, r), hstep, b, hadd, rfl⟩

theorem last_eq_ok {c c' : Course} : c.last = .ok c' ↔ ∃ token? b,
    c.reader.finish c.before = .ok token? ∧ c.builder.add? token? = .ok b ∧
      c' = ⟨c.reader, b, c.tokens ++ token?.toList, c.before⟩ := by
  simp only [last, bind_eq_ok, mapError_eq_ok]
  constructor
  · intro h
    obtain ⟨token?, hfinish, b, hadd, hc⟩ := h
    cases hc
    exact ⟨token?, b, hfinish, hadd, rfl⟩
  · intro h
    obtain ⟨token?, b, hfinish, hadd, rfl⟩ := h
    exact ⟨token?, hfinish, b, hadd, rfl⟩

/-- What reading the rest of a document gives. -/
def rest (c : Course) (bytes : Bytes) : Except DocumentError Element :=
  readFrom c.before c.reader c.builder bytes

theorem rest_nil (c : Course) : c.rest [] = c.last >>= fun c' => c'.builder.finish := by
  simp only [rest, readFrom, last, bind_assoc, pure_bind]

theorem rest_cons (c : Course) (byte : UInt8) (bytes : Bytes) :
    c.rest (byte :: bytes) = c.add byte >>= fun c' => c'.rest bytes := by
  simp only [rest, readFrom, add, bind_assoc, pure_bind]

theorem rest_append (c : Course) (front bytes : Bytes) :
    c.rest (front ++ bytes) = front.foldlM add c >>= fun c' => c'.rest bytes := by
  induction front generalizing c with
  | nil => rfl
  | cons byte front ih => simp only [List.cons_append, rest_cons, List.foldlM_cons, bind_assoc, ih]

end Course

/-! ### The start tags that are open -/

/-- Of the start tags that are open, innermost first, the ones that still are after a token. -/
def Token.track (tags : List Bytes) : Token → List Bytes
  | .opening tag => tag :: tags
  | .closing => tags.tail
  | _ => tags

/-- The start tags that are open after some tokens, innermost first. -/
def openTags (ts : List Token) : List Bytes := ts.foldl Token.track []

theorem openTags_concat (ts : List Token) (token : Token) :
    openTags (ts ++ [token]) = token.track (openTags ts) := by
  rw [openTags, List.foldl_append]
  rfl

mutual

theorem Spells.track {e : Element} {ts : List Token} (h : Spells e ts) (tags : List Bytes) :
    ts.foldl Token.track tags = tags := by
  match h with
  | .single tag e _ => rfl
  | .enclosing tag e filled inner _ hf =>
    rw [List.foldl_cons, List.foldl_append, hf.track]
    rfl

theorem Fills.track {e filled : Element} {ts : List Token} (h : Fills e ts filled)
    (tags : List Bytes) : ts.foldl Token.track tags = tags := by
  match h with
  | .nil e => rfl
  | .text raw heard e filled ts _ hf => exact hf.track tags
  | .characterData raw e filled ts hf => exact hf.track tags
  | .aside e filled ts hf => exact hf.track tags
  | .child c e filled written ts hc hf => rw [List.foldl_append, hc.track, hf.track]

end

theorem TopLevel.openTags_eq_nil {es : List Element} {ts : List Token} (h : TopLevel es ts) :
    openTags ts = [] := by
  induction h with
  | nil => rfl
  | idle token es ts ht _ ih => cases ht <;> exact ih
  | element e es written ts he _ ih =>
    rw [openTags, List.foldl_append, he.track]
    exact ih

/-- What fills an element leaves its start tag the innermost one. -/
theorem Fills.openTags_eq {e filled : Element} {inner : List Token} (h : Fills e inner filled)
    (front : List Token) (tag : Bytes) :
    openTags (front ++ .opening tag :: inner) = tag :: openTags front := by
  rw [openTags, List.foldl_append, List.foldl_cons, h.track]
  rfl

theorem Fills.name_eq {e filled : Element} {ts : List Token} (h : Fills e ts filled) :
    filled.name = e.name := by
  match h with
  | .nil e => rfl
  | .text raw heard e filled ts _ hf => exact hf.name_eq
  | .characterData raw e filled ts hf => exact hf.name_eq
  | .aside e filled ts hf => exact hf.name_eq
  | .child c e filled written ts _ hf => exact hf.name_eq

theorem Element.ofTag_name {tag : Bytes} {e : Element} (h : Element.ofTag tag = .ok e) :
    e.name = localName (tagName tag) := by
  obtain ⟨attributes, -, he⟩ := bind_eq_ok.mp h
  cases he
  rfl

namespace Grove

/-- The elements that are open are those of the start tags that are. -/
theorem Grows.forall₂_openTags {g : Grove} {ts : List Token} (h : Grows g ts) :
    List.Forall₂ (fun tag e => e.name = localName (tagName tag)) (openTags ts) g.stack := by
  induction h with
  | outside es ts h =>
    rw [h.openTags_eq_nil]
    exact .nil
  | inside g ts inner tag e filled _ he hf ih =>
    rw [hf.openTags_eq]
    exact .cons (hf.name_eq.trans (Element.ofTag_name he)) ih

/-- The innermost open element is what has filled the element of a start tag since. -/
theorem Grows.innermost {roots outer : List Element} {filled : Element} {ts : List Token}
    (h : Grows ⟨roots, filled :: outer⟩ ts) : ∃ front inner tag e,
      ts = front ++ .opening tag :: inner ∧ Element.ofTag tag = .ok e ∧ Fills e inner filled ∧
        openTags ts = tag :: openTags front := by
  cases h with
  | inside g front inner tag e filled h he hf =>
    exact ⟨front, inner, tag, e, rfl, he, hf, hf.openTags_eq front tag⟩

end Grove

/-! ### The names that the reader keeps -/

namespace Reader

/-- What a step does to the names of the open elements. -/
inductive Tracks (r r' : Reader) : Option Token → Prop where
  | opening (tag : Bytes) (h : r'.openNames = tagName tag :: r.openNames) :
      Tracks r r' (some (.opening tag))
  | closing (content : Bytes) (hmode : r.mode = .endTag content none)
      (h : r.openNames = endTagName content.reverse :: r'.openNames) : Tracks r r' (some .closing)
  | other (token? : Option Token) (ht : ∀ token ∈ token?, ∀ tags, token.track tags = tags)
      (h : r'.openNames = r.openNames) : Tracks r r' token?

/-- A step whose outcome, if there is one, does that to the names. -/
def Tracked (r : Reader) (s : ReadStep) : Prop :=
  ∀ token? r', s = .ok (token?, r') → Tracks r r' token?

section Steps

variable (r : Reader) (after : Nat) (content : Bytes)

theorem tracked_error (fault : ReadFault) : Tracked r (.error fault) := by
  intro token? r' h
  cases h

theorem tracked_ite {p : Prop} [Decidable p] {s s' : ReadStep} (h : Tracked r s)
    (h' : Tracked r s') : Tracked r (if p then s else s') := by
  split
  · exact h
  · exact h'

theorem tracked_enter (mode : Mode) : Tracked r (r.enter mode) := by
  intro token? r' h
  cases h
  exact .other none (by simp) rfl

theorem tracked_complete (token : Token) (ht : ∀ tags, token.track tags = tags) :
    Tracked r (r.complete token) := by
  intro token? r' h
  cases h
  exact .other (some token) (by simpa using ht) rfl

theorem tracked_tagDone : Tracked r (r.tagDone content) := by
  cases content with
  | nil =>
    intro token? r' h
    cases h
    exact .opening [] rfl
  | cons b content =>
    refine tracked_ite r (tracked_complete r _ fun _ => rfl) ?_
    intro token? r' h
    cases h
    exact .opening _ rfl

theorem tracked_endTagDone (hmode : r.mode = .endTag content none) :
    Tracked r (r.endTagDone after content) := by
  rw [endTagDone]
  cases hnames : r.openNames with
  | nil => exact tracked_error r _
  | cons expected outer =>
    by_cases hname : endTagName content.reverse = expected
    · simp only [if_pos hname]
      intro token? r' h
      cases h
      exact .closing content hmode (by rw [hnames, hname])
    · simp only [if_neg hname]
      exact tracked_error r _

theorem tracked_commentDone : Tracked r (r.commentDone after content) :=
  tracked_ite r (tracked_complete r _ fun _ => rfl) (tracked_error r _)

theorem tracked_characterDataDone : Tracked r (r.characterDataDone after content) :=
  tracked_ite r (tracked_complete r _ fun _ => rfl) (tracked_error r _)

theorem tracked_doctypeDone : Tracked r (r.doctypeDone after content) :=
  tracked_ite r (tracked_ite r (tracked_error r _) (tracked_complete r _ fun _ => rfl))
    (tracked_error r _)

theorem tracked_tagByte (quote : Option UInt8) (b : UInt8) :
    Tracked r (r.tagByte content quote b) :=
  tracked_ite r (tracked_tagDone r content) (tracked_enter r _)

theorem tracked_step (before : Nat) (b : UInt8) : Tracked r (r.step before b) := by
  rw [step]
  cases hmode : r.mode with
  | text raw =>
    refine tracked_ite r ?_ (tracked_enter r _)
    intro token? r' h
    cases h
    refine .other _ ?_ rfl
    cases raw <;> simp [Token.track]
  | markup =>
    exact tracked_ite r (tracked_enter r _) (tracked_ite r (tracked_enter r _)
      (tracked_ite r (tracked_enter r _) (tracked_tagByte r [] none b)))
  | declaration =>
    exact tracked_ite r (tracked_enter r _) (tracked_ite r (tracked_enter r _)
      (tracked_ite r (tracked_enter r _) (tracked_error r _)))
  | comment content =>
    exact tracked_ite r (tracked_commentDone r _ content) (tracked_enter r _)
  | characterData content =>
    exact tracked_ite r (tracked_characterDataDone r _ content) (tracked_enter r _)
  | doctype content depth =>
    refine tracked_ite r (tracked_enter r _) (tracked_ite r ?_ (tracked_enter r _))
    cases depth with
    | zero => exact tracked_doctypeDone r _ content
    | succ depth => exact tracked_enter r _
  | instruction content =>
    exact tracked_ite r (tracked_ite r (tracked_complete r _ fun _ => rfl) (tracked_error r _))
      (tracked_enter r _)
  | tag content quote => exact tracked_tagByte r content quote b
  | endTag content quote =>
    cases quote with
    | none => exact tracked_ite r (tracked_endTagDone r _ content hmode) (tracked_enter r _)
    | some quote => exact tracked_enter r _

end Steps

theorem finish_tracks {r : Reader} {total : Nat} {token? : Option Token}
    (h : r.finish total = .ok token?) : Tracks r r token? := by
  refine .other token? ?_ rfl
  rw [finish] at h
  cases hmode : r.mode with
  | text raw =>
    rw [hmode] at h
    cases h
    cases raw <;> simp [Token.track]
  | markup | tag | endTag | declaration | comment | characterData | doctype | instruction =>
    rw [hmode] at h
    cases h

theorem Tracks.closing_names {r r' : Reader} (h : Tracks r r' (some .closing)) :
    ∃ content, r.mode = .endTag content none ∧
      r.openNames = endTagName content.reverse :: r'.openNames := by
  cases h with
  | closing content hmode h => exact ⟨content, hmode, h⟩
  | other token? ht h =>
    have htail := ht .closing rfl [[]]
    cases htail

end Reader

/-! ### Local parts -/

/-- What follows the last colon of a text, or all of it where there is no colon. -/
def IsLocalPart (whole part : String) : Prop :=
  ':' ∉ part.toList ∧ (part = whole ∨ ∃ space, whole = space ++ ":" ++ part)

theorem isLocalPart_afterColon (s : String) : IsLocalPart s (afterColon s) := by
  let behind := s.toList.reverse.takeWhile (· ≠ ':')
  let front := s.toList.reverse.dropWhile (· ≠ ':')
  have hpart : (afterColon s).toList = behind.reverse := String.toList_ofList
  have hsplit : s.toList = front.reverse ++ behind.reverse := by
    rw [← List.reverse_append, List.takeWhile_append_dropWhile, List.reverse_reverse]
  refine ⟨?_, ?_⟩
  · intro hmem
    rw [hpart, List.mem_reverse] at hmem
    have hcolon := List.all_eq_true.mp List.all_takeWhile ':' hmem
    simp at hcolon
  · cases hfront : front with
    | nil =>
      refine .inl (String.toList_inj.mp ?_)
      rw [hpart, hsplit, hfront, List.reverse_nil, List.nil_append]
    | cons c space =>
      have hcolon : c = ':' := by
        have hnot := List.head?_dropWhile_not (· ≠ ':') s.toList.reverse
        rw [show s.toList.reverse.dropWhile (· ≠ ':') = c :: space from hfront] at hnot
        simpa using hnot
      refine .inr ⟨String.ofList space.reverse, String.toList_inj.mp ?_⟩
      rw [String.toList_append, String.toList_append, String.toList_ofList, hpart, hsplit, hfront,
        List.reverse_cons, hcolon]
      rfl

/-! ### Reader and builder in step -/

namespace Course

/-- The reader has the names of the start tags that are open, and the builder what it makes of the
tokens. -/
structure Sound (c : Course) : Prop where
  named : c.reader.openNames = (openTags c.tokens).map tagName
  built : c.tokens.foldlM Builder.add {} = .ok c.builder

theorem Sound.extend {c : Course} {r : Reader} {b : Builder} {token? : Option Token}
    (hs : c.Sound) (before : Nat) (hr : c.reader.Tracks r token?)
    (hb : c.builder.add? token? = .ok b) : Sound ⟨r, b, c.tokens ++ token?.toList, before⟩ := by
  refine ⟨?_, ?_⟩
  · change r.openNames = (openTags (c.tokens ++ token?.toList)).map tagName
    cases hr with
    | opening tag h => rw [h, hs.named, Option.toList_some, openTags_concat]; rfl
    | closing content _ h =>
      have htail : r.openNames = ((openTags c.tokens).map tagName).tail := by
        rw [← hs.named, h, List.tail_cons]
      rw [htail, Option.toList_some, openTags_concat, ← List.map_tail]
      rfl
    | other token? ht h =>
      cases token? with
      | none => rw [h, hs.named, Option.toList_none, List.append_nil]
      | some token => rw [h, hs.named, Option.toList_some, openTags_concat, ht token rfl]
  · change (c.tokens ++ token?.toList).foldlM Builder.add {} = .ok b
    rw [List.foldlM_append, bind_eq_ok]
    exact ⟨c.builder, hs.built, by rw [← add?_eq_foldlM, hb]⟩

theorem Sound.add {c c' : Course} {byte : UInt8} (hs : c.Sound) (h : c.add byte = .ok c') :
    c'.Sound := by
  obtain ⟨token?, r, b, hstep, hadd, rfl⟩ := add_eq_ok.mp h
  exact hs.extend _ (Reader.tracked_step c.reader c.before byte token? r hstep) hadd

theorem Sound.last {c c' : Course} (hs : c.Sound) (h : c.last = .ok c') : c'.Sound := by
  obtain ⟨token?, b, hfinish, hadd, rfl⟩ := last_eq_ok.mp h
  exact hs.extend _ (Reader.finish_tracks hfinish) hadd

theorem Sound.grows {c : Course} (hs : c.Sound) :
    ∃ roots, Grove.Grows ⟨roots, c.builder.stack⟩ c.tokens := by
  have hrun : c.tokens.foldlM Builder.add {} = (c.tokens.foldlM Grove.add {}).map Grove.builder :=
    Grove.builder_foldlM {} c.tokens
  rw [hs.built, eq_comm, map_eq_ok] at hrun
  obtain ⟨g, hg, hb⟩ := hrun
  have hstack : c.builder.stack = g.stack := by rw [← hb]; rfl
  rw [hstack]
  exact ⟨g.roots, Grove.grows_of_foldlM hg⟩

/-- The open elements are as many as their names, each has the local part of the name at its depth,
and these are the names of the start tags that are open. -/
structure Lockstep (c : Course) : Prop where
  depth : c.builder.stack.length = c.reader.openNames.length
  names : List.Forall₂ (fun name (e : Element) => IsLocalPart (Utf8.decodeLossy name) e.name)
    c.reader.openNames c.builder.stack
  tags : c.reader.openNames = (openTags c.tokens).map tagName

theorem Sound.lockstep {c : Course} (hs : c.Sound) : c.Lockstep := by
  obtain ⟨roots, hg⟩ := hs.grows
  have hnames : List.Forall₂ (fun name (e : Element) => IsLocalPart (Utf8.decodeLossy name) e.name)
      c.reader.openNames c.builder.stack := by
    rw [hs.named, List.forall₂_map_left_iff]
    refine hg.forall₂_openTags.imp ?_
    intro tag e he
    rw [he]
    exact isLocalPart_afterColon _
  exact ⟨hnames.length_eq.symm, hnames, hs.named⟩

/-- An end tag has led from one state to the other. Between it and its start tag stands what fills
an element; both tags have one name, which the reader gives up, and the element that the start tag
has opened, filled by now, is what the builder closes. -/
inductive ClosesOwn (c c' : Course) : Prop where
  | mk (front inner : List Token) (tag content : Bytes) (e filled : Element) (outer : List Element)
      (htokens : c.tokens = front ++ .opening tag :: inner)
      (he : Element.ofTag tag = .ok e) (hfilled : Fills e inner filled)
      (hmode : c.reader.mode = .endTag content none)
      (hname : endTagName content.reverse = tagName tag)
      (hnames : c.reader.openNames = tagName tag :: c'.reader.openNames)
      (hstack : c.builder.stack = filled :: outer)
      (hclosed : c'.builder = Builder.place ⟨outer, c.builder.root⟩ filled)

theorem Sound.closes {c : Course} {byte : UInt8} {r : Reader} (hs : c.Sound)
    (hstep : c.reader.step c.before byte = .ok (some .closing, r)) :
    ∃ c', c.add byte = .ok c' ∧ c'.reader = r ∧ ClosesOwn c c' := by
  obtain ⟨content, hmode, hnames⟩ :=
    (Reader.tracked_step c.reader c.before byte _ r hstep).closing_names
  obtain ⟨roots, hg⟩ := hs.grows
  have hdepth := hs.lockstep.depth
  cases hstack : c.builder.stack with
  | nil =>
    rw [hstack, hnames] at hdepth
    cases hdepth
  | cons filled outer =>
    rw [hstack] at hg
    obtain ⟨front, inner, tag, e, htokens, he, hfilled, htags⟩ := hg.innermost
    have hname : endTagName content.reverse :: r.openNames =
        tagName tag :: (openTags front).map tagName := by
      rw [← hnames, hs.named, htags, List.map_cons]
    have hown := (List.cons.inj hname).1
    have hadd : c.builder.add? (some .closing) =
        .ok (Builder.place ⟨outer, c.builder.root⟩ filled) := by
      simp only [Builder.add?, Builder.add, hstack]
    refine ⟨_, add_eq_ok.mpr ⟨_, r, _, hstep, hadd, rfl⟩, rfl, ?_⟩
    exact .mk front inner tag content e filled outer htokens he hfilled hmode hown
      (by rw [hnames, hown]) hstack rfl

end Course

/-! ### The end tag too many -/

theorem decodeText_ne_unbalanced (raw : Bytes) : decodeText raw ≠ .error .unbalanced := by
  intro h
  rcases bind_eq_error.mp h with h | ⟨text, -, h⟩
  · obtain ⟨fault, -, hfault⟩ := mapError_eq_error.mp h
    cases hfault
  · obtain ⟨fault, -, hfault⟩ := mapError_eq_error.mp h
    cases hfault

theorem attributesOf_ne_unbalanced (raw : List RawAttribute) (fault? : Option AttributeFault) :
    attributesOf raw fault? ≠ .error .unbalanced := by
  induction raw with
  | nil => cases fault? <;> simp [attributesOf]
  | cons a raw ih =>
    rw [attributesOf]
    split
    · exact ih
    · intro h
      rcases bind_eq_error.mp h with h | ⟨value, -, h⟩
      · exact decodeText_ne_unbalanced a.value h
      · rcases bind_eq_error.mp h with h | ⟨attributes, -, h⟩
        · exact ih h
        · cases h

theorem Element.ofTag_ne_unbalanced (tag : Bytes) : Element.ofTag tag ≠ .error .unbalanced := by
  intro h
  rcases bind_eq_error.mp h with h | ⟨attributes, -, h⟩
  · exact attributesOf_ne_unbalanced _ _ h
  · cases h

/-- Only an end tag can be one too many. -/
theorem Builder.closing_of_unbalanced {b : Builder} {token? : Option Token}
    (h : b.add? token? = .error .unbalanced) : token? = some .closing := by
  cases token? with
  | none => cases h
  | some token =>
    cases token with
    | opening tag =>
      rcases bind_eq_error.mp h with h | ⟨e, -, h⟩
      · exact absurd h (Element.ofTag_ne_unbalanced tag)
      · cases h
    | empty tag =>
      rcases bind_eq_error.mp h with h | ⟨e, -, h⟩
      · exact absurd h (Element.ofTag_ne_unbalanced tag)
      · cases h
    | closing => rfl
    | text raw =>
      rw [add?, add] at h
      cases hstack : b.stack with
      | nil => simp [hstack] at h
      | cons e outer =>
        rw [hstack] at h
        rcases bind_eq_error.mp h with h | ⟨text, -, h⟩
        · exact absurd h (decodeText_ne_unbalanced raw)
        · cases h
    | characterData raw =>
      rw [add?, add] at h
      cases hstack : b.stack <;> simp [hstack] at h
    | aside => cases h

theorem Builder.finish_ne_unbalanced (b : Builder) : b.finish ≠ .error .unbalanced := by
  obtain ⟨stack, root⟩ := b
  cases stack <;> cases root <;> simp [finish]

namespace Course

theorem Sound.add_ne_unbalanced {c : Course} (hs : c.Sound) (byte : UInt8) :
    c.add byte ≠ .error .unbalanced := by
  intro h
  rcases bind_eq_error.mp h with hstep | ⟨⟨token?, r⟩, hstep, hadd⟩
  · obtain ⟨fault, -, hfault⟩ := mapError_eq_error.mp hstep
    cases hfault
  · rcases bind_eq_error.mp hadd with hadd | ⟨b, -, hnone⟩
    · obtain rfl := Builder.closing_of_unbalanced hadd
      obtain ⟨c', hc, -⟩ := hs.closes (mapError_eq_ok.mp hstep)
      rw [h] at hc
      cases hc
    · cases hnone

theorem last_ne_unbalanced (c : Course) : c.last ≠ .error .unbalanced := by
  intro h
  rcases bind_eq_error.mp h with hfinish | ⟨token?, hfinish, hadd⟩
  · obtain ⟨fault, -, hfault⟩ := mapError_eq_error.mp hfinish
    cases hfault
  · rcases bind_eq_error.mp hadd with hadd | ⟨b, -, hnone⟩
    · obtain rfl := Builder.closing_of_unbalanced hadd
      obtain ⟨content, -, hnames⟩ :=
        (Reader.finish_tracks (mapError_eq_ok.mp hfinish)).closing_names
      exact List.cons_ne_self _ _ hnames.symm
    · cases hnone

theorem Sound.rest_ne_unbalanced {c : Course} (hs : c.Sound) (bytes : Bytes) :
    c.rest bytes ≠ .error .unbalanced := by
  induction bytes generalizing c with
  | nil =>
    rw [rest_nil]
    intro h
    rcases bind_eq_error.mp h with h | ⟨c', -, h⟩
    · exact c.last_ne_unbalanced h
    · exact c'.builder.finish_ne_unbalanced h
  | cons byte bytes ih =>
    rw [rest_cons]
    intro h
    rcases bind_eq_error.mp h with h | ⟨c', hc, h⟩
    · exact hs.add_ne_unbalanced byte h
    · exact ih (hs.add hc) h

end Course

/-- The course of a document after the bytes at its front. -/
def courseOf (front : Bytes) : Except DocumentError Course := front.foldlM Course.add {}

theorem sound_of_courseOf {front : Bytes} {c : Course} (h : courseOf front = .ok c) : c.Sound :=
  foldlM_keeps (fun _ c => c.Sound) ⟨rfl, rfl⟩ (fun _ _ _ _ hs hadd => hs.add hadd) front c h

/-- Reading a document goes through the courses of its fronts. In each of them, and also at the end
of the input, the open elements and their names are in step; each end tag that the reader lets
through closes the element of its own start tag; and so none is ever found to be too many. -/
theorem open_elements_in_lockstep (bytes : Bytes) :
    (∀ front rest, dropByteOrderMark bytes = front ++ rest →
      readDocument bytes = courseOf front >>= fun c => readFrom c.before c.reader c.builder rest) ∧
    (∀ front c, courseOf front = .ok c → c.Lockstep ∧ (∀ c', c.last = .ok c' → c'.Lockstep) ∧
      ∀ byte r, c.reader.step c.before byte = .ok (some .closing, r) →
        ∃ c', c.add byte = .ok c' ∧ c'.reader = r ∧ c.ClosesOwn c') ∧
    readDocument bytes ≠ .error .unbalanced := by
  have hread : readDocument bytes = Course.rest {} (dropByteOrderMark bytes) := rfl
  have hstart : Course.Sound {} := ⟨rfl, rfl⟩
  refine ⟨?_, ?_, ?_⟩
  · intro front rest hsplit
    rw [hread, hsplit, Course.rest_append]
    rfl
  · intro front c hc
    have hs := sound_of_courseOf hc
    refine ⟨hs.lockstep, ?_, ?_⟩
    · intro c' hlast
      exact (hs.last hlast).lockstep
    · intro byte r hstep
      exact hs.closes hstep
  · rw [hread]
    exact hstart.rest_ne_unbalanced _

/-- The front `<a:b><c/></a:b` of a document. -/
def prefixedTags : Bytes := [60, 97, 58, 98, 62, 60, 99, 47, 62, 60, 47, 97, 58, 98]

/-- The front `<a:b>x`, which ends inside an element. -/
def unendedText : Bytes := [60, 97, 58, 98, 62, 120]

set_option maxRecDepth 4000 in
theorem prefixed_tags_in_lockstep :
    (∃ c r, courseOf prefixedTags = .ok c ∧
      c.reader.step c.before 62 = .ok (some .closing, r) ∧ c.Lockstep ∧
        ∃ c', c.add 62 = .ok c' ∧ c'.reader = r ∧ c.ClosesOwn c') ∧
    (∃ c c', courseOf unendedText = .ok c ∧ c.last = .ok c' ∧ c'.Lockstep) ∧
    readDocument unendedText ≠ .error .unbalanced := by
  let closing : Course := ⟨⟨.endTag [98, 58, 97] none, [[97, 58, 98]]⟩,
    ⟨[{ name := "b", children := [{ name := "c" }] }], none⟩,
    [.opening [97, 58, 98], .empty [99]], 14⟩
  let ended : Course := ⟨⟨.text [120], [[97, 58, 98]]⟩, ⟨[{ name := "b" }], none⟩,
    [.opening [97, 58, 98]], 6⟩
  have hclosing : courseOf prefixedTags = .ok closing := rfl
  have hended : courseOf unendedText = .ok ended := rfl
  obtain ⟨-, hstate, hnever⟩ := open_elements_in_lockstep unendedText
  obtain ⟨hlockstep, -, hcloses⟩ := hstate prefixedTags closing hclosing
  obtain ⟨-, hlast, -⟩ := hstate unendedText ended hended
  exact ⟨⟨closing, ⟨.text [], []⟩, hclosing, rfl, hlockstep, hcloses 62 ⟨.text [], []⟩ rfl⟩,
    ⟨ended, _, hended, rfl, hlast _ rfl⟩, hnever⟩

end OlapClient.Markup
