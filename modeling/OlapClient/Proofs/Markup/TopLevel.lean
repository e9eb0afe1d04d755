import OlapClient.Markup.Document
import OlapClient.Proofs.Traversal

/-!
# The elements outside all others

Which elements a document has at its top level is said by a grammar of its tokens: an element is a
single tag, or a start tag, what fills the element, and an end tag (`Spells`), and outside all
elements everything else counts for nothing (`TopLevel`). The builder of trees follows this grammar,
but it keeps only the last top-level element, so that a document is what it is read as if there is
no other one.
-/

namespace OlapClient.Markup

/-! ### The tokens of a document -/

/-- The tokens in the bytes that follow the first `before`. -/
def tokensFrom (before : Nat) (r : Reader) : Bytes → Except ReadFault (List Token)
  | [] => (r.finish before).map Option.toList
  | byte :: bytes => do
    let (token?, r) ← r.step before byte
    let tokens ← tokensFrom (before + 1) r bytes
    return token?.toList ++ tokens

def tokens (bytes : Bytes) : Except ReadFault (List Token) :=
  tokensFrom 0 {} (dropByteOrderMark bytes)

theorem add?_eq_foldlM (b : Builder) (token? : Option Token) :
    b.add? token? = token?.toList.foldlM Builder.add b := by
  cases token? with
  | none => rfl
  | some token =>
    exact (bind_pure (m := Except DocumentError) (b.add token)).symm

theorem finish_eq_ok_iff (b : Builder) (e : Element) :
    b.finish = .ok e ↔ b.stack = [] ∧ b.root = some e := by
  obtain ⟨⟨⟩ | ⟨e', outer⟩, ⟨⟩ | root⟩ := b <;> simp [Builder.finish]

/-- Reading a document is building a tree from its tokens. -/
theorem readFrom_eq_ok_iff (before : Nat) (r : Reader) (b : Builder) (bytes : Bytes) (e : Element) :
    readFrom before r b bytes = .ok e ↔ ∃ ts, tokensFrom before r bytes = .ok ts ∧
      ∃ b', ts.foldlM Builder.add b = .ok b' ∧ b'.finish = .ok e := by
  induction bytes generalizing before r b with
  | nil =>
    simp only [readFrom, tokensFrom, bind_eq_ok, mapError_eq_ok, map_eq_ok, add?_eq_foldlM]
    exact ⟨fun ⟨last, hl, b', hb, he⟩ => ⟨_, ⟨last, hl, rfl⟩, b', hb, he⟩,
      fun ⟨_, ⟨last, hl, rfl⟩, b', hb, he⟩ => ⟨last, hl, b', hb, he⟩⟩
  | cons byte bytes ih =>
    simp only [readFrom, tokensFrom, bind_eq_ok, mapError_eq_ok, add?_eq_foldlM, ih]
    constructor
    · rintro ⟨⟨token?, r'⟩, hstep, b₁, hb₁, ts, hts, b', hb', he⟩
      refine ⟨token?.toList ++ ts, ⟨(token?, r'), hstep, ts, hts, rfl⟩, b', ?_, he⟩
      rw [List.foldlM_append, bind_eq_ok]
      exact ⟨b₁, hb₁, hb'⟩
    · rintro ⟨_, ⟨⟨token?, r'⟩, hstep, ts, hts, ⟨⟩⟩, b', hb', he⟩
      rw [List.foldlM_append, bind_eq_ok] at hb'
      obtain ⟨b₁, hb₁, hb'⟩ := hb'
      exact ⟨(token?, r'), hstep, b₁, hb₁, ts, hts, b', hb', he⟩

/-! ### The grammar -/

mutual

/-- An element and its tokens. -/
inductive Spells : Element → List Token → Prop where
  | single (tag : Bytes) (e : Element) (he : Element.ofTag tag = .ok e) : Spells e [.empty tag]
  | enclosing (tag : Bytes) (e filled : Element) (inner : List Token)
      (he : Element.ofTag tag = .ok e) (hf : Fills e inner filled) :
      Spells filled (.opening tag :: (inner ++ [.closing]))

/-- What stands inside an element, which it leads from one state to another. -/
inductive Fills : Element → List Token → Element → Prop where
  | nil (e : Element) : Fills e [] e
  | text (raw : Bytes) (heard : String) (e filled : Element) (ts : List Token)
      (hd : decodeText raw = .ok heard) (hf : Fills (e.addText heard) ts filled) :
      Fills e (.text raw :: ts) filled
  | characterData (raw : Bytes) (e filled : Element) (ts : List Token)
      (hf : Fills (e.addText (Utf8.decodeLossy raw)) ts filled) :
      Fills e (.characterData raw :: ts) filled
  | aside (e filled : Element) (ts : List Token) (hf : Fills e ts filled) :
      Fills e (.aside :: ts) filled
  | child (c e filled : Element) (written ts : List Token) (hc : Spells c written)
      (hf : Fills (e.addChild c) ts filled) : Fills e (written ++ ts) filled

end

/-- Tokens that say nothing where no element is open. -/
inductive Token.Idle : Token → Prop where
  | text (raw : Bytes) : Idle (.text raw)
  | characterData (raw : Bytes) : Idle (.characterData raw)
  | aside : Idle .aside

/-- The tokens of a document and the elements that stand outside all others. -/
inductive TopLevel : List Element → List Token → Prop where
  | nil : TopLevel [] []
  | idle (token : Token) (es : List Element) (ts : List Token) (ht : token.Idle)
      (h : TopLevel es ts) : TopLevel es (token :: ts)
  | element (e : Element) (es : List Element) (written ts : List Token) (he : Spells e written)
      (h : TopLevel es ts) : TopLevel (e :: es) (written ++ ts)

/-- The top-level elements of the document in these bytes. -/
def HasRoots (bytes : Bytes) (es : List Element) : Prop :=
  ∃ ts, tokens bytes = .ok ts ∧ TopLevel es ts

theorem Fills.append {e filled filled' : Element} {ts ts' : List Token} (h : Fills e ts filled)
    (h' : Fills filled ts' filled') : Fills e (ts ++ ts') filled' := by
  match h with
  | .nil e => exact h'
  | .text raw heard e filled ts hd hf => exact .text raw heard e filled' _ hd (hf.append h')
  | .characterData raw e filled ts hf => exact .characterData raw e filled' _ (hf.append h')
  | .aside e filled ts hf => exact .aside e filled' _ (hf.append h')
  | .child c e filled written ts hc hf =>
    rw [List.append_assoc]
    exact .child c e filled' written _ hc (hf.append h')

theorem TopLevel.append {es es' : List Element} {ts ts' : List Token} (h : TopLevel es ts)
    (h' : TopLevel es' ts') : TopLevel (es ++ es') (ts ++ ts') := by
  induction h with
  | nil => exact h'
  | idle token es ts ht _ ih => exact .idle token _ _ ht ih
  | element e es written ts he _ ih =>
    rw [List.append_assoc]
    exact .element e _ written _ he ih

/-! ### A builder that keeps every top-level element -/

/-- What an element completed outside all others replaces does not count for the next step. -/
theorem Builder.add_eq (b : Builder) (token : Token) :
    b.add token = ((⟨b.stack, none⟩ : Builder).add token).map
      fun b' => ⟨b'.stack, b'.root.or b.root⟩ := by
  have hplace : ∀ (stack : List Element) (root : Option Element) (e : Element),
      (⟨stack, root⟩ : Builder).place e = ⟨((⟨stack, none⟩ : Builder).place e).stack,
        ((⟨stack, none⟩ : Builder).place e).root.or root⟩ := by
    rintro (- | ⟨parent, outer⟩) root e <;> rfl
  obtain ⟨stack, root⟩ := b
  cases token with
  | opening tag => cases he : Element.ofTag tag <;> simp [add, he, bind, Except.bind] <;> rfl
  | empty tag =>
    cases he : Element.ofTag tag with
    | error cause => simp [add, he, bind, Except.bind, Except.map]
    | ok e =>
      simp only [add, he, bind, Except.bind, Except.map, pure, Except.pure]
      rw [hplace]
  | closing =>
    cases stack with
    | nil => rfl
    | cons e outer => exact congrArg Except.ok (hplace outer root e)
  | text raw =>
    cases stack with
    | nil => rfl
    | cons e outer => cases hd : decodeText raw <;> simp [add, hd, bind, Except.bind] <;> rfl
  | characterData raw => cases stack <;> rfl
  | aside => rfl

/-- The elements that are complete and outside all others, in order, and those that are open,
innermost first. -/
structure Grove where
  roots : List Element := []
  stack : List Element := []

namespace Grove

def keep (roots : List Element) (b : Builder) : Grove := ⟨roots ++ b.root.toList, b.stack⟩

def place (g : Grove) (e : Element) : Grove := keep g.roots ((⟨g.stack, none⟩ : Builder).place e)

def add (g : Grove) (token : Token) : Except DocumentError Grove :=
  ((⟨g.stack, none⟩ : Builder).add token).map (keep g.roots)

/-- The builder that has the last of them. -/
def builder (g : Grove) : Builder := ⟨g.stack, g.roots.getLast?⟩

theorem builder_add (g : Grove) (token : Token) :
    g.builder.add token = (g.add token).map builder := by
  rw [Builder.add_eq, add, builder]
  cases (⟨g.stack, none⟩ : Builder).add token with
  | error cause => rfl
  | ok b =>
    obtain ⟨stack, ⟨⟩ | ⟨e⟩⟩ := b <;> simp [Except.map, keep, builder]

theorem builder_foldlM (g : Grove) (ts : List Token) :
    ts.foldlM Builder.add g.builder = (ts.foldlM add g).map builder := by
  induction ts generalizing g with
  | nil => rfl
  | cons token ts ih =>
    rw [List.foldlM_cons, List.foldlM_cons, builder_add]
    cases g.add token with
    | error cause => rfl
    | ok g' => exact ih g'

/-! ### What the grammar describes is built -/

theorem foldlM_cons_of_ok {g g' : Grove} {token : Token} (h : g.add token = .ok g')
    (ts : List Token) : (token :: ts).foldlM add g = ts.foldlM add g' := by
  rw [List.foldlM_cons, h]
  rfl

theorem foldlM_append_of_ok {g g' : Grove} {ts : List Token} (h : ts.foldlM add g = .ok g')
    (ts' : List Token) : (ts ++ ts').foldlM add g = ts'.foldlM add g' := by
  rw [List.foldlM_append, h]
  rfl

theorem place_inside (roots : List Element) (parent : Element) (outer : List Element)
    (e : Element) : place ⟨roots, parent :: outer⟩ e = ⟨roots, parent.addChild e :: outer⟩ := by
  simp [place, keep, Builder.place]

theorem place_outside (roots : List Element) (e : Element) :
    place ⟨roots, []⟩ e = ⟨roots ++ [e], []⟩ := rfl

theorem add_opening (g : Grove) (tag : Bytes) (e : Element) (he : Element.ofTag tag = .ok e) :
    g.add (.opening tag) = .ok ⟨g.roots, e :: g.stack⟩ := by
  simp [add, Builder.add, he, bind, Except.bind, pure, Except.pure, Except.map, keep]

theorem add_empty (g : Grove) (tag : Bytes) (e : Element) (he : Element.ofTag tag = .ok e) :
    g.add (.empty tag) = .ok (g.place e) := by
  simp [add, Builder.add, he, bind, Except.bind, pure, Except.pure, Except.map, place]

theorem add_closing (g : Grove) (e : Element) :
    add ⟨g.roots, e :: g.stack⟩ .closing = .ok (g.place e) := rfl

theorem add_text (roots : List Element) (e : Element) (outer : List Element) (raw : Bytes)
    (heard : String) (hd : decodeText raw = .ok heard) :
    add ⟨roots, e :: outer⟩ (.text raw) = .ok ⟨roots, e.addText heard :: outer⟩ := by
  simp [add, Builder.add, hd, bind, Except.bind, pure, Except.pure, Except.map, keep]

theorem add_characterData (roots : List Element) (e : Element) (outer : List Element)
    (raw : Bytes) : add ⟨roots, e :: outer⟩ (.characterData raw) =
      .ok ⟨roots, e.addText (Utf8.decodeLossy raw) :: outer⟩ := by
  simp [add, Builder.add, Except.map, keep]

theorem add_aside (g : Grove) : g.add .aside = .ok g := by
  simp [add, Builder.add, Except.map, keep]

theorem add_idle (roots : List Element) (token : Token) (ht : token.Idle) :
    add ⟨roots, []⟩ token = .ok ⟨roots, []⟩ := by
  cases ht <;> simp [add, Builder.add, Except.map, keep]

mutual

theorem foldlM_spells {e : Element} {ts : List Token} (h : Spells e ts) (g : Grove) :
    ts.foldlM add g = .ok (g.place e) := by
  match h with
  | .single tag e he =>
    rw [foldlM_cons_of_ok (g.add_empty tag e he)]
    rfl
  | .enclosing tag e filled inner he hf =>
    rw [foldlM_cons_of_ok (g.add_opening tag e he),
      foldlM_append_of_ok (foldlM_fills hf g.roots g.stack),
      foldlM_cons_of_ok (g.add_closing filled)]
    rfl

theorem foldlM_fills {e filled : Element} {ts : List Token} (h : Fills e ts filled)
    (roots outer : List Element) :
    ts.foldlM add ⟨roots, e :: outer⟩ = .ok ⟨roots, filled :: outer⟩ := by
  match h with
  | .nil e => rfl
  | .text raw heard e filled ts hd hf =>
    rw [foldlM_cons_of_ok (add_text roots e outer raw heard hd), foldlM_fills hf]
  | .characterData raw e filled ts hf =>
    rw [foldlM_cons_of_ok (add_characterData roots e outer raw), foldlM_fills hf]
  | .aside e filled ts hf =>
    rw [foldlM_cons_of_ok (add_aside _), foldlM_fills hf]
  | .child c e filled written ts hc hf =>
    rw [foldlM_append_of_ok (foldlM_spells hc _), place_inside, foldlM_fills hf]

end

theorem foldlM_topLevel {es : List Element} {ts : List Token} (h : TopLevel es ts)
    (roots : List Element) : ts.foldlM add ⟨roots, []⟩ = .ok ⟨roots ++ es, []⟩ := by
  induction h generalizing roots with
  | nil =>
    rw [List.append_nil]
    rfl
  | idle token es ts ht _ ih => rw [foldlM_cons_of_ok (add_idle roots token ht), ih]
  | element e es written ts he _ ih =>
    rw [foldlM_append_of_ok (foldlM_spells he _), place_outside, ih, List.append_assoc,
      List.singleton_append]

/-! ### What is built is described by the grammar -/

/-- The tokens from which the elements come, of which some are still open. -/
inductive Grows : Grove → List Token → Prop where
  | outside (es : List Element) (ts : List Token) (h : TopLevel es ts) : Grows ⟨es, []⟩ ts
  | inside (g : Grove) (ts inner : List Token) (tag : Bytes) (e filled : Element) (h : Grows g ts)
      (he : Element.ofTag tag = .ok e) (hf : Fills e inner filled) :
      Grows ⟨g.roots, filled :: g.stack⟩ (ts ++ .opening tag :: inner)

theorem Grows.fill {roots outer : List Element} {e filled : Element} {ts ts' : List Token}
    (h : Grows ⟨roots, e :: outer⟩ ts) (hf : Fills e ts' filled) :
    Grows ⟨roots, filled :: outer⟩ (ts ++ ts') := by
  cases h with
  | inside g ts inner tag e₀ filled₀ h he hf₀ =>
    rw [List.append_assoc]
    exact .inside g ts (inner ++ ts') tag e₀ filled h he (hf₀.append hf)

theorem Grows.place {g : Grove} {ts written : List Token} {e : Element} (h : Grows g ts)
    (he : Spells e written) : Grows (g.place e) (ts ++ written) := by
  have hwritten : written = written ++ [] := (List.append_nil written).symm
  obtain ⟨roots, ⟨⟩ | ⟨parent, outer⟩⟩ := g
  · cases h with
    | outside es ts h =>
      rw [hwritten]
      exact .outside _ _ (h.append (.element e [] written [] he .nil))
  · rw [place_inside, hwritten]
    exact h.fill (.child e parent _ written [] he (.nil _))

theorem Grows.pass {roots : List Element} {ts : List Token} {token : Token}
    (h : Grows ⟨roots, []⟩ ts) (ht : token.Idle) : Grows ⟨roots, []⟩ (ts ++ [token]) := by
  cases h with
  | outside es ts h =>
    have hidle := h.append (.idle token [] [] ht .nil)
    rw [List.append_nil] at hidle
    exact .outside roots _ hidle

/-- One more token keeps to the grammar, as far as it is accepted. -/
theorem Grows.add {g g' : Grove} {ts : List Token} {token : Token} (h : Grows g ts)
    (hadd : g.add token = .ok g') : Grows g' (ts ++ [token]) := by
  cases token with
  | opening tag =>
    cases he : Element.ofTag tag with
    | error cause => simp [Grove.add, Builder.add, he, bind, Except.bind, Except.map] at hadd
    | ok e =>
      rw [g.add_opening tag e he] at hadd
      cases hadd
      exact .inside g ts [] tag e e h he (.nil e)
  | empty tag =>
    cases he : Element.ofTag tag with
    | error cause => simp [Grove.add, Builder.add, he, bind, Except.bind, Except.map] at hadd
    | ok e =>
      rw [g.add_empty tag e he] at hadd
      cases hadd
      exact h.place (.single tag e he)
  | closing =>
    cases h with
    | outside es ts h => cases hadd
    | inside g ts inner tag e filled h he hf =>
      rw [add_closing] at hadd
      cases hadd
      rw [List.append_assoc]
      exact h.place (.enclosing tag e filled inner he hf)
  | text raw =>
    obtain ⟨roots, ⟨⟩ | ⟨e, outer⟩⟩ := g
    · rw [add_idle roots _ (.text raw)] at hadd
      cases hadd
      exact h.pass (.text raw)
    · cases hd : decodeText raw with
      | error cause => simp [Grove.add, Builder.add, hd, bind, Except.bind, Except.map] at hadd
      | ok heard =>
        rw [add_text roots e outer raw heard hd] at hadd
        cases hadd
        exact h.fill (.text raw heard e _ [] hd (.nil _))
  | characterData raw =>
    obtain ⟨roots, ⟨⟩ | ⟨e, outer⟩⟩ := g
    · rw [add_idle roots _ (.characterData raw)] at hadd
      cases hadd
      exact h.pass (.characterData raw)
    · rw [add_characterData] at hadd
      cases hadd
      exact h.fill (.characterData raw e _ [] (.nil _))
  | aside =>
    rw [add_aside] at hadd
    cases hadd
    obtain ⟨roots, ⟨⟩ | ⟨e, outer⟩⟩ := g
    · exact h.pass .aside
    · exact h.fill (.aside e e [] (.nil e))

theorem grows_of_foldlM {g : Grove} {ts : List Token} (h : ts.foldlM Grove.add {} = .ok g) :
    Grows g ts :=
  foldlM_keeps (fun ts g => Grows g ts) (.outside [] [] .nil)
    (fun _ _ _ _ hgrows hadd => hgrows.add hadd) ts g h

/-- The grammar describes what the builder does: the elements at the top level are those that are
completed there, and none is open at the end. -/
theorem topLevel_iff (es : List Element) (ts : List Token) :
    TopLevel es ts ↔ ts.foldlM Grove.add {} = .ok ⟨es, []⟩ := by
  constructor
  · intro h
    exact foldlM_topLevel h []
  · intro h
    cases grows_of_foldlM h with
    | outside es ts h => exact h

end Grove

/-! ### Documents -/

theorem HasRoots.unique {bytes : Bytes} {es es' : List Element} (h : HasRoots bytes es)
    (h' : HasRoots bytes es') : es = es' := by
  obtain ⟨ts, hts, h⟩ := h
  obtain ⟨ts', hts', h'⟩ := h'
  rw [hts] at hts'
  obtain rfl := Except.ok.inj hts'
  rw [Grove.topLevel_iff] at h h'
  rw [h] at h'
  exact congrArg Grove.roots (Except.ok.inj h')

theorem readDocument_eq_ok_iff (bytes : Bytes) (e : Element) :
    readDocument bytes = .ok e ↔ ∃ es, HasRoots bytes (es ++ [e]) := by
  have hbuild : ∀ ts, (∃ b, ts.foldlM Builder.add {} = .ok b ∧ b.finish = .ok e) ↔
      ∃ es, TopLevel (es ++ [e]) ts := by
    intro ts
    have hrun : ts.foldlM Builder.add {} = (ts.foldlM Grove.add {}).map Grove.builder :=
      Grove.builder_foldlM {} ts
    simp only [hrun, map_eq_ok, finish_eq_ok_iff, Grove.topLevel_iff]
    constructor
    · rintro ⟨_, ⟨⟨roots, stack⟩, hg, rfl⟩, rfl, hlast⟩
      obtain ⟨es, rfl⟩ := List.getLast?_eq_some_iff.mp hlast
      exact ⟨es, hg⟩
    · rintro ⟨es, hg⟩
      exact ⟨_, ⟨_, hg, rfl⟩, rfl, by simp [Grove.builder]⟩
  rw [readDocument, readFrom_eq_ok_iff]
  simp only [hbuild]
  exact ⟨fun ⟨ts, hts, es, h⟩ => ⟨es, ts, hts, h⟩, fun ⟨es, ts, hts, h⟩ => ⟨ts, hts, es, h⟩⟩

/-- Nothing of the document is left out: where it is read there is one top-level element, which it
is read as, and where there is none or more than one it is not read. -/
def KeptWhole (bytes : Bytes) : Prop :=
  (∀ e, readDocument bytes = .ok e → HasRoots bytes [e]) ∧
    ∀ es, HasRoots bytes es → es.length ≠ 1 → ∃ cause, readDocument bytes = .error cause

/-- A document is read as its last top-level element, whatever stands before it; nothing is left out
exactly if there is no more than one. -/
theorem keptWhole_iff (bytes : Bytes) :
    (∀ e, readDocument bytes = .ok e ↔ ∃ es, HasRoots bytes (es ++ [e])) ∧
    (KeptWhole bytes ↔ ∀ es, HasRoots bytes es → es.length ≤ 1) := by
  refine ⟨readDocument_eq_ok_iff bytes, ?_, ?_⟩
  · rintro ⟨hone, -⟩ es h
    rcases List.eq_nil_or_concat' es with rfl | ⟨front, e, rfl⟩
    · exact Nat.zero_le 1
    · have hread := (readDocument_eq_ok_iff bytes e).mpr ⟨front, h⟩
      rw [h.unique (hone e hread)]
      exact Nat.le_refl 1
  · intro hle
    refine ⟨?_, ?_⟩
    · intro e hread
      obtain ⟨front, h⟩ := (readDocument_eq_ok_iff bytes e).mp hread
      have hlength := hle _ h
      rw [List.length_append, List.length_singleton] at hlength
      obtain rfl : front = [] := List.eq_nil_of_length_eq_zero (by omega)
      exact h
    · intro es h hne
      have hlength := hle es h
      obtain rfl : es = [] := List.eq_nil_of_length_eq_zero (by omega)
      cases hread : readDocument bytes with
      | error cause => exact ⟨cause, rfl⟩
      | ok e =>
        obtain ⟨front, hfront⟩ := (readDocument_eq_ok_iff bytes e).mp hread
        exact absurd (h.unique hfront) (by simp)

/-- The document `<!-- --><a>x</a>y`. -/
def loneRoot : Bytes :=
  [60, 33, 45, 45, 32, 45, 45, 62, 60, 97, 62, 120, 60, 47, 97, 62, 121]

set_option maxRecDepth 4000 in
theorem hasRoots_loneRoot : HasRoots loneRoot [{ name := "a", text := "x" }] := by
  refine ⟨[.aside, .opening [97], .text [120], .closing, .text [121]], rfl, ?_⟩
  refine .idle _ _ _ .aside (.element _ _ [.opening [97], .text [120], .closing] _ ?_ ?_)
  · exact .enclosing [97] { name := "a" } _ [.text [120]] rfl (.text [120] "x" _ _ [] rfl (.nil _))
  · exact .idle _ _ _ (.text [121]) .nil

theorem loneRoot_keptWhole : KeptWhole loneRoot := by
  refine (keptWhole_iff loneRoot).2.mpr fun es h => ?_
  rw [h.unique hasRoots_loneRoot]
  exact Nat.le_refl 1

/-- The document `<Fault/><root/>`. -/
def twoRoots : Bytes :=
  [60, 70, 97, 117, 108, 116, 47, 62, 60, 114, 111, 111, 116, 47, 62]

set_option maxRecDepth 4000 in
/-- Of two top-level elements the first one is left out, although it is a fault. -/
theorem first_root_dropped : HasRoots twoRoots [{ name := "Fault" }, { name := "root" }] ∧
    readDocument twoRoots = .ok { name := "root" } ∧ ¬ KeptWhole twoRoots := by
  have hroots : HasRoots twoRoots [{ name := "Fault" }, { name := "root" }] :=
    ⟨[.empty (Text.ascii "Fault"), .empty (Text.ascii "root")], rfl,
      .element _ _ [_] _ (.single _ _ rfl) (.element _ _ [_] _ (.single _ _ rfl) .nil)⟩
  have hread : readDocument twoRoots = .ok { name := "root" } := rfl
  refine ⟨hroots, hread, fun hkept => ?_⟩
  have hlength := congrArg List.length (hroots.unique (hkept.1 _ hread))
  cases hlength

end OlapClient.Markup
