import OlapClient.Markup.Element
import OlapClient.Markup.Reference
import OlapClient.Proofs.Text.Encoding

/-!
# How a tree is written as a document

An element has one name and one text, but many documents: names take prefixes, tags take namespace
declarations and blanks, the text is cut into pieces between the children, and each piece is escaped
or stands in a section of its own, with comments anywhere. The relation `Renders` allows all of
that; it says nothing about how a document is read. Every tree whose names are plain has a rendering
(`WellNamed.exists_rendering`).
-/

namespace OlapClient.Markup

namespace Rendering

/-! ### Escaped text -/

/-- Digits, most significant first, and their value. -/
inductive Numeral (radix : Nat) : List Char → Nat → Prop where
  | one (c : Char) (v : Nat) (h : Text.digitValue? radix c = some v) : Numeral radix [c] v
  | more (digits : List Char) (n : Nat) (c : Char) (v : Nat) (hd : Numeral radix digits n)
      (h : Text.digitValue? radix c = some v) : Numeral radix (digits ++ [c]) (n * radix + v)

/-- What stands between `&` and `;` for a character. -/
inductive Reference : List Char → Char → Prop where
  | named (c : Char) (name : String) (h : (c, name) ∈ namedCharacters) : Reference name.toList c
  | decimal (digits : List Char) (c : Char) (h : Numeral 10 digits c.toNat) (hc : c.toNat ≠ 0) :
      Reference ('#' :: digits) c
  | hexadecimal (digits : List Char) (c : Char) (h : Numeral 16 digits c.toNat)
      (hc : c.toNat ≠ 0) : Reference ('#' :: 'x' :: digits) c

/-- A text that is written by character or by reference, and what it says. The characters to avoid
are written by reference only. -/
inductive Escaped (avoid : List Char) : List Char → List Char → Prop where
  | nil : Escaped avoid [] []
  | plain (c : Char) (raw text : List Char) (hc : c ≠ '&' ∧ c ∉ avoid)
      (h : Escaped avoid raw text) : Escaped avoid (c :: raw) (c :: text)
  | reference (name : List Char) (c : Char) (raw text : List Char) (hr : Reference name c)
      (h : Escaped avoid raw text) : Escaped avoid ('&' :: (name ++ ';' :: raw)) (c :: text)

/-! ### Tags -/

def spaces : List Char := [' ', '\t', '\n', '\r']

/-- What no key contains: blanks, quotes, and the marks of a tag. -/
def delimiters : List Char := spaces ++ ['"', '\'', '=', '<', '>', '/', '!', '?']

def Spaces (gap : List Char) : Prop := ∀ c ∈ gap, c ∈ spaces

instance (gap : List Char) : Decidable (Spaces gap) := List.decidableBAll (· ∈ spaces) gap

def Unmarked (key : List Char) : Prop := ∀ c ∈ key, c ∉ delimiters

instance (key : List Char) : Decidable (Unmarked key) := List.decidableBAll (· ∉ delimiters) key

/-- Letters, digits and underscores, all of them ASCII. -/
structure IsName (name : List Char) : Prop where
  nonempty : name ≠ []
  plain : ∀ c ∈ name, c.isAlphanum = true ∨ c = '_'

instance (name : List Char) : Decidable (IsName name) :=
  have := List.decidableBAll (fun c : Char => c.isAlphanum = true ∨ c = '_') name
  decidable_of_iff (name ≠ [] ∧ ∀ c ∈ name, c.isAlphanum = true ∨ c = '_')
    ⟨fun h => ⟨h.1, h.2⟩, fun h => ⟨h.nonempty, h.plain⟩⟩

/-- The key that declares the default namespace. -/
def xmlns : List Char := ['x', 'm', 'l', 'n', 's']

structure IsPrefix (space : List Char) : Prop where
  unmarked : Unmarked space
  not_colon : ':' ∉ space
  declares_not : space ≠ xmlns

instance (space : List Char) : Decidable (IsPrefix space) :=
  decidable_of_iff (Unmarked space ∧ ':' ∉ space ∧ space ≠ xmlns)
    ⟨fun h => ⟨h.1, h.2.1, h.2.2⟩, fun h => ⟨h.unmarked, h.not_colon, h.declares_not⟩⟩

/-- A name with or without a prefix. -/
inductive Qualified (name : List Char) : List Char → Prop where
  | bare : Qualified name name
  | prefixed (space : List Char) (h : IsPrefix space) : Qualified name (space ++ ':' :: name)

/-- The key of a namespace declaration. -/
inductive Declares : List Char → Prop where
  | default : Declares xmlns
  | prefixed (space : List Char) (h : Unmarked space) : Declares (xmlns ++ ':' :: space)

/-- An equals sign between a key and its value. -/
inductive Equals : List Char → Prop where
  | mk (gap gap' : List Char) (hg : Spaces gap) (hg' : Spaces gap') : Equals (gap ++ '=' :: gap')

def IsQuote (quote : Char) : Prop := quote = '"' ∨ quote = '\''

/-- The attributes behind the name of a tag, with the keys of the declarations among them. -/
inductive Attributes : List (String × String) → List (List Char) → List Char → Prop where
  | done (gap : List Char) (hg : Spaces gap) : Attributes [] [] gap
  | named (gap : List Char) (name : String) (key equals : List Char) (quote : Char)
      (raw value : List Char) (attributes : List (String × String)) (declared : List (List Char))
      (rest : List Char) (hgap : gap ≠ []) (hg : Spaces gap) (hk : Qualified name.toList key)
      (he : Equals equals) (hq : IsQuote quote) (hv : Escaped [quote] raw value)
      (h : Attributes attributes declared rest) :
      Attributes ((name, String.ofList value) :: attributes) declared
        (gap ++ (key ++ (equals ++ quote :: (raw ++ quote :: rest))))
  | declaring (gap key equals : List Char) (quote : Char) (raw : List Char)
      (attributes : List (String × String)) (declared : List (List Char)) (rest : List Char)
      (hgap : gap ≠ []) (hg : Spaces gap) (hk : Declares key) (he : Equals equals)
      (hq : IsQuote quote) (hv : quote ∉ raw) (h : Attributes attributes declared rest) :
      Attributes attributes (key :: declared)
        (gap ++ (key ++ (equals ++ quote :: (raw ++ quote :: rest))))

/-- What stands in a start tag: the name under its prefix, and attributes. No key is declared
twice. -/
inductive Tag (name : String) (attributes : List (String × String)) :
    List Char → List Char → Prop where
  | mk (key : List Char) (declared : List (List Char)) (rest : List Char)
      (hk : Qualified name.toList key) (hd : declared.Nodup)
      (ha : Attributes attributes declared rest) :
      Tag name attributes key (key ++ rest)

/-! ### Elements -/

def sectionOpening : List Char := ['<', '!', '[', 'C', 'D', 'A', 'T', 'A', '[']

def sectionClosing : List Char := [']', ']', '>']

def commentOpening : List Char := ['<', '!', '-', '-']

def commentClosing : List Char := ['-', '-', '>']

mutual

/-- An element and what is written for it. -/
inductive Renders : Element → List Char → Prop where
  | enclosing (name : String) (attributes : List (String × String)) (children : List Element)
      (key tag text inner gap : List Char) (ht : Tag name attributes key tag)
      (hc : Content children text inner) (hg : Spaces gap) :
      Renders ⟨name, attributes, children, String.ofList text⟩
        ('<' :: (tag ++ '>' :: (inner ++ '<' :: '/' :: (key ++ (gap ++ ['>'])))))
  | selfClosing (name : String) (attributes : List (String × String)) (key tag : List Char)
      (ht : Tag name attributes key tag) :
      Renders ⟨name, attributes, [], ""⟩ ('<' :: (tag ++ ['/', '>']))

/-- What is written between two tags: children in order, and the pieces of one text. -/
inductive Content : List Element → List Char → List Char → Prop where
  | nil : Content [] [] []
  | text (raw heard : List Char) (children : List Element) (text rest : List Char)
      (he : Escaped ['<'] raw heard) (h : Content children text rest) :
      Content children (heard ++ text) (raw ++ rest)
  | characterData (heard : List Char) (children : List Element) (text rest : List Char)
      (hd : ¬ sectionClosing <:+: heard) (h : Content children text rest) :
      Content children (heard ++ text) (sectionOpening ++ (heard ++ (sectionClosing ++ rest)))
  | comment (body : List Char) (children : List Element) (text rest : List Char)
      (hb : ¬ commentClosing <:+: body) (h : Content children text rest) :
      Content children text (commentOpening ++ (body ++ (commentClosing ++ rest)))
  | child (e : Element) (raw : List Char) (children : List Element) (text rest : List Char)
      (hr : Renders e raw) (h : Content children text rest) :
      Content (e :: children) text (raw ++ rest)

end

end Rendering

open Rendering

/-- A tree with plain names only, whose attributes are told apart by their names. -/
inductive Element.WellNamed : Element → Prop where
  | mk (name : String) (attributes : List (String × String)) (children : List Element)
      (text : String) (hn : IsName name.toList)
      (ha : ∀ a ∈ attributes, IsName a.1.toList ∧ a.1.toList ≠ xmlns)
      (hd : (attributes.map (·.1)).Nodup) (hc : ∀ c ∈ children, c.WellNamed) :
      WellNamed ⟨name, attributes, children, text⟩

namespace Rendering

/-! ### Characters of what is written -/

theorem forall_of_all {p : Char → Prop} [DecidablePred p] (cs : List Char)
    (h : cs.all (fun c => decide (p c)) = true) : ∀ c ∈ cs, p c := by
  simpa using h

theorem IsName.unmarked {name : List Char} (h : IsName name) : Unmarked name := by
  intro c hc hd
  have hplain := h.plain c hc
  simp only [delimiters, spaces, List.mem_append, List.mem_cons, List.not_mem_nil, or_false] at hd
  rcases hd with (rfl | rfl | rfl | rfl) | rfl | rfl | rfl | rfl | rfl | rfl | rfl | rfl <;>
    exact absurd hplain (by decide)

theorem IsName.not_colon {name : List Char} (h : IsName name) : ':' ∉ name := by
  intro hc
  exact absurd (h.plain ':' hc) (by decide)

namespace Qualified

variable {name key : List Char}

theorem ne_nil (h : Qualified name key) (hn : IsName name) : key ≠ [] := by
  cases h with
  | bare => exact hn.nonempty
  | prefixed space hs => simp

theorem unmarked (h : Qualified name key) (hn : IsName name) : Unmarked key := by
  cases h with
  | bare => exact hn.unmarked
  | prefixed space hs =>
    intro c hc
    rcases List.mem_append.mp hc with hc | hc
    · exact hs.unmarked c hc
    · rcases List.mem_cons.mp hc with rfl | hc
      · decide
      · exact hn.unmarked c hc

end Qualified

theorem Declares.ne_nil {key : List Char} (h : Declares key) : key ≠ [] := by
  cases h with
  | default => decide
  | prefixed space hs => simp [xmlns]

theorem Declares.unmarked {key : List Char} (h : Declares key) : Unmarked key := by
  have hxmlns : Unmarked xmlns := by decide
  cases h with
  | default => exact hxmlns
  | prefixed space hs =>
    intro c hc
    rcases List.mem_append.mp hc with hc | hc
    · exact hxmlns c hc
    · rcases List.mem_cons.mp hc with rfl | hc
      · decide
      · exact hs c hc

theorem Tag.of_eq {name : String} {attributes : List (String × String)}
    {key key' tag tag' : List Char} (h : Tag name attributes key tag) (hkey : key = key')
    (htag : tag = tag') : Tag name attributes key' tag' := by
  rw [← hkey, ← htag]
  exact h

theorem alphanum_of_digit (radix : Nat) (c : Char) (v : Nat)
    (h : Text.digitValue? radix c = some v) : c.isAlphanum = true := by
  rw [Text.isAlphanum_iff]
  simp only [Text.digitValue?, Bool.and_eq_true, decide_eq_true_eq] at h
  split at h
  · rename_i hr
    exact .inr hr
  · split at h
    · rename_i hr
      exact .inl (.inr ⟨hr.1, Char.le_trans hr.2 (by decide)⟩)
    · split at h
      · rename_i hr
        exact .inl (.inl ⟨hr.1, Char.le_trans hr.2 (by decide)⟩)
      · cases h

theorem Numeral.digit {radix : Nat} {digits : List Char} {n : Nat} (h : Numeral radix digits n)
    (c : Char) (hc : c ∈ digits) : ∃ v, Text.digitValue? radix c = some v := by
  induction h with
  | one c' v hv =>
    rw [List.mem_singleton.mp hc]
    exact ⟨v, hv⟩
  | more digits n c' v _ hv ih =>
    rcases List.mem_append.mp hc with hc | hc
    · exact ih hc
    · rw [List.mem_singleton.mp hc]
      exact ⟨v, hv⟩

theorem Numeral.alphanum {radix : Nat} {digits : List Char} {n : Nat} (h : Numeral radix digits n)
    (c : Char) (hc : c ∈ digits) : c.isAlphanum = true := by
  obtain ⟨v, hv⟩ := h.digit c hc
  exact alphanum_of_digit radix c v hv

theorem Reference.chars {name : List Char} {c : Char} (h : Reference name c) (d : Char)
    (hd : d ∈ name) : d = '#' ∨ d.isAlphanum = true := by
  cases h with
  | named c name hmem =>
    have hall : (namedCharacters.all fun entry => entry.2.toList.all (·.isAlphanum)) = true := by
      decide
    exact .inr (List.all_eq_true.mp (List.all_eq_true.mp hall (c, name) hmem) d hd)
  | decimal digits c hn hc =>
    rcases List.mem_cons.mp hd with rfl | hd
    · exact .inl rfl
    · exact .inr (hn.alphanum d hd)
  | hexadecimal digits c hn hc =>
    rcases List.mem_cons.mp hd with rfl | hd
    · exact .inl rfl
    · rcases List.mem_cons.mp hd with rfl | hd
      · exact .inr (by decide)
      · exact .inr (hn.alphanum d hd)

namespace Escaped

variable {avoid raw text : List Char}

theorem append (h : Escaped avoid raw text) (raw' text' : List Char)
    (h' : Escaped avoid raw' text') : Escaped avoid (raw ++ raw') (text ++ text') := by
  induction h with
  | nil => exact h'
  | plain c raw text hc _ ih => exact .plain c _ _ hc ih
  | reference name c raw text hr _ ih =>
    have hstep := Escaped.reference name c _ _ hr ih
    simpa using hstep

/-- What is avoided does not occur, unless references are made of it. -/
theorem not_mem (h : Escaped avoid raw text) (d : Char) (hd : d ∈ avoid)
    (hmark : d ≠ '&' ∧ d ≠ ';' ∧ d ≠ '#' ∧ d.isAlphanum = false) : d ∉ raw := by
  obtain ⟨hamp, hsemi, hhash, halpha⟩ := hmark
  induction h with
  | nil => simp
  | plain c raw text hc _ ih =>
    intro hmem
    rcases List.mem_cons.mp hmem with rfl | hmem
    · exact hc.2 hd
    · exact ih hmem
  | reference name c raw text hr _ ih =>
    intro hmem
    rcases List.mem_cons.mp hmem with rfl | hmem
    · exact hamp rfl
    · rcases List.mem_append.mp hmem with hmem | hmem
      · rcases hr.chars d hmem with rfl | hmem
        · exact hhash rfl
        · rw [halpha] at hmem
          cases hmem
      · rcases List.mem_cons.mp hmem with rfl | hmem
        · exact hsemi rfl
        · exact ih hmem

theorem quote_not_mem {quote : Char} (h : Escaped [quote] raw text) (hq : IsQuote quote) :
    quote ∉ raw := by
  refine h.not_mem quote List.mem_cons_self ?_
  rcases hq with rfl | rfl <;> decide

end Escaped

/-! ### A rendering of every tree -/

theorem escapeChar_cases (c : Char) :
    (∃ name, (c, name) ∈ namedCharacters ∧ escapeChar c = '&' :: (name.toList ++ [';'])) ∨
      ((∀ name, (c, name) ∉ namedCharacters) ∧ escapeChar c = [c]) := by
  rw [escapeChar]
  cases hf : namedCharacters.find? fun entry => entry.1 == c with
  | some entry =>
    obtain ⟨c', name⟩ := entry
    have hc : c' = c := by simpa using List.find?_some hf
    subst hc
    exact .inl ⟨name, List.mem_of_find?_eq_some hf, rfl⟩
  | none =>
    refine .inr ⟨fun name hmem => ?_, rfl⟩
    have hnot := List.find?_eq_none.mp hf (c, name) hmem
    simp at hnot

theorem escaped_escape (avoid text : List Char)
    (h : ∀ c ∈ avoid, ∃ name, (c, name) ∈ namedCharacters) :
    Escaped avoid (text.flatMap escapeChar) text := by
  induction text with
  | nil => exact .nil
  | cons c text ih =>
    rw [List.flatMap_cons]
    rcases escapeChar_cases c with ⟨name, hmem, he⟩ | ⟨hnot, he⟩
    · have hstep := Escaped.reference name.toList c _ _ (.named c name hmem) ih
      rw [he]
      simpa using hstep
    · rw [he]
      refine .plain c _ _ ⟨?_, fun hc => ?_⟩ ih
      · rintro rfl
        exact hnot "amp" (by decide)
      · obtain ⟨name, hmem⟩ := h c hc
        exact hnot name hmem

/-- A text without marks is written as it is. -/
theorem escaped_self (avoid text : List Char) (h : ∀ c ∈ text, c ≠ '&' ∧ c ∉ avoid) :
    Escaped avoid text text := by
  induction text with
  | nil => exact .nil
  | cons c text ih =>
    exact .plain c _ _ (h c List.mem_cons_self) (ih fun c' hc' => h c' (List.mem_cons_of_mem c hc'))

theorem exists_attributes (attributes : List (String × String)) :
    ∃ raw, Attributes attributes [] raw := by
  induction attributes with
  | nil => exact ⟨[], .done [] (by simp [Spaces])⟩
  | cons a attributes ih =>
    obtain ⟨name, value⟩ := a
    obtain ⟨rest, hrest⟩ := ih
    have hvalue : Escaped ['"'] (value.toList.flatMap escapeChar) value.toList :=
      escaped_escape _ _ (by simp [namedCharacters])
    have hspace : Spaces [' '] := by simp [Spaces, spaces]
    have hequals : Equals ['='] := .mk [] [] (by simp [Spaces]) (by simp [Spaces])
    have ha := Attributes.named [' '] name name.toList ['='] '"' _ value.toList attributes [] rest
      (by simp) hspace .bare hequals (.inl rfl) hvalue hrest
    rw [String.ofList_toList] at ha
    exact ⟨_, ha⟩

theorem exists_content (children : List Element) (text : List Char)
    (h : ∀ c ∈ children, ∃ raw, Renders c raw) : ∃ inner, Content children text inner := by
  induction children with
  | nil =>
    have hescaped : Escaped ['<'] (text.flatMap escapeChar) text :=
      escaped_escape _ _ (by simp [namedCharacters])
    have hc := Content.text _ _ _ _ _ hescaped .nil
    rw [List.append_nil] at hc
    exact ⟨_, hc⟩
  | cons child children ih =>
    obtain ⟨raw, hraw⟩ := h child List.mem_cons_self
    obtain ⟨inner, hinner⟩ := ih fun c hc => h c (List.mem_cons_of_mem _ hc)
    exact ⟨_, .child child raw children text inner hraw hinner⟩

end Rendering

theorem Element.WellNamed.exists_rendering {e : Element} (h : e.WellNamed) :
    ∃ raw, Renders e raw := by
  induction h with
  | mk name attributes children text hn ha hd hc ih =>
    obtain ⟨rest, hrest⟩ := exists_attributes attributes
    obtain ⟨inner, hinner⟩ := exists_content children text.toList ih
    have ht : Tag name attributes name.toList (name.toList ++ rest) :=
      .mk name.toList [] rest .bare (by simp) hrest
    have hr := Renders.enclosing name attributes children _ _ _ inner [] ht hinner
      (by simp [Spaces])
    rw [String.ofList_toList] at hr
    exact ⟨_, hr⟩

end OlapClient.Markup
