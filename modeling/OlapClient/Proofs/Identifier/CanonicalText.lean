import Mathlib.Data.List.Forall2
import OlapClient.Proofs.Identifier.RoundTrip

/-!
# The canonical text of an identifier

The canonical text puts every name in brackets and keeps the segments and the keys as they are. In
brackets every name can be written, so the text is read again, and as an identifier that differs
from the first one in quoting only. Identifiers share a canonical text if they differ in nothing
else.
-/

namespace OlapClient

/-- There is a segment, and every key has parts. -/
def Identifier.IsComplete (i : Identifier) : Prop := i.segments ≠ [] ∧ Segment.key [] ∉ i.segments

/-! ### Differing in quoting only -/

/-- The same name, or a key of the same parts. -/
inductive Segment.SameNames : Segment → Segment → Prop where
  | name (n n' : Name) (h : n.value = n'.value) : SameNames (.name n) (.name n')
  | key (parts parts' : List Name) (h : List.Forall₂ (·.value = ·.value) parts parts') :
      SameNames (.key parts) (.key parts')

def Identifier.SameNames (i i' : Identifier) : Prop :=
  List.Forall₂ Segment.SameNames i.segments i'.segments

theorem map_eq_map_iff_forall₂ {α β : Type} (f : α → β) (as bs : List α) :
    as.map f = bs.map f ↔ List.Forall₂ (fun a b => f a = f b) as bs := by
  rw [← List.forall₂_map_left_iff (R := fun x b => x = f b), ← List.forall₂_map_right_iff,
    List.forall₂_eq_eq_eq]

theorem Name.requote_eq_iff (n n' : Name) : n.requote = n'.requote ↔ n.value = n'.value := by
  simp [requote, quoted]

theorem Segment.requote_eq_iff (segment segment' : Segment) :
    segment.requote = segment'.requote ↔ segment.SameNames segment' := by
  constructor
  · intro h
    rcases segment with n | parts <;> rcases segment' with n' | parts'
    · exact .name n n' ((n.requote_eq_iff n').mp (Segment.name.inj h))
    · cases h
    · cases h
    · have hparts := (map_eq_map_iff_forall₂ Name.requote parts parts').mp (Segment.key.inj h)
      exact .key parts parts' (hparts.imp fun n n' => (n.requote_eq_iff n').mp)
  · rintro (⟨n, n', h⟩ | ⟨parts, parts', h⟩)
    · rw [requote, requote, (n.requote_eq_iff n').mpr h]
    · have hparts := h.imp fun n n' => (n.requote_eq_iff n').mpr
      rw [requote, requote, (map_eq_map_iff_forall₂ Name.requote parts parts').mpr hparts]

namespace Identifier

theorem requote_eq_iff (i i' : Identifier) : i.requote = i'.requote ↔ i.SameNames i' := by
  obtain ⟨segments⟩ := i
  obtain ⟨segments'⟩ := i'
  rw [requote, requote, mk.injEq, map_eq_map_iff_forall₂, SameNames]
  exact ⟨List.Forall₂.imp fun s s' => (s.requote_eq_iff s').mp,
    List.Forall₂.imp fun s s' => (s.requote_eq_iff s').mpr⟩

theorem requote_requote (i : Identifier) : i.requote.requote = i.requote := by
  have hsegment : ∀ segment : Segment, segment.requote.requote = segment.requote := by
    rintro (n | parts)
    · rfl
    · rw [Segment.requote, Segment.requote, List.map_map]
      rfl
  rw [requote, requote, List.map_map]
  exact congrArg mk (List.map_congr_left fun segment _ => hsegment segment)

/-! ### Reading the canonical text -/

theorem requote_writable_iff (segment : Segment) :
    segment.requote.Writable ↔ segment ≠ .key [] := by
  have hname : ∀ n : Name, n.requote.Writable := by
    intro n h
    cases h
  cases segment with
  | name n => simp [Segment.requote, Segment.Writable, hname]
  | key parts => simp [Segment.requote, Segment.Writable, hname]

/-- With every name in brackets an identifier can be written if it is complete. -/
theorem writable_requote_iff (i : Identifier) : i.requote.Writable ↔ i.IsComplete := by
  have hsegments : (∀ segment ∈ i.requote.segments, segment.Writable) ↔
      Segment.key [] ∉ i.segments := by
    simp only [requote, List.forall_mem_map, requote_writable_iff]
    exact ⟨fun h hmem => h _ hmem rfl, fun h segment hmem he => h (he ▸ hmem)⟩
  have hne : i.requote.segments ≠ [] ↔ i.segments ≠ [] := by simp [requote]
  rw [Writable, IsComplete, hsegments, hne]

theorem parse_uniqueName_iff (i : Identifier) :
    Identifier.parse i.uniqueName = .ok i.requote ↔ i.IsComplete := by
  rw [← writable_requote_iff, uniqueName, parse_eq_ok_iff, text, String.toList_ofList]
  exact ⟨Spelling.Reads.writable, Spelling.reads_chars i.requote⟩

/-- The canonical text of every complete identifier is read as that identifier with all names in
brackets, which has the same names in the same segments and keys and the same canonical text; and
two complete identifiers have one canonical text exactly if they differ in quoting only. -/
theorem uniqueName_canonical (i : Identifier) (h : i.IsComplete) :
    Identifier.parse i.uniqueName = .ok i.requote ∧ i.requote.SameNames i ∧
    i.requote.uniqueName = i.uniqueName ∧
    ∀ i' : Identifier, i'.IsComplete → (i.uniqueName = i'.uniqueName ↔ i.SameNames i') := by
  have hparse := (parse_uniqueName_iff i).mpr h
  have hagain : i.requote.uniqueName = i.uniqueName := by
    rw [uniqueName, requote_requote, uniqueName]
  have hsame : i.requote.SameNames i := by
    rw [← requote_eq_iff, requote_requote]
  refine ⟨hparse, hsame, hagain, ?_⟩
  intro i' h'
  constructor
  · intro htext
    have hparse' := (parse_uniqueName_iff i').mpr h'
    rw [← htext, hparse] at hparse'
    exact (requote_eq_iff i i').mp (Except.ok.inj hparse')
  · intro hnames
    rw [uniqueName, uniqueName, (requote_eq_iff i i').mpr hnames]

/-- A name that closes its bracket and goes on, and a key whose parts are a mark and nothing. -/
def misleading : Identifier := ⟨[.name (.unquoted "a].&[b"), .key [.unquoted "&", .quoted ""]]⟩

theorem misleading_canonical :
    Identifier.parse "[a]].&[b].&[&]&[]" =
      .ok ⟨[.name (.quoted "a].&[b"), .key [.quoted "&", .quoted ""]]⟩ ∧
    misleading.uniqueName ≠ (ofNames ["a", "b", "&", ""]).uniqueName := by
  have hcomplete : misleading.IsComplete := ⟨by decide, by decide⟩
  have hplain : (ofNames ["a", "b", "&", ""]).IsComplete := ⟨by decide, by decide⟩
  obtain ⟨hparse, -, -, hiff⟩ := uniqueName_canonical misleading hcomplete
  refine ⟨hparse, fun htext => ?_⟩
  have hnames := (hiff _ hplain).mp htext
  have hlength := hnames.length_eq
  simp [misleading, ofNames] at hlength

end Identifier

end OlapClient
