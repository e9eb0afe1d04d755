import OlapClient.Proofs.CellSet.Axes
import OlapClient.Proofs.CellSet.Cells

/-!
# Which results are cell sets

A result is accepted exactly if it is well-formed: its axes are named and numbered from zero without
a gap, its members are named and its numbers are numbers, every cell has an ordinal below the number
of cells, and that number can be counted in 64 bits. The cell set then has the structure that the
result describes. Main statement: `accepts_wellFormed`.
-/

namespace OlapClient

open Markup

namespace Dataset

/-- A value that the declared type allows. -/
structure ValidValue (e : Element) : Prop where
  integer : e.attribute? "nil" ≠ some "true" → ∀ type ∈ integerTypes, Declares e type →
    ∃ z, IsLong e.text z
  double : e.attribute? "nil" ≠ some "true" → ∀ type ∈ doubleTypes, Declares e type →
    Text.IsDouble (Text.trim e.text).toList
  boolean : e.attribute? "nil" ≠ some "true" → Declares e "boolean" →
    Text.trim e.text ∈ ["true", "1", "false", "0"]

theorem validValue_of_hasValue (e : Element) (value : CellValue) (h : HasValue e value) :
    ValidValue e := by
  cases h with
  | null h => exact ⟨fun hn => absurd h hn, fun hn => absurd h hn, fun hn => absurd h hn⟩
  | integer type z _ ht hi h hz =>
    refine ⟨fun _ _ _ _ => ⟨z, h, hz⟩, fun _ other hother hd => ?_, fun _ hd => ?_⟩
    · cases hd.eq ht
      exact absurd hi (not_integer_of_double _ hother)
    · cases hd.eq ht
      exact absurd hi boolean_not_number.1
  | double type x _ ht hdouble h =>
    refine ⟨fun _ other hother hd => ?_, fun _ _ _ _ => ?_, fun _ hd => ?_⟩
    · cases hd.eq ht
      exact absurd hother (not_integer_of_double _ hdouble)
    · exact (schemaDouble?_isSome_iff _).mp (Option.isSome_iff_exists.mpr ⟨x, h⟩)
    · cases hd.eq ht
      exact absurd hdouble boolean_not_number.2
  | boolean b _ ht h =>
    refine ⟨fun _ other hother hd => ?_, fun _ other hother hd => ?_, fun _ _ => ?_⟩
    · cases hd.eq ht
      exact absurd hother boolean_not_number.1
    · cases hd.eq ht
      exact absurd hother boolean_not_number.2
    · cases b <;> simp at h ⊢ <;> grind
  | text _ ht =>
    exact ⟨fun _ type hi hd => absurd hi (ht type hd).1,
      fun _ type hi hd => absurd hi (ht type hd).2.1, fun _ hd => absurd rfl (ht _ hd).2.2⟩

theorem exists_hasValue (e : Element) (h : ValidValue e) : ∃ value, HasValue e value := by
  by_cases hn : e.attribute? "nil" = some "true"
  · exact ⟨.null, .null hn⟩
  by_cases hi : ∃ type ∈ integerTypes, Declares e type
  · obtain ⟨type, hi, hd⟩ := hi
    obtain ⟨z, hz, hrange⟩ := h.integer hn type hi hd
    exact ⟨.integer z, .integer type z hn hd hi hz hrange⟩
  by_cases hdouble : ∃ type ∈ doubleTypes, Declares e type
  · obtain ⟨type, hdouble, hd⟩ := hdouble
    have hx := (schemaDouble?_isSome_iff _).mpr (h.double hn type hdouble hd)
    obtain ⟨x, hx⟩ := Option.isSome_iff_exists.mp hx
    exact ⟨.double x, .double type x hn hd hdouble hx⟩
  by_cases hb : Declares e "boolean"
  · have hmem := h.boolean hn hb
    simp only [List.mem_cons, List.not_mem_nil, or_false] at hmem
    rcases hmem with hm | hm | hm | hm
    · exact ⟨_, .boolean true hn hb (by simp [hm])⟩
    · exact ⟨_, .boolean true hn hb (by simp [hm])⟩
    · exact ⟨_, .boolean false hn hb (by simp [hm])⟩
    · exact ⟨_, .boolean false hn hb (by simp [hm])⟩
  refine ⟨.text e.text, .text hn fun type hd =>
    ⟨fun h => hi ⟨type, h, hd⟩, fun h => hdouble ⟨type, h, hd⟩, ?_⟩⟩
  rintro rfl
  exact hb hd

theorem cellEntry_isOk_iff (e : Element) :
    (∃ entry, cellEntry e = .ok entry) ↔ (∃ ordinal, HasOrdinal e ordinal) ∧
      ∀ child, e.child? "Value" = some child → ValidValue child := by
  simp only [cellEntry_eq_ok_iff]
  constructor
  · rintro ⟨⟨ordinal, data⟩, ho, hvalue, -⟩
    refine ⟨⟨ordinal, ho⟩, fun child hchild => ?_⟩
    rw [StatesValue, hchild] at hvalue
    exact validValue_of_hasValue child _ hvalue
  · rintro ⟨⟨ordinal, ho⟩, hvalid⟩
    have hvalue : ∃ value, StatesValue e value := by
      unfold StatesValue
      cases hchild : e.child? "Value" with
      | none => exact ⟨.null, rfl⟩
      | some child => exact exists_hasValue child (hvalid child hchild)
    obtain ⟨value, hvalue⟩ := hvalue
    exact ⟨(ordinal, ⟨value, _, _⟩), ho, hvalue, rfl, rfl⟩

/-- The number of positions on each axis that a result describes, columns first. -/
def HasLengths (root : Element) (lengths : List Nat) : Prop :=
  ∀ n < lengths.length, ∃ axis, LastOf (IsAxis · (.index n)) (axisElements root) axis ∧
    lengths[n]? = some ((axis.map tuples).getD []).length

structure WellFormed (root : Element) (lengths : List Nat) : Prop where
  named : ∀ e ∈ infoElements root ++ axisElements root, ∃ a, IsAxis e a
  contiguous : ∀ n, Occurs root (.index n) ↔ n < lengths.length
  uncrossed : ∀ e ∈ axisElements root, e.child? "CrossProduct" = none
  members : ∀ e ∈ axisElements root, ∀ tuple ∈ tuples e, ∀ m ∈ tuple.childrenNamed "Member",
    ValidMember m
  sized : HasLengths root lengths
  countable : ∀ k, (lengths.take k).prod < 2 ^ 64
  ordinals : ∀ e ∈ cellElements root, ∃ ordinal < lengths.prod, HasOrdinal e ordinal
  values : ∀ e ∈ cellElements root, ∀ value, e.child? "Value" = some value → ValidValue value

end Dataset

namespace CellSet

open Dataset

/-- Each axis has the hierarchies and the positions that the last elements of its name give. -/
structure Structured (root : Element) (s : CellSet) : Prop where
  axes : ∀ n x, s.axes[n]? = some x → ∃ info axis,
    LastOf (IsAxis · (.index n)) (infoElements root) info ∧
    LastOf (IsAxis · (.index n)) (axisElements root) axis ∧
    Joins (.index n) info axis x
  filter : ∃ info axis,
    LastOf (IsAxis · .filter) (infoElements root) info ∧
    LastOf (IsAxis · .filter) (axisElements root) axis ∧
    Joins .filter info axis s.filter

theorem wellFormed_of_ofRoot (root : Element) (s : CellSet) (h : ofRoot root = .ok s) :
    WellFormed root s.lengths ∧ Structured root s := by
  obtain ⟨axes, cells, haxes, hcheck, hcells, hnumbered, hfilter, hmake, -⟩ :=
    (ofRoot_eq_ok_iff root s).mp h
  have hcollects := axesOf_eq_ok root axes haxes
  obtain ⟨hinfos, hes⟩ := (axesOf_isOk_iff root).mp ⟨axes, haxes⟩
  have hpositions := fun e he => (positions_isOk_iff e).mp (hes e he).2
  have hordinals : (numbered axes).map Axis.ordinal = (List.range s.lengths.length).map .index := by
    have hrange := (checkContiguous_eq_ok_iff 0 s.axes).mp hcheck
    rw [← List.range_eq_range', hnumbered] at hrange
    rw [lengths, List.length_map, hnumbered]
    exact hrange
  -- the numbers are contiguous, so an axis stands at the place of its number
  have hjoins : ∀ n x, s.axes[n]? = some x → _ := fun n x hx =>
    hcollects.numbered_get hordinals (hnumbered ▸ hx)
  obtain ⟨hopen, hstored, total, hcount, hinside⟩ := opened root s h
  obtain ⟨rfl, hfits⟩ := (Coordinate.cellCount_eq_ok_iff s.lengths total).mp hcount
  refine ⟨⟨?_, (hcollects.contiguous_iff _).mp hordinals, fun e he => (hpositions e he).1,
    fun e he => (hpositions e he).2, ?_, fun k => Nat.lt_succ_iff.mpr (hfits k), ?_, ?_⟩,
    hjoins, ?_⟩
  · intro e he
    rcases List.mem_append.mp he with he | he
    · exact hinfos e he
    · exact (hes e he).1
  · intro n hn
    rw [lengths, List.length_map] at hn
    obtain ⟨info, axis, -, haxis, hx⟩ := hjoins n s.axes[n] (List.getElem?_eq_getElem hn)
    refine ⟨axis, haxis, ?_⟩
    rw [lengths, List.getElem?_map, List.getElem?_eq_getElem hn, Option.map_some, hx.size]
  · intro e he
    obtain ⟨ordinal, hkey, ho⟩ := hasOrdinal_mem_keys s root hstored e he
    exact ⟨ordinal, hinside ordinal hkey, ho⟩
  · intro e he
    obtain ⟨entries, hentries, -⟩ := (cellsOf_eq_ok_iff root s.cells).mp hstored
    obtain ⟨entry, -, hentry⟩ := exists_of_forall₂ hentries e he
    exact ((cellEntry_isOk_iff e).mp ⟨entry, hentry⟩).2
  · obtain ⟨info, hinfo⟩ := exists_lastOf (IsAxis · .filter) (infoElements root)
    obtain ⟨axis, haxis⟩ := exists_lastOf (IsAxis · .filter) (axisElements root)
    refine ⟨info, axis, hinfo, haxis, ?_⟩
    rw [hfilter]
    exact (hcollects.found .filter info axis hinfo haxis).getD

theorem ofRoot_of_wellFormed (root : Element) (lengths : List Nat) (h : WellFormed root lengths) :
    ∃ s, ofRoot root = .ok s := by
  obtain ⟨axes, haxes⟩ := (axesOf_isOk_iff root).mpr
    ⟨fun e he => h.named e (List.mem_append_left _ he), fun e he =>
      ⟨h.named e (List.mem_append_right _ he),
        (positions_isOk_iff e).mpr ⟨h.uncrossed e he, h.members e he⟩⟩⟩
  have hcollects := axesOf_eq_ok root axes haxes
  have hordinals := (hcollects.contiguous_iff lengths.length).mpr h.contiguous
  have hlength : (numbered axes).length = lengths.length := by
    simpa using congrArg List.length hordinals
  -- an axis has the positions of the last element of its name, which are those that are counted
  have hsizes : (numbered axes).map Axis.size = lengths := by
    refine List.ext_getElem? fun n => ?_
    rcases Nat.lt_or_ge n lengths.length with hn | hn
    · have hn' : n < (numbered axes).length := by omega
      obtain ⟨info, axis, -, haxis, hx⟩ :=
        hcollects.numbered_get hordinals (List.getElem?_eq_getElem hn')
      obtain ⟨axis', haxis', hsize⟩ := h.sized n hn
      rw [hsize, List.getElem?_map, List.getElem?_eq_getElem hn', Option.map_some, hx.size,
        haxis.unique haxis']
    · rw [List.getElem?_eq_none hn, List.getElem?_eq_none]
      rw [List.length_map]
      omega
  obtain ⟨entries, hentries⟩ := exists_forall₂ fun e he => (cellEntry_isOk_iff e).mpr
    ⟨(h.ordinals e he).imp fun _ ho => ho.2, h.values e he⟩
  have hinside : ∀ ordinal ∈ (Dictionary.ofList entries).keys, ordinal < lengths.prod := by
    intro ordinal hkey
    obtain ⟨entry, hmem, rfl⟩ := (Dictionary.mem_keys_ofList entries ordinal).mp hkey
    obtain ⟨e, he, hentry⟩ := exists_of_forall₂ hentries.flip entry hmem
    obtain ⟨ordinal, hlt, ho⟩ := h.ordinals e he
    rwa [(describesCell_of_entry e entry hentry).1.eq ho]
  have hcheck : checkContiguous 0 (numbered axes) = .ok () := by
    rw [checkContiguous_eq_ok_iff, hordinals, hlength, List.range_eq_range']
  have hcount : Coordinate.cellCount ((numbered axes).map Axis.size) = .ok lengths.prod := by
    rw [hsizes]
    exact (Coordinate.cellCount_eq_ok_iff lengths lengths.prod).mpr
      ⟨rfl, fun k => Nat.lt_succ_iff.mp (h.countable k)⟩
  have hcells := (cellsOf_eq_ok_iff root _).mpr ⟨entries, hentries, rfl⟩
  let s : CellSet :=
    { cube := cubeName? root
      axes := numbered axes
      filter := (axes.find? .filter).getD { ordinal := .filter }
      cells := .ofList entries }
  have hmake : make s.cube s.axes s.filter s.cells = .ok s :=
    (make_eq_ok_iff _ _ _ _ s).mpr ⟨lengths.prod, hcount, hinside, rfl⟩
  exact ⟨s, (ofRoot_eq_ok_iff root s).mpr
    ⟨axes, s.cells, haxes, hcheck, hcells, rfl, rfl, hmake, rfl⟩⟩

end CellSet

end OlapClient
