import OlapClient.Proofs.CellSet.Elements
import OlapClient.Proofs.Coordinate.Saturation

/-!
# Cells in their places

An open cell set is read by ordinal, by coordinates or as a whole. The three agree: the cell at the
coordinates `c` is the one whose ordinal is the weighted sum of `c`, and it holds what the last cell
element of that ordinal says. Main statement: `cells_in_place`.
-/

namespace OlapClient

open Markup Coordinate

/-- What a cell holds: nothing, or what the element says that was sent for it. -/
def Cell.Shows (c : Cell) : Option Element → Prop
  | none => c.value = .null ∧ c.formatted = none ∧ c.properties = {}
  | some e => Dataset.DescribesCell e ⟨c.value, c.formatted, c.properties⟩

namespace CellSet

/-! ### Access -/

theorem digits_weigh (lengths : List Nat) (total : Nat)
    (h : Coordinate.cellCount lengths = .ok total) (coordinates : List Nat)
    (hr : InRange coordinates lengths) :
    weigh lengths coordinates < total ∧
      digits (weigh lengths coordinates) lengths = coordinates := by
  obtain ⟨hprod, -⟩ := cellCount_eq_prod lengths total h
  obtain ⟨ordinal, ho, rfl⟩ := hr.exists_digits
  rw [weigh_digits ordinal lengths ho]
  exact ⟨by omega, rfl⟩

section Access

variable (s : CellSet) (hs : s.isClosed = false) (total : Nat)
  (h : Coordinate.cellCount s.lengths = .ok total)
include hs

theorem checkOpen_of_open : s.checkOpen = .ok () := by
  rw [checkOpen, hs]
  rfl

theorem cell_eq (ordinal : Nat) : s.cell ordinal =
    ((ofOrdinal s.lengths ordinal).mapError .coordinate).map (s.cellOf ordinal) := by
  rw [cell, checkOpen_of_open s hs]
  cases ofOrdinal s.lengths ordinal <;> rfl

theorem cellAt_eq (coordinates : List Nat) : s.cellAt coordinates =
    ((toOrdinal s.lengths coordinates).mapError .coordinate).map fun ordinal =>
      s.cellOf ordinal coordinates := by
  rw [cellAt, checkOpen_of_open s hs]
  cases toOrdinal s.lengths coordinates <;> rfl

include h

theorem cell_of_lt (ordinal : Nat) (ho : ordinal < total) :
    s.cell ordinal = .ok (s.cellOf ordinal (digits ordinal s.lengths)) := by
  rw [cell_eq s hs, ofOrdinal_of_lt s.lengths total h ordinal ho]
  rfl

theorem cell_of_ge (ordinal : Nat) (ho : total ≤ ordinal) :
    s.cell ordinal = .error (.coordinate (.ordinalOutOfRange ordinal total)) := by
  rw [cell_eq s hs, ofOrdinal_of_ge s.lengths total h ordinal ho]
  rfl

theorem cellAt_inRange (coordinates : List Nat) (hr : InRange coordinates s.lengths) :
    s.cellAt coordinates = .ok (s.cellOf (weigh s.lengths coordinates) coordinates) := by
  rw [cellAt_eq s hs, toOrdinal_eq_weigh s.lengths total h coordinates hr]
  rfl

theorem allCells_eq : s.allCells =
    .ok ((List.range total).map fun ordinal => s.cellOf ordinal (digits ordinal s.lengths)) := by
  obtain ⟨hprod, -⟩ := cellCount_eq_prod s.lengths total h
  have hcount : s.cellCount = total := by
    rw [hprod]
    rfl
  rw [allCells, checkOpen_of_open s hs, hcount, ← List.filterMap_eq_map]
  refine congrArg Except.ok (List.filterMap_congr fun ordinal ho => ?_)
  rw [ofOrdinal_of_lt s.lengths total h ordinal (List.mem_range.mp ho)]
  rfl

end Access

theorem cellAt_outside (s : CellSet) (hs : s.isClosed = false) (coordinates : List Nat)
    (hr : ¬ InRange coordinates s.lengths) :
    ∃ cause, s.cellAt coordinates = .error (.coordinate cause) := by
  rw [cellAt_eq s hs, toOrdinal]
  by_cases hl : coordinates.length = s.lengths.length
  · obtain ⟨axis, coordinate, length, he, -⟩ :=
      weightedSum_outOfRange 0 1 0 coordinates s.lengths hl hr
    rw [if_pos hl, he]
    exact ⟨_, rfl⟩
  · rw [if_neg hl]
    exact ⟨_, rfl⟩

/-! ### Contents -/

/-- A cell holds what the last element of its ordinal says. -/
theorem cellOf_shows (s : CellSet) (root : Element) (h : Dataset.cellsOf root = .ok s.cells)
    (ordinal : Nat) (coordinates : List Nat) (last : Option Element)
    (hlast : LastOf (Dataset.HasOrdinal · ordinal) (Dataset.cellElements root) last) :
    (s.cellOf ordinal coordinates).Shows last := by
  obtain ⟨entries, hentries, hcells⟩ := (Dataset.cellsOf_eq_ok_iff root s.cells).mp h
  obtain ⟨lastEntry, hlastEntry⟩ := exists_lastOf (fun entry => entry.1 = ordinal) entries
  have hsame : ∀ e entry, Dataset.cellEntry e = .ok entry →
      (Dataset.HasOrdinal e ordinal ↔ entry.1 = ordinal) := by
    intro e entry he
    have ho := (Dataset.describesCell_of_entry e entry he).1
    exact ⟨fun h => ho.eq h, fun h => h ▸ ho⟩
  have hrel := LastOf.rel hentries hsame hlast hlastEntry
  have hfind : s.cells.find? ordinal = lastEntry.map (·.2) := by
    rw [hcells, Dictionary.find?_ofList hlastEntry]
  cases hrel with
  | none => simp [Cell.Shows, cellOf, hfind]
  | some he =>
    simp only [Cell.Shows, cellOf, hfind]
    exact (Dataset.describesCell_of_entry _ _ he).2

/-- Every ordinal that an element states is a key. -/
theorem hasOrdinal_mem_keys (s : CellSet) (root : Element)
    (h : Dataset.cellsOf root = .ok s.cells) (e : Element) (he : e ∈ Dataset.cellElements root) :
    ∃ ordinal ∈ s.cells.keys, Dataset.HasOrdinal e ordinal := by
  obtain ⟨entries, hentries, hcells⟩ := (Dataset.cellsOf_eq_ok_iff root s.cells).mp h
  obtain ⟨entry, hmem, hentry⟩ := exists_of_forall₂ hentries e he
  refine ⟨entry.1, ?_, (Dataset.describesCell_of_entry e entry hentry).1⟩
  rw [hcells, Dictionary.mem_keys_ofList]
  exact ⟨entry, hmem, rfl⟩

theorem opened (root : Element) (s : CellSet) (h : ofRoot root = .ok s) :
    s.isClosed = false ∧ Dataset.cellsOf root = .ok s.cells ∧
    ∃ total, Coordinate.cellCount s.lengths = .ok total ∧
      ∀ ordinal ∈ s.cells.keys, ordinal < total := by
  obtain ⟨axes, cells, -, -, hcells, -, -, hmake, -⟩ := (ofRoot_eq_ok_iff root s).mp h
  obtain ⟨total, hcount, hinside, hs⟩ := (make_eq_ok_iff _ _ _ _ _).mp hmake
  have hsame : s.cells = cells := by rw [hs]
  have hopen : s.isClosed = false := by rw [hs]
  rw [hsame]
  exact ⟨hopen, hcells, total, hcount, hinside⟩

/-- No cell of a result is lost or misplaced, whichever way it is read. -/
theorem cells_in_place (root : Element) (result : CellSet) (h : ofRoot root = .ok result)
    (statistics : Statistics) :
    let s := { result with statistics := statistics }
    let total := s.lengths.prod
    (∃ cells, s.allCells = .ok cells ∧ cells.map Cell.ordinal = List.range total) ∧
    (∀ ordinal < total, ∃ c cells, s.cell ordinal = .ok c ∧ c.ordinal = ordinal ∧
      s.allCells = .ok cells ∧ cells[ordinal]? = some c ∧ s.cellAt c.coordinates = .ok c) ∧
    (∀ coordinates, InRange coordinates s.lengths → ∃ c, s.cellAt coordinates = .ok c ∧
      c.ordinal = weigh s.lengths coordinates ∧ c.coordinates = coordinates ∧
      s.cell (weigh s.lengths coordinates) = .ok c) ∧
    (∀ ordinal c, s.cell ordinal = .ok c → ∃ last,
      LastOf (Dataset.HasOrdinal · ordinal) (Dataset.cellElements root) last ∧ c.Shows last) ∧
    (∀ e ∈ Dataset.cellElements root, ∃ ordinal < total, Dataset.HasOrdinal e ordinal) ∧
    (∀ ordinal ≥ total, ∃ cause, s.cell ordinal = .error (.coordinate cause)) ∧
    ∀ coordinates, ¬ InRange coordinates s.lengths →
      ∃ cause, s.cellAt coordinates = .error (.coordinate cause) := by
  intro s total
  obtain ⟨hs, hcells, count, hcount, hinside⟩ := opened root result h
  obtain ⟨hprod, -⟩ := cellCount_eq_prod s.lengths count hcount
  have htotal : total = count := hprod.symm
  have hall := allCells_eq s hs count hcount
  have hcell := cell_of_lt s hs count hcount
  rw [htotal]
  refine ⟨⟨_, hall, ?_⟩, ?_, ?_, ?_, ?_, ?_, cellAt_outside s hs⟩
  · rw [List.map_map]
    exact List.map_id _
  · intro ordinal ho
    -- the coordinates of the cell are the digits of its ordinal, and they weigh as much again
    have hr : InRange (digits ordinal s.lengths) s.lengths :=
      digits_inRange ordinal s.lengths (by omega)
    refine ⟨_, _, hcell ordinal ho, rfl, hall, ?_, ?_⟩
    · rw [List.getElem?_map, List.getElem?_range ho]
      rfl
    · show s.cellAt (digits ordinal s.lengths) = _
      rw [cellAt_inRange s hs count hcount _ hr, weigh_digits ordinal s.lengths (by omega)]
  · intro coordinates hr
    obtain ⟨ho, hdigits⟩ := digits_weigh s.lengths count hcount coordinates hr
    refine ⟨_, cellAt_inRange s hs count hcount coordinates hr, rfl, rfl, ?_⟩
    rw [hcell _ ho, hdigits]
  · intro ordinal c hc
    obtain ⟨last, hlast⟩ := exists_lastOf (Dataset.HasOrdinal · ordinal) (Dataset.cellElements root)
    refine ⟨last, hlast, ?_⟩
    rcases Nat.lt_or_ge ordinal count with ho | ho
    · rw [hcell ordinal ho] at hc
      exact Except.ok.inj hc ▸ cellOf_shows s root hcells ordinal _ last hlast
    · rw [cell_of_ge s hs count hcount ordinal ho] at hc
      cases hc
  · intro e he
    obtain ⟨ordinal, hkey, ho⟩ := hasOrdinal_mem_keys result root hcells e he
    exact ⟨ordinal, hinside ordinal hkey, ho⟩
  · intro ordinal ho
    exact ⟨_, cell_of_ge s hs count hcount ordinal ho⟩

/-- Of two elements for one cell the later one counts; next to the last position there is none. -/
theorem crossing_in_place : ∃ s, ofRoot Dataset.crossing = .ok s ∧
    (∃ c, s.cellAt [1, 0] = .ok c ∧ c.ordinal = 1 ∧
      c.Shows (some (Dataset.cellFor "+1" "xsd:int" "-7"))) ∧
    ∃ cause, s.cellAt [2, 0] = .error (.coordinate cause) := by
  have hread : (ofRoot Dataset.crossing).toOption.map lengths = some [2, 2] := by decide +kernel
  obtain ⟨s, hs, hlengths⟩ := Option.map_eq_some_iff.mp hread
  obtain ⟨-, -, hat, hcontents, -, -, houtside⟩ :=
    cells_in_place Dataset.crossing s (toOption_eq_some.mp hs) s.statistics
  obtain ⟨c, hc, hordinal, -, hcell⟩ :=
    hat [1, 0] (hlengths ▸ .cons (by decide) (.cons (by decide) .nil))
  have hweigh : weigh s.lengths [1, 0] = 1 := by
    rw [hlengths]
    rfl
  obtain ⟨last, hlast, hshows⟩ := hcontents _ c hcell
  have hrepeated : LastOf (Dataset.HasOrdinal · 1) (Dataset.cellElements Dataset.crossing)
      (some (Dataset.cellFor "+1" "xsd:int" "-7")) :=
    ⟨[Dataset.cellFor "1" "xsd:int" "5", Dataset.cellFor " 3 " "xsd:boolean" "true"], [], rfl,
      (Dataset.hasOrdinal_iff _ 1).mpr rfl, by simp⟩
  have hsame := hrepeated.unique (hweigh ▸ hlast)
  refine ⟨s, toOption_eq_some.mp hs, ⟨c, hc, hordinal.trans hweigh, hsame ▸ hshows⟩, ?_⟩
  refine houtside [2, 0] fun hr => ?_
  have hlt := hlengths ▸ hr
  cases hlt with
  | cons h _ => omega

end CellSet

end OlapClient
