import OlapClient.Proofs.CellSet.Positions

/-!
# Axes, from two descriptions of each

An axis takes its hierarchies from the last element that names them and its positions from the last
element that lists them; either may be missing. The numbered axes stand in ascending order, so that
they are contiguous exactly if the numbers that occur are those below some number.
-/

namespace OlapClient

open Markup

/-! ### The order of axes -/

namespace AxisOrdinal

theorem compare_index (m n : Nat) : compare (index m) (index n) = compare m n := by
  show (if decide (m < n) then Ordering.lt else if decide (n < m) then .gt else .eq) = _
  rw [Nat.compare_eq_ite_lt]
  simp only [decide_eq_true_eq]

end AxisOrdinal

instance : Std.LawfulEqOrd AxisOrdinal where
  compare_self {a} := by
    cases a with
    | filter => rfl
    | index n => rw [AxisOrdinal.compare_index, Std.compare_self]
  eq_of_compare {a b} h := by
    cases a <;> cases b
    · rfl
    · cases h
    · cases h
    · rw [AxisOrdinal.compare_index, Std.compare_eq_iff_eq] at h
      rw [h]

instance : Std.TransOrd AxisOrdinal where
  eq_swap {a b} := by
    cases a <;> cases b
    · rfl
    · rfl
    · rfl
    · rw [AxisOrdinal.compare_index, AxisOrdinal.compare_index]
      exact Std.OrientedCmp.eq_swap
  isLE_trans {a b c} hab hbc := by
    cases a with
    | filter => cases c <;> rfl
    | index m =>
      cases b with
      | filter => cases hab
      | index n =>
        cases c with
        | filter => cases hbc
        | index k =>
          rw [AxisOrdinal.compare_index] at hab hbc ⊢
          exact Std.TransCmp.isLE_trans hab hbc

namespace Dataset

/-! ### Names -/

/-- The name of an element says which axis it describes. -/
inductive IsAxis (e : Element) : AxisOrdinal → Prop where
  | slicer (h : e.attribute? "name" = some "SlicerAxis") : IsAxis e .filter
  | numbered (name : String) (digits : List Char) (n : Nat) (h : e.attribute? "name" = some name)
      (hname : name.toList = "Axis".toList ++ digits) (hd : Text.IsUnsigned digits n)
      (hn : n < 2 ^ 64) : IsAxis e (.index n)

theorem axisNumber?_eq_some_iff (name : String) (n : Nat) :
    axisNumber? name = some n ↔
      ∃ digits, name.toList = "Axis".toList ++ digits ∧ Text.IsUnsigned digits n ∧ n < 2 ^ 64 := by
  have haxis : "Axis".toList = ['A', 'x', 'i', 's'] := by decide
  rw [haxis]
  unfold axisNumber?
  split
  · rename_i digits hname
    rw [Text.count?_eq_some_iff, hname, String.toList_ofList]
    constructor
    · exact fun h => ⟨digits, rfl, h⟩
    · rintro ⟨digits', hsame, h⟩
      cases hsame
      exact h
  · rename_i hno
    constructor
    · intro h
      cases h
    · rintro ⟨digits, hname, -⟩
      exact absurd hname (hno digits)

theorem isAxis_iff (e : Element) (a : AxisOrdinal) (name : String)
    (hname : e.attribute? "name" = some name) :
    IsAxis e a ↔ (a = .filter ∧ name = "SlicerAxis") ∨
      ∃ n, a = .index n ∧ axisNumber? name = some n := by
  constructor
  · intro h
    cases h with
    | slicer h => exact .inl ⟨rfl, Option.some.inj (hname.symm.trans h)⟩
    | numbered other digits n h hother hd hn =>
      have hsame : name = other := Option.some.inj (hname.symm.trans h)
      refine .inr ⟨n, rfl, (axisNumber?_eq_some_iff name n).mpr ⟨digits, ?_, hd, hn⟩⟩
      rw [hsame, hother]
  · rintro (⟨rfl, rfl⟩ | ⟨n, rfl, h⟩)
    · exact .slicer hname
    · obtain ⟨digits, hdigits, hd, hn⟩ := (axisNumber?_eq_some_iff name n).mp h
      exact .numbered name digits n hname hdigits hd hn

theorem axisOrdinal_eq_ok_iff (e : Element) (a : AxisOrdinal) :
    axisOrdinal e = .ok a ↔ IsAxis e a := by
  have hslicer : axisNumber? "SlicerAxis" = none := by decide
  have hempty : axisNumber? "" = none := by decide
  unfold axisOrdinal
  cases hname : e.attribute? "name" with
  | none =>
    have hno : ¬ IsAxis e a := by
      intro h
      cases h with
      | slicer h => simp [hname] at h
      | numbered _ _ _ h => simp [hname] at h
    simp [hempty, hno, refuse]
  | some name =>
    rw [isAxis_iff e a name hname, Option.getD_some]
    by_cases hs : name = "SlicerAxis"
    · simp [hs, hslicer, eq_comm]
    · rw [if_neg hs]
      cases axisNumber? name with
      | none => simp [hs, refuse]
      | some n => simp [hs, eq_comm]

theorem IsAxis.eq {e : Element} {a b : AxisOrdinal} (ha : IsAxis e a) (hb : IsAxis e b) :
    a = b := by
  rw [← axisOrdinal_eq_ok_iff] at ha hb
  exact Except.ok.inj (ha.symm.trans hb)

/-! ### Both descriptions -/

def infoElements (root : Element) : List Element :=
  childrenAt ["OlapInfo", "AxesInfo"] "AxisInfo" root

def axisElements (root : Element) : List Element := childrenAt ["Axes"] "Axis" root

def hierarchyNames (info : Element) : List String :=
  (info.childrenNamed "HierarchyInfo").filterMap fun h => h.attribute? "name"

/-- An axis has the hierarchies of one element and the positions of another; it is empty in what
is not described. -/
structure Joins (a : AxisOrdinal) (info axis : Option Element) (x : Axis) : Prop where
  ordinal : x.ordinal = a
  hierarchies : x.hierarchies = (info.map hierarchyNames).getD []
  positions : ShowTuples ((axis.map tuples).getD []) x.positions

/-- What is found for an axis that is described at least once, or not at all. -/
def Found (a : AxisOrdinal) (info axis : Option Element) : Option Axis → Prop
  | none => info = none ∧ axis = none
  | some x => (info ≠ none ∨ axis ≠ none) ∧ Joins a info axis x

/-- The axes that some elements describe, in their order. -/
structure Collects (infos es : List Element) (axes : Axes) : Prop where
  ascending : axes.Ascending
  found : ∀ a info axis, LastOf (IsAxis · a) infos info → LastOf (IsAxis · a) es axis →
    Found a info axis (axes.find? a)

theorem Joins.size {a : AxisOrdinal} {info axis : Option Element} {x : Axis}
    (h : Joins a info axis x) : x.size = ((axis.map tuples).getD []).length := by
  have hlength := congrArg List.length h.positions.ordinals
  rwa [List.length_map, List.length_range] at hlength

theorem showTuples_nil : ShowTuples [] [] := ⟨rfl, .nil⟩

theorem addHierarchies_eq_ok_iff (axes axes' : Axes) (info : Element) :
    addHierarchies axes info = .ok axes' ↔ ∃ a, IsAxis info a ∧
      axes' = axes.insert a { ordinal := a, hierarchies := hierarchyNames info } := by
  unfold addHierarchies
  simp only [bind_eq_ok, axisOrdinal_eq_ok_iff]
  refine exists_congr fun a => and_congr_right fun _ => ?_
  constructor
  · intro h
    exact (Except.ok.inj h).symm
  · rintro rfl
    rfl

theorem addPositions_eq_ok_iff (axes axes' : Axes) (e : Element) :
    addPositions axes e = .ok axes' ↔ ∃ a ps, IsAxis e a ∧ positions e = .ok ps ∧
      axes' = axes.insert a { (axes.find? a).getD { ordinal := a } with positions := ps } := by
  unfold addPositions
  simp only [bind_eq_ok, axisOrdinal_eq_ok_iff]
  refine exists_congr fun a => ?_
  constructor
  · rintro ⟨ha, ps, hps, h⟩
    exact ⟨ps, ha, hps, (Except.ok.inj h).symm⟩
  · rintro ⟨ps, ha, hps, rfl⟩
    exact ⟨ha, ps, hps, rfl⟩

theorem collects_empty : Collects [] [] {} where
  ascending := Dictionary.ascending_empty
  found _ _ _ hinfo haxis := ⟨lastOf_nil_iff.mp hinfo, lastOf_nil_iff.mp haxis⟩

theorem Collects.addHierarchies {infos : List Element} {axes axes' : Axes} {info : Element}
    (h : Collects infos [] axes) (hadd : addHierarchies axes info = .ok axes') :
    Collects (infos ++ [info]) [] axes' := by
  obtain ⟨b, hb, rfl⟩ := (addHierarchies_eq_ok_iff axes axes' info).mp hadd
  refine ⟨h.ascending.insert b _, fun a last axis hlast haxis => ?_⟩
  have hnone := lastOf_nil_iff.mp haxis
  by_cases hab : a = b
  · subst hab
    rw [hlast.eq_of_concat hb, hnone, Dictionary.find?_insert_self]
    exact ⟨.inl (Option.some_ne_none info), rfl, rfl, showTuples_nil⟩
  · have hno : ¬ IsAxis info a := fun ha => hab (ha.eq hb)
    rw [Dictionary.find?_insert_of_ne _ _ _ _ hab]
    exact h.found a last axis (hlast.of_concat hno) haxis

theorem Found.getD {a : AxisOrdinal} {info axis : Option Element} {x? : Option Axis}
    (h : Found a info axis x?) : Joins a info axis (x?.getD { ordinal := a }) := by
  cases x? with
  | some x => exact h.2
  | none =>
    obtain ⟨rfl, rfl⟩ := h
    exact ⟨rfl, rfl, showTuples_nil⟩

theorem Collects.addPositions {infos es : List Element} {axes axes' : Axes} {e : Element}
    (h : Collects infos es axes) (hadd : addPositions axes e = .ok axes') :
    Collects infos (es ++ [e]) axes' := by
  obtain ⟨b, ps, hb, hps, rfl⟩ := (addPositions_eq_ok_iff axes axes' e).mp hadd
  refine ⟨h.ascending.insert b _, fun a info last hinfo hlast => ?_⟩
  by_cases hab : a = b
  · subst hab
    obtain ⟨earlier, hearlier⟩ := exists_lastOf (IsAxis · a) es
    have hjoins := (h.found a info earlier hinfo hearlier).getD
    rw [hlast.eq_of_concat hb, Dictionary.find?_insert_self]
    exact ⟨.inr (Option.some_ne_none e), hjoins.ordinal, hjoins.hierarchies,
      showTuples_of_positions e ps hps⟩
  · have hno : ¬ IsAxis e a := fun ha => hab (ha.eq hb)
    rw [Dictionary.find?_insert_of_ne _ _ _ _ hab]
    exact h.found a info last hinfo (hlast.of_concat hno)

theorem axesOf_eq_ok (root : Element) (axes : Axes) (h : axesOf root = .ok axes) :
    Collects (infoElements root) (axisElements root) axes := by
  obtain ⟨described, hdescribed, haxes⟩ := bind_eq_ok.mp h
  have hinfos := foldlM_keeps (fun infos axes => Collects infos [] axes) collects_empty
    (fun _ _ _ _ h hadd => h.addHierarchies hadd) _ _ hdescribed
  exact foldlM_keeps (fun es axes => Collects (infoElements root) es axes) hinfos
    (fun _ _ _ _ h hadd => h.addPositions hadd) _ _ haxes

theorem axesOf_isOk_iff (root : Element) :
    (∃ axes, axesOf root = .ok axes) ↔
      (∀ info ∈ infoElements root, ∃ a, IsAxis info a) ∧
      ∀ e ∈ axisElements root, (∃ a, IsAxis e a) ∧ ∃ ps, positions e = .ok ps := by
  have hinfo : ∀ axes info, (∃ axes', addHierarchies axes info = .ok axes') ↔
      ∃ a, IsAxis info a := by
    intro axes info
    simp only [addHierarchies_eq_ok_iff]
    exact ⟨fun ⟨_, a, ha, _⟩ => ⟨a, ha⟩, fun ⟨a, ha⟩ => ⟨_, a, ha, rfl⟩⟩
  have haxis : ∀ axes e, (∃ axes', addPositions axes e = .ok axes') ↔
      (∃ a, IsAxis e a) ∧ ∃ ps, positions e = .ok ps := by
    intro axes e
    simp only [addPositions_eq_ok_iff]
    exact ⟨fun ⟨_, a, ps, ha, hps, _⟩ => ⟨⟨a, ha⟩, ps, hps⟩,
      fun ⟨⟨a, ha⟩, ps, hps⟩ => ⟨_, a, ps, ha, hps, rfl⟩⟩
  unfold axesOf
  simp only [bind_eq_ok]
  constructor
  · rintro ⟨axes, described, hdescribed, h⟩
    exact ⟨(foldlM_isOk_iff hinfo _ _).mp ⟨described, hdescribed⟩,
      (foldlM_isOk_iff haxis _ _).mp ⟨axes, h⟩⟩
  · rintro ⟨hinfos, haxes⟩
    obtain ⟨described, hdescribed⟩ := (foldlM_isOk_iff hinfo {} _).mpr hinfos
    obtain ⟨axes, h⟩ := (foldlM_isOk_iff haxis described _).mpr haxes
    exact ⟨axes, described, hdescribed, h⟩

/-! ### Contiguous numbers -/

def Occurs (root : Element) (a : AxisOrdinal) : Prop :=
  ∃ e ∈ infoElements root ++ axisElements root, IsAxis e a

def numbered (axes : Axes) : List Axis := axes.values.filter fun axis => axis.ordinal ≠ .filter

section Collected

variable {root : Element} {axes : Axes}
  (h : Collects (infoElements root) (axisElements root) axes)
include h

theorem Collects.value {a : AxisOrdinal} {x : Axis} (hx : (a, x) ∈ axes.entries) :
    axes.find? a = some x ∧ x.ordinal = a := by
  obtain ⟨info, hinfo⟩ := exists_lastOf (IsAxis · a) (infoElements root)
  obtain ⟨axis, haxis⟩ := exists_lastOf (IsAxis · a) (axisElements root)
  have hfind := h.ascending.find?_of_mem hx
  have hfound := h.found a info axis hinfo haxis
  rw [hfind] at hfound
  exact ⟨hfind, hfound.2.ordinal⟩

theorem Collects.mem_keys_iff (a : AxisOrdinal) : a ∈ axes.keys ↔ Occurs root a := by
  obtain ⟨info, hinfo⟩ := exists_lastOf (IsAxis · a) (infoElements root)
  obtain ⟨axis, haxis⟩ := exists_lastOf (IsAxis · a) (axisElements root)
  have hfound := h.found a info axis hinfo haxis
  rw [Dictionary.mem_keys_iff]
  cases hfind : axes.find? a with
  | none =>
    rw [hfind] at hfound
    obtain ⟨rfl, rfl⟩ := hfound
    constructor
    · rintro ⟨x, hx⟩
      cases hx
    · rintro ⟨e, he, ha⟩
      rcases List.mem_append.mp he with he | he
      · exact absurd ha (hinfo e he)
      · exact absurd ha (haxis e he)
  | some x =>
    refine ⟨fun _ => ?_, fun _ => ⟨x, rfl⟩⟩
    rw [hfind] at hfound
    rcases hfound.1 with hne | hne
    · obtain ⟨e, rfl⟩ := Option.ne_none_iff_exists'.mp hne
      exact ⟨e, List.mem_append_left _ hinfo.mem.1, hinfo.mem.2⟩
    · obtain ⟨e, rfl⟩ := Option.ne_none_iff_exists'.mp hne
      exact ⟨e, List.mem_append_right _ haxis.mem.1, haxis.mem.2⟩

theorem Collects.numbered_ordinals :
    (numbered axes).map Axis.ordinal = axes.keys.filter (· ≠ .filter) := by
  have hsame : ∀ entry ∈ axes.entries, entry.2.ordinal = entry.1 := fun entry hentry =>
    (h.value hentry).2
  unfold numbered Dictionary.values Dictionary.keys
  rw [List.filter_map, List.filter_map, List.map_map]
  have hfilter : axes.entries.filter
      ((fun axis : Axis => decide (axis.ordinal ≠ .filter)) ∘ (·.2)) =
      axes.entries.filter ((fun a : AxisOrdinal => decide (a ≠ .filter)) ∘ (·.1)) :=
    List.filter_congr fun entry hentry => by simp [hsame entry hentry]
  rw [hfilter]
  exact List.map_congr_left fun entry hentry => hsame entry (List.mem_filter.mp hentry).1

/-- The numbers run from zero exactly if those that occur are those below their count. -/
theorem Collects.contiguous_iff (n : Nat) :
    (numbered axes).map Axis.ordinal = (List.range n).map .index ↔
      ∀ m, Occurs root (.index m) ↔ m < n := by
  rw [h.numbered_ordinals]
  simp only [← h.mem_keys_iff]
  constructor
  · intro heq m
    have hmem : AxisOrdinal.index m ∈ axes.keys.filter (· ≠ .filter) ↔
        AxisOrdinal.index m ∈ (List.range n).map .index := by rw [heq]
    simpa using hmem
  · intro hall
    -- both lists ascend, so that they are equal once they have the same elements
    have hrange : ((List.range n).map AxisOrdinal.index).Pairwise fun a b => compare a b = .lt := by
      refine List.pairwise_map.mpr (List.pairwise_lt_range.imp fun {a b} hab => ?_)
      rw [AxisOrdinal.compare_index, Nat.compare_eq_lt]
      exact hab
    refine Dictionary.eq_of_ascending (h.ascending.keys.filter _) hrange fun a => ?_
    cases a with
    | filter => simp
    | index m => simpa using hall m

/-- Among contiguous axes the one at a place joins the descriptions of that number. -/
theorem Collects.numbered_get {n k : Nat} {x : Axis}
    (hn : (numbered axes).map Axis.ordinal = (List.range n).map .index)
    (hx : (numbered axes)[k]? = some x) :
    ∃ info axis, LastOf (IsAxis · (.index k)) (infoElements root) info ∧
      LastOf (IsAxis · (.index k)) (axisElements root) axis ∧ Joins (.index k) info axis x := by
  have hordinal : x.ordinal = .index k := by
    have hk : ((List.range n).map AxisOrdinal.index)[k]? = some x.ordinal := by
      rw [← hn, List.getElem?_map, hx]
      rfl
    obtain ⟨k', hk', hsame⟩ := Option.map_eq_some_iff.mp (List.getElem?_map ▸ hk)
    obtain ⟨hlt, hget⟩ := List.getElem?_eq_some_iff.mp hk'
    rw [List.getElem_range] at hget
    rw [hget]
    exact hsame.symm
  obtain ⟨entry, hentry, rfl⟩ := List.mem_map.mp (List.mem_filter.mp (List.mem_of_getElem? hx)).1
  obtain ⟨hfind, ha⟩ := h.value hentry
  rw [← ha, hordinal] at hfind
  obtain ⟨info, hinfo⟩ := exists_lastOf (IsAxis · (.index k)) (infoElements root)
  obtain ⟨axis, haxis⟩ := exists_lastOf (IsAxis · (.index k)) (axisElements root)
  have hfound := h.found (.index k) info axis hinfo haxis
  rw [hfind] at hfound
  exact ⟨info, axis, hinfo, haxis, hfound.2⟩

end Collected

theorem checkContiguous_eq_ok_iff (expected : Nat) (axes : List Axis) :
    checkContiguous expected axes = .ok () ↔
      axes.map Axis.ordinal = (List.range' expected axes.length).map .index := by
  induction axes generalizing expected with
  | nil => simp [checkContiguous]
  | cons axis axes ih =>
    rw [checkContiguous, List.map_cons, List.length_cons, List.range'_succ, List.map_cons,
      List.cons.injEq]
    by_cases ha : axis.ordinal = .index expected
    · rw [if_pos ha, ih]
      simp [ha]
    · rw [if_neg ha]
      simp [ha, refuse]

end Dataset

end OlapClient
