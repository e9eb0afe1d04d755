import Mathlib.Data.List.Basic
import Mathlib.Data.List.Induction
import Mathlib.Data.List.Sort
import OlapClient.Dictionary
import OlapClient.Proofs.Traversal

/-!
# What a dictionary holds

Inserting changes the value of one key, whatever order the entries are in; so a dictionary of a list
holds for each key the value of its last entry. Entries that ascend keep ascending, and then a key
occurs once. Where no key occurs twice in a list, its dictionary is the list in ascending order,
whatever order the list is in.
-/

namespace OlapClient.Dictionary

variable {κ α : Type} [Ord κ]

/-- Each key is before all that follow. -/
def Ascending (d : Dictionary κ α) : Prop :=
  d.entries.Pairwise fun a b => compare a.1 b.1 = .lt

theorem ascending_empty : Ascending ({} : Dictionary κ α) := .nil

theorem Ascending.keys {d : Dictionary κ α} (h : d.Ascending) :
    d.keys.Pairwise fun a b => compare a b = .lt := List.pairwise_map.mpr h

theorem ofList_concat (entries : List (κ × α)) (entry : κ × α) :
    ofList (entries ++ [entry]) = (ofList entries).insert entry.1 entry.2 := by
  rw [ofList, ofList, List.foldl_concat]

theorem mem_insertEntry (key : κ) (value : α) (entries : List (κ × α)) (entry : κ × α)
    (h : entry ∈ insertEntry key value entries) : entry = (key, value) ∨ entry ∈ entries := by
  induction entries with
  | nil => exact .inl (List.mem_singleton.mp h)
  | cons first entries ih =>
    rw [insertEntry] at h
    cases hc : compare key first.1 with
    | lt =>
      rw [hc] at h
      exact List.mem_cons.mp h
    | eq =>
      rw [hc] at h
      exact (List.mem_cons.mp h).imp_right (List.mem_cons_of_mem _)
    | gt =>
      rw [hc] at h
      rcases List.mem_cons.mp h with rfl | h
      · exact .inr List.mem_cons_self
      · exact (ih h).imp_right (List.mem_cons_of_mem _)

/-! ### Finding -/

theorem find?_cons (entry : κ × α) (entries : List (κ × α)) (key : κ) :
    find? ⟨entry :: entries⟩ key =
      if compare key entry.1 = .eq then some entry.2 else find? ⟨entries⟩ key := by
  rw [find?, find?, List.find?_cons]
  cases compare key entry.1 <;> rfl

variable [Std.LawfulEqOrd κ]

theorem ne_of_compare {a b : κ} (h : compare a b = .lt) : a ≠ b := by
  rintro rfl
  rw [Std.compare_self] at h
  cases h

theorem find?_insertEntry_self (key : κ) (value : α) (entries : List (κ × α)) :
    find? ⟨insertEntry key value entries⟩ key = some value := by
  induction entries with
  | nil => rw [insertEntry, find?_cons, if_pos Std.compare_self]
  | cons entry entries ih =>
    rw [insertEntry]
    cases hc : compare key entry.1 with
    | lt => rw [find?_cons, if_pos Std.compare_self]
    | eq => rw [find?_cons, if_pos Std.compare_self]
    | gt => rw [find?_cons, if_neg (by simp [hc]), ih]

theorem find?_insertEntry_of_ne (key other : κ) (value : α) (entries : List (κ × α))
    (h : other ≠ key) : find? ⟨insertEntry key value entries⟩ other = find? ⟨entries⟩ other := by
  have hne : compare other key ≠ .eq := fun he => h (Std.compare_eq_iff_eq.mp he)
  induction entries with
  | nil => rw [insertEntry, find?_cons, if_neg hne]
  | cons entry entries ih =>
    rw [insertEntry]
    cases hc : compare key entry.1 with
    | lt => rw [find?_cons, if_neg hne]
    | eq =>
      have hkey : key = entry.1 := Std.compare_eq_iff_eq.mp hc
      rw [find?_cons, if_neg hne, find?_cons, ← hkey, if_neg hne]
    | gt => rw [find?_cons, ih, find?_cons]

@[simp] theorem find?_insert_self (d : Dictionary κ α) (key : κ) (value : α) :
    (d.insert key value).find? key = some value := find?_insertEntry_self key value d.entries

theorem find?_insert_of_ne (d : Dictionary κ α) (key other : κ) (value : α) (h : other ≠ key) :
    (d.insert key value).find? other = d.find? other :=
  find?_insertEntry_of_ne key other value d.entries h

/-- The last entry of a key counts. -/
theorem find?_ofList {entries : List (κ × α)} {key : κ} {last : Option (κ × α)}
    (h : LastOf (fun entry => entry.1 = key) entries last) :
    (ofList entries).find? key = last.map (·.2) := by
  -- entries are inserted in order, so that the induction adds the last one
  induction entries using List.reverseRecOn generalizing last with
  | nil =>
    rw [lastOf_nil_iff.mp h]
    rfl
  | append_singleton entries entry ih =>
    rw [ofList_concat]
    by_cases hkey : entry.1 = key
    · rw [h.eq_of_concat hkey, ← hkey, find?_insert_self]
      rfl
    · rw [find?_insert_of_ne _ _ _ _ (Ne.symm hkey), ih (h.of_concat hkey)]

/-! ### Keys -/

theorem find?_eq_some_of_mem {d : Dictionary κ α} {key : κ} {value : α}
    (h : d.find? key = some value) : (key, value) ∈ d.entries := by
  obtain ⟨entry, hfound, rfl⟩ := Option.map_eq_some_iff.mp h
  have hkey : key = entry.1 := by
    have hc := List.find?_some hfound
    exact Std.compare_eq_iff_eq.mp (by simpa using hc)
  rw [hkey]
  exact List.mem_of_find?_eq_some hfound

theorem mem_keys_iff (d : Dictionary κ α) (key : κ) :
    key ∈ d.keys ↔ ∃ value, d.find? key = some value := by
  constructor
  · intro h
    obtain ⟨entry, hmem, rfl⟩ := List.mem_map.mp h
    cases hf : d.find? entry.1 with
    | some value => exact ⟨value, rfl⟩
    | none =>
      have hnone := List.find?_eq_none.mp (Option.map_eq_none_iff.mp hf) entry hmem
      rw [Std.compare_self] at hnone
      exact absurd rfl hnone
  · rintro ⟨value, h⟩
    exact List.mem_map.mpr ⟨_, find?_eq_some_of_mem h, rfl⟩

theorem mem_keys_ofList (entries : List (κ × α)) (key : κ) :
    key ∈ (ofList entries).keys ↔ ∃ entry ∈ entries, entry.1 = key := by
  obtain ⟨last, hlast⟩ := exists_lastOf (fun entry => entry.1 = key) entries
  rw [mem_keys_iff, find?_ofList hlast]
  cases last with
  | none =>
    constructor
    · rintro ⟨value, h⟩
      cases h
    · rintro ⟨entry, hmem, hkey⟩
      exact absurd hkey (hlast entry hmem)
  | some entry => exact ⟨fun _ => ⟨entry, hlast.mem⟩, fun _ => ⟨entry.2, rfl⟩⟩

/-! ### Ascending entries -/

theorem Ascending.find?_of_mem {d : Dictionary κ α} (h : d.Ascending) {key : κ} {value : α}
    (hmem : (key, value) ∈ d.entries) : d.find? key = some value := by
  obtain ⟨entries⟩ := d
  unfold Ascending at h
  simp only at h hmem
  induction entries with
  | nil => cases hmem
  | cons first entries ih =>
    obtain ⟨hfirst, hrest⟩ := List.pairwise_cons.mp h
    rw [find?_cons]
    rcases List.mem_cons.mp hmem with rfl | hmem
    · rw [if_pos Std.compare_self]
    · have hne : compare key first.1 ≠ .eq := fun heq =>
        ne_of_compare (hfirst _ hmem) (Std.compare_eq_iff_eq.mp heq).symm
      rw [if_neg hne]
      exact ih hrest hmem

variable [Std.TransOrd κ]

theorem Ascending.insert {d : Dictionary κ α} (h : d.Ascending) (key : κ) (value : α) :
    (d.insert key value).Ascending := by
  obtain ⟨entries⟩ := d
  unfold Ascending at h ⊢
  change (insertEntry key value entries).Pairwise _
  simp only at h
  induction entries with
  | nil => exact List.pairwise_singleton _ _
  | cons first entries ih =>
    obtain ⟨hfirst, hrest⟩ := List.pairwise_cons.mp h
    rw [insertEntry]
    cases hc : compare key first.1 with
    | lt =>
      refine List.pairwise_cons.mpr ⟨fun entry hentry => ?_, h⟩
      rcases List.mem_cons.mp hentry with rfl | hentry
      · exact hc
      · exact Std.TransCmp.lt_trans hc (hfirst entry hentry)
    | eq =>
      have hkey : key = first.1 := Std.compare_eq_iff_eq.mp hc
      refine List.pairwise_cons.mpr ⟨fun entry hentry => ?_, hrest⟩
      rw [hkey]
      exact hfirst entry hentry
    | gt =>
      refine List.pairwise_cons.mpr ⟨fun entry hentry => ?_, ih hrest⟩
      rcases mem_insertEntry key value entries entry hentry with rfl | hentry
      · exact Std.OrientedCmp.gt_iff_lt.mp hc
      · exact hfirst entry hentry

/-- The members of a list that ascends by a key determine it. -/
theorem eq_of_ascending_on {β : Type} (key : β → κ) {as bs : List β}
    (h : as.Pairwise fun a b => compare (key a) (key b) = .lt)
    (h' : bs.Pairwise fun a b => compare (key a) (key b) = .lt) (hmem : ∀ a, a ∈ as ↔ a ∈ bs) :
    as = bs := by
  have hirrefl : Std.Irrefl fun a b => compare (key a) (key b) = .lt :=
    ⟨fun a ha => ne_of_compare ha rfl⟩
  have hantisymm : Std.Antisymm fun a b => compare (key a) (key b) = .lt := ⟨fun a b hab hba => by
    rw [← Std.OrientedCmp.gt_iff_lt, hba] at hab
    cases hab⟩
  exact h.eq_of_mem_iff h' hmem

/-- The members of an ascending list determine it. -/
theorem eq_of_ascending {keys keys' : List κ} (h : keys.Pairwise fun a b => compare a b = .lt)
    (h' : keys'.Pairwise fun a b => compare a b = .lt) (hmem : ∀ a, a ∈ keys ↔ a ∈ keys') :
    keys = keys' := eq_of_ascending_on id h h' hmem

/-! ### The dictionary of a list in which no key occurs twice -/

theorem ascending_ofList (entries : List (κ × α)) : (ofList entries).Ascending := by
  induction entries using List.reverseRecOn with
  | nil => exact ascending_empty
  | append_singleton entries entry ih =>
    rw [ofList_concat]
    exact ih.insert entry.1 entry.2

theorem mem_of_mem_ofList {entries : List (κ × α)} {entry : κ × α}
    (h : entry ∈ (ofList entries).entries) : entry ∈ entries := by
  obtain ⟨last, hlast⟩ := exists_lastOf (fun e => e.1 = entry.1) entries
  have hfound : (ofList entries).find? entry.1 = some entry.2 :=
    (ascending_ofList entries).find?_of_mem h
  rw [find?_ofList hlast] at hfound
  obtain ⟨found, rfl, hvalue⟩ := Option.map_eq_some_iff.mp hfound
  obtain ⟨hmem, hkey⟩ := hlast.mem
  have heq : found = entry := Prod.ext hkey hvalue
  exact heq ▸ hmem

theorem mem_ofList_of_mem {entries : List (κ × α)} (hkeys : (entries.map (·.1)).Nodup)
    {entry : κ × α} (h : entry ∈ entries) : entry ∈ (ofList entries).entries := by
  obtain ⟨found, hmem, hkey⟩ :=
    List.mem_map.mp ((mem_keys_ofList entries entry.1).mpr ⟨entry, h, rfl⟩)
  have heq : found = entry := List.inj_on_of_nodup_map hkeys (mem_of_mem_ofList hmem) h hkey
  exact heq ▸ hmem

/-- Where no key occurs twice, the dictionary has the entries of the list and nothing else. -/
theorem ofList_perm {entries : List (κ × α)} (hkeys : (entries.map (·.1)).Nodup) :
    (ofList entries).entries.Perm entries := by
  have hnodup : (ofList entries).entries.Nodup := (ascending_ofList entries).imp fun hlt heq =>
    ne_of_compare hlt (congrArg Prod.fst heq)
  exact (List.perm_ext_iff_of_nodup hnodup hkeys.of_map).mpr fun entry =>
    ⟨mem_of_mem_ofList, mem_ofList_of_mem hkeys⟩

theorem ofList_eq_iff {entries entries' : List (κ × α)} (hkeys : (entries.map (·.1)).Nodup)
    (hkeys' : (entries'.map (·.1)).Nodup) :
    (ofList entries).entries = (ofList entries').entries ↔ entries.Perm entries' := by
  constructor
  · intro h
    have hperm := (ofList_perm hkeys).symm
    rw [h] at hperm
    exact hperm.trans (ofList_perm hkeys')
  · intro h
    have hperm := (ofList_perm hkeys).trans (h.trans (ofList_perm hkeys').symm)
    exact eq_of_ascending_on Prod.fst (ascending_ofList entries) (ascending_ofList entries')
      fun _ => hperm.mem_iff

end OlapClient.Dictionary
