import Mathlib.Data.List.Perm.Basic
import OlapClient.Cache.Settings
import OlapClient.Proofs.Dictionary
import OlapClient.Proofs.Traversal

/-!
# Properties in any order

Properties come in no order of their own. Keys that are the same up to case and outer blanks meet in
one slot, and the entry visited last is taken for it; so an order of the entries amounts to a choice
of one entry for each slot, and every such choice is that of some order (`results_of_orders`). The
settings do not depend on the order exactly if they do not depend on these choices.
-/

namespace OlapClient.CacheSettings

/-- The slot of a property: its key in upper case, without the blanks around it. -/
def slot (key : String) : String := upperCase (Text.trim key)

/-- A choice of one entry for each slot that has any. -/
structure IsReading (properties : Properties) (p : Normalized) : Prop where
  taken : ∀ key value, p.find? key = some value →
    ∃ entry ∈ properties, slot entry.1 = key ∧ Text.trim entry.2 = value
  complete : ∀ key, p.find? key = none → ∀ entry ∈ properties, slot entry.1 ≠ key

/-- Properties give the same settings, or the same fault, in whatever order they are visited. -/
def AgreeInAllOrders (properties : Properties) : Prop :=
  ∀ order order' : Properties, order.Perm properties → order'.Perm properties →
    ofProperties order = ofProperties order'

variable {properties order : Properties} {p p' : Normalized}

/-! ### Settings depend on what is found -/

/-- Settings are read by finding the values of keys, and in no other way. -/
theorem ofNormalized_congr (h : ∀ key, p.find? key = p'.find? key) :
    ofNormalized p = ofNormalized p' := by
  have htext : text? p = text? p' := funext fun key => by rw [text?, text?, h]
  have hflag : flag p = flag p' := funext fun key => by rw [flag, flag, h]
  have hnumber : number? p = number? p' := funext fun key => by rw [number?, number?, htext]
  have himplied : impliedBackend p = impliedBackend p' := by
    rw [impliedBackend, impliedBackend, htext]
  have htable : tableSettings p = tableSettings p' := by
    rw [tableSettings, tableSettings, htext]
  rw [ofNormalized, ofNormalized, htext, hflag, hnumber, himplied, htable]

/-- The entry of a slot that is visited last is found there. -/
theorem find?_normalize {key : String} {last : Option (String × String)}
    (h : LastOf (fun entry => slot entry.1 = key) order last) :
    (normalize order).find? key = last.map fun entry => Text.trim entry.2 := by
  have hplain : LastOf (fun entry : String × String => entry.1 = key)
      (order.map fun entry => (slot entry.1, Text.trim entry.2)) _ := LastOf.map _ h
  rw [normalize]
  exact (Dictionary.find?_ofList hplain).trans (Option.map_map ..)

/-! ### Orders and choices -/

theorem isReading_of_order (h : order.Perm properties) :
    IsReading properties (normalize order) where
  taken := by
    intro key value hvalue
    obtain ⟨last, hlast⟩ := exists_lastOf (fun entry => slot entry.1 = key) order
    rw [find?_normalize hlast] at hvalue
    obtain ⟨entry, rfl, htrim⟩ := Option.map_eq_some_iff.mp hvalue
    exact ⟨entry, h.mem_iff.mp hlast.mem.1, hlast.mem.2, htrim⟩
  complete := by
    intro key hnone entry hentry
    obtain ⟨last, hlast⟩ := exists_lastOf (fun entry => slot entry.1 = key) order
    rw [find?_normalize hlast, Option.map_eq_none_iff] at hnone
    rw [hnone] at hlast
    exact hlast entry (h.mem_iff.mpr hentry)

/-- Whether an entry has the value that is chosen for its slot. -/
def isChosen (p : Normalized) (entry : String × String) : Bool :=
  p.find? (slot entry.1) = some (Text.trim entry.2)

/-- An order in which the chosen entries are visited after the others. -/
def chosenLast (properties : Properties) (p : Normalized) : Properties :=
  properties.filter (fun entry => !isChosen p entry) ++ properties.filter (isChosen p)

theorem chosenLast_perm (properties : Properties) (p : Normalized) :
    (chosenLast properties p).Perm properties :=
  List.perm_append_comm.trans (List.filter_append_perm (isChosen p) properties)

/-- In that order, what is chosen is found. -/
theorem find?_chosenLast (h : IsReading properties p) (key : String) :
    (normalize (chosenLast properties p)).find? key = p.find? key := by
  cases hvalue : p.find? key with
  | none =>
    have hlast : LastOf (fun entry => slot entry.1 = key) (chosenLast properties p) none :=
      fun entry hentry => h.complete key hvalue entry ((chosenLast_perm _ _).mem_iff.mp hentry)
    exact find?_normalize hlast
  | some value =>
    obtain ⟨entry, hentry, hslot, htrim⟩ := h.taken key value hvalue
    have hchosen : entry ∈ properties.filter (isChosen p) := by
      rw [List.mem_filter, isChosen, decide_eq_true_eq, hslot, htrim]
      exact ⟨hentry, hvalue⟩
    -- the slot has an entry that is chosen, so that its last one is among the chosen ones
    obtain ⟨last, hlast⟩ :=
      exists_lastOf (fun entry => slot entry.1 = key) (properties.filter (isChosen p))
    cases last with
    | none => exact absurd hslot (hlast entry hchosen)
    | some last =>
      obtain ⟨hmem, hkey⟩ := hlast.mem
      have htaken : p.find? (slot last.1) = some (Text.trim last.2) := by
        simpa [isChosen] using (List.mem_filter.mp hmem).2
      rw [chosenLast, find?_normalize (hlast.append _), ← hvalue, ← hkey, htaken]
      rfl

/-- The results of the orders are those of the choices. -/
theorem results_of_orders (properties : Properties) (result : Except SettingsFault CacheSettings) :
    (∃ order, order.Perm properties ∧ ofProperties order = result) ↔
      ∃ p, IsReading properties p ∧ ofNormalized p = result := by
  constructor
  · rintro ⟨order, horder, rfl⟩
    exact ⟨normalize order, isReading_of_order horder, rfl⟩
  · rintro ⟨p, hp, rfl⟩
    exact ⟨chosenLast properties p, chosenLast_perm properties p,
      ofNormalized_congr (find?_chosenLast hp)⟩

/-- Where entries of one slot have one value, there is one choice. -/
theorem find?_eq_of_unambiguous (h : ∀ entry ∈ properties, ∀ other ∈ properties,
      slot entry.1 = slot other.1 → Text.trim entry.2 = Text.trim other.2)
    (hp : IsReading properties p) (hp' : IsReading properties p') (key : String) :
    p.find? key = p'.find? key := by
  cases hvalue : p.find? key with
  | none =>
    cases hvalue' : p'.find? key with
    | none => rfl
    | some value' =>
      obtain ⟨entry, hentry, hslot, -⟩ := hp'.taken key value' hvalue'
      exact absurd hslot (hp.complete key hvalue entry hentry)
  | some value =>
    obtain ⟨entry, hentry, hslot, rfl⟩ := hp.taken key value hvalue
    cases hvalue' : p'.find? key with
    | none => exact absurd hslot (hp'.complete key hvalue' entry hentry)
    | some value' =>
      obtain ⟨other, hother, hslot', rfl⟩ := hp'.taken key value' hvalue'
      rw [h entry hentry other hother (hslot.trans hslot'.symm)]

/-- Properties give the same in all orders exactly if it does not matter which entry is taken for a
slot; and so they do if entries that meet in a slot have one value, up to the blanks around it. -/
theorem agreeInAllOrders_iff (properties : Properties) :
    (AgreeInAllOrders properties ↔
      ∀ p p', IsReading properties p → IsReading properties p' →
        ofNormalized p = ofNormalized p') ∧
    ((∀ entry ∈ properties, ∀ other ∈ properties,
        slot entry.1 = slot other.1 → Text.trim entry.2 = Text.trim other.2) →
      AgreeInAllOrders properties) := by
  have hiff : AgreeInAllOrders properties ↔
      ∀ p p', IsReading properties p → IsReading properties p' →
        ofNormalized p = ofNormalized p' := by
    constructor
    · intro hagree p p' hp hp'
      obtain ⟨order, horder, hresult⟩ := (results_of_orders properties _).mpr ⟨p, hp, rfl⟩
      obtain ⟨order', horder', hresult'⟩ := (results_of_orders properties _).mpr ⟨p', hp', rfl⟩
      rw [← hresult, ← hresult']
      exact hagree order order' horder horder'
    · intro hsame order order' horder horder'
      exact hsame _ _ (isReading_of_order horder) (isReading_of_order horder')
  refine ⟨hiff, fun hvalues => hiff.mpr fun p p' hp hp' => ?_⟩
  exact ofNormalized_congr (find?_eq_of_unambiguous hvalues hp hp')

/-- Two spellings of a key, with words that mean the same. -/
def spelledTwice : Properties := [("play", "true"), (" PLAY", "Yes")]

/-- Orders may agree although entries of different values meet. -/
theorem spelledTwice_agrees :
    (∃ entry ∈ spelledTwice, ∃ other ∈ spelledTwice,
      slot entry.1 = slot other.1 ∧ Text.trim entry.2 ≠ Text.trim other.2) ∧
    AgreeInAllOrders spelledTwice := by
  have hslot : ∀ entry ∈ spelledTwice, slot entry.1 = "PLAY" := by decide
  have hread : ∀ p, IsReading spelledTwice p → ofNormalized p = .ok { play := true } := by
    intro p hp
    obtain ⟨value, hplay⟩ : ∃ value, p.find? "PLAY" = some value := by
      cases hfind : p.find? "PLAY" with
      | none =>
        have hmem : ("play", "true") ∈ spelledTwice := List.mem_cons_self
        exact absurd (hslot _ hmem) (hp.complete "PLAY" hfind _ hmem)
      | some value => exact ⟨value, rfl⟩
    have halone : ∀ key, p.find? key = (({} : Normalized).insert "PLAY" value).find? key := by
      intro key
      by_cases hkey : key = "PLAY"
      · rw [hkey, hplay, Dictionary.find?_insert_self]
      · rw [Dictionary.find?_insert_of_ne _ _ _ value hkey]
        cases hfind : p.find? key with
        | none => rfl
        | some other =>
          obtain ⟨entry, hentry, hslot', -⟩ := hp.taken key other hfind
          exact absurd (hslot'.symm.trans (hslot entry hentry)) hkey
    rw [ofNormalized_congr halone]
    obtain ⟨entry, hentry, -, rfl⟩ := hp.taken "PLAY" value hplay
    simp only [spelledTwice, List.mem_cons, List.not_mem_nil, or_false] at hentry
    rcases hentry with rfl | rfl <;> rfl
  refine ⟨⟨_, List.mem_cons_self, (" PLAY", "Yes"), by decide, by decide, by decide⟩, ?_⟩
  refine (agreeInAllOrders_iff spelledTwice).1.mpr fun p p' hp hp' => ?_
  rw [hread p hp, hread p' hp']

/-- Two spellings of a key, with words that contradict each other. -/
def contradictory : Properties := [("play", "true"), ("PLAY", "false")]

theorem contradictory_depends_on_order :
    (contradictory.map (·.1)).Nodup ∧ ¬ AgreeInAllOrders contradictory := by
  refine ⟨by decide, fun hagree => ?_⟩
  have hoff : (ofProperties contradictory).map (·.play) = .ok false := by rfl
  have hon : (ofProperties contradictory.reverse).map (·.play) = .ok true := by rfl
  rw [hagree contradictory contradictory.reverse (.refl _) (List.reverse_perm _), hon] at hoff
  cases hoff

end OlapClient.CacheSettings
