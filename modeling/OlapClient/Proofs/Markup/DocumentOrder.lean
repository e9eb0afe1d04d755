import OlapClient.Markup.Element

/-!
# Document order

The elements of a tree in document order: an element comes before its children, and a child with
all that is below it before the next child. The search for a descendant finds the first element of
its name in this order.
-/

namespace OlapClient.Markup.Element

mutual

/-- The elements of a tree in document order, the tree itself first. -/
def elements (e : Element) : List Element :=
  match e with
  | ⟨name, attributes, children, text⟩ =>
    ⟨name, attributes, children, text⟩ :: elementsIn children

/-- The elements of the trees of a list. -/
def elementsIn (es : List Element) : List Element :=
  match es with
  | [] => []
  | e :: rest => elements e ++ elementsIn rest

end

/-- An element that is a tree, or is somewhere below it. -/
inductive Within (e : Element) : Element → Prop where
  | self : Within e e
  | deeper (parent child : Element) (hc : child ∈ parent.children) (h : Within e child) :
      Within e parent

/-- The first element of a name in document order. -/
def first? (name : String) (e : Element) : Option Element :=
  e.elements.find? fun d => d.name = name

theorem elements_eq (e : Element) : e.elements = e :: elementsIn e.children := by
  cases e
  rfl

theorem elementsIn_append (es fs : List Element) :
    elementsIn (es ++ fs) = elementsIn es ++ elementsIn fs := by
  induction es with
  | nil => rfl
  | cons e es ih => simp [elementsIn, ih]

theorem elements_subset_elementsIn (es : List Element) (c : Element) (hc : c ∈ es) (d : Element)
    (hd : d ∈ c.elements) : d ∈ elementsIn es := by
  induction es with
  | nil => cases hc
  | cons e es ih =>
    rw [elementsIn, List.mem_append]
    rcases List.mem_cons.mp hc with rfl | hc
    · exact .inl hd
    · exact .inr (ih hc)

/-! ### The elements of a tree are those within it -/

mutual

theorem within_of_mem (d : Element) (e : Element) (h : d ∈ e.elements) : Within d e := by
  match e with
  | ⟨name, attributes, children, text⟩ =>
    rw [elements, List.mem_cons] at h
    rcases h with rfl | h
    · exact .self
    · obtain ⟨c, hc, hd⟩ := within_of_memIn d children h
      exact .deeper _ c hc hd

theorem within_of_memIn (d : Element) (es : List Element) (h : d ∈ elementsIn es) :
    ∃ c, c ∈ es ∧ Within d c := by
  match es with
  | [] => cases h
  | e :: rest =>
    rw [elementsIn, List.mem_append] at h
    rcases h with h | h
    · exact ⟨e, List.mem_cons_self, within_of_mem d e h⟩
    · obtain ⟨c, hc, hd⟩ := within_of_memIn d rest h
      exact ⟨c, List.mem_cons_of_mem e hc, hd⟩

end

theorem mem_elements_iff (d e : Element) : d ∈ e.elements ↔ Within d e := by
  refine ⟨within_of_mem d e, ?_⟩
  intro h
  induction h with
  | self =>
    rw [elements_eq]
    exact List.mem_cons_self
  | deeper parent child hc _ ih =>
    rw [elements_eq]
    exact List.mem_cons_of_mem _ (elements_subset_elementsIn _ child hc d ih)

theorem first?_eq_none (name : String) (e : Element) :
    e.first? name = none ↔ ∀ d, Within d e → d.name ≠ name := by
  rw [first?, List.find?_eq_none]
  refine ⟨?_, ?_⟩
  · intro h d hd he
    exact h d ((mem_elements_iff d e).mpr hd) (decide_eq_true he)
  · intro h d hd he
    exact h d ((mem_elements_iff d e).mp hd) (of_decide_eq_true he)

theorem within_of_first (name : String) (e d : Element) (h : e.first? name = some d) :
    Within d e ∧ d.name = name := by
  have hd := List.mem_of_find?_eq_some h
  have hn := List.find?_some h
  exact ⟨(mem_elements_iff d e).mp hd, of_decide_eq_true hn⟩

/-! ### The search for a descendant -/

mutual

theorem descendant_eq_first (name : String) (e : Element) :
    e.descendant? name = e.first? name := by
  match e with
  | ⟨own, attributes, children, text⟩ =>
    have ih := descendantIn_eq_find name children
    by_cases h : own = name
    · simp [descendant?, first?, elements, h]
    · simp [descendant?, first?, elements, h, ih]

theorem descendantIn_eq_find (name : String) (es : List Element) :
    descendantIn? name es = (elementsIn es).find? fun d => d.name = name := by
  match es with
  | [] => rfl
  | e :: rest =>
    have ihe := descendant_eq_first name e
    have ihr := descendantIn_eq_find name rest
    rw [first?] at ihe
    rw [descendantIn?, elementsIn, List.find?_append, ihe, ihr]
    cases (elements e).find? fun d => d.name = name <;> rfl

end

end OlapClient.Markup.Element
