import Mathlib.Data.List.Lex
import OlapClient.Proofs.Markup.Fault

/-!
# The search for the result

The result of a response is searched for with a stack of trees instead of a recursion: the tree on
top is taken off and its children are put there, the first one last. Read from the top down, the
stack holds at any time what comes behind the elements that were taken off (`Searched.elements_eq`).
So the search ends at the element that the recursion finds, and that is the one whose place comes
first in document order (`FirstAt`).
-/

namespace OlapClient.Markup.Element

/-! ### Places -/

/-- The element at a place, which says for each level which child to go to. -/
def at? (e : Element) : List Nat → Option Element
  | [] => some e
  | i :: place => e.children[i]?.bind fun c => c.at? place

/-- The element at this place has the name, and no element before it does. Places are ordered as
words are in a dictionary, which is document order: an element comes before what is below it, and a
child with all that is below it before the next child. -/
structure FirstAt (name : String) (e : Element) (place : List Nat) (d : Element) : Prop where
  found : e.at? place = some d
  named : d.name = name
  first : ∀ earlier, earlier < place → ∀ c, e.at? earlier = some c → c.name ≠ name

theorem at?_cons_eq_some {e d : Element} {i : Nat} {place : List Nat} :
    e.at? (i :: place) = some d ↔ ∃ c, e.children[i]? = some c ∧ c.at? place = some d := by
  rw [at?, Option.bind_eq_some_iff]

theorem within_of_at? {e d : Element} {place : List Nat} (h : e.at? place = some d) :
    Within d e := by
  induction place generalizing e with
  | nil =>
    cases h
    exact .self
  | cons i place ih =>
    obtain ⟨c, hc, hd⟩ := at?_cons_eq_some.mp h
    exact .deeper e c (List.mem_of_getElem? hc) (ih hd)

theorem ne_of_descendant_eq_none {name : String} {e : Element} (h : e.descendant? name = none)
    (place : List Nat) (d : Element) (hd : e.at? place = some d) : d.name ≠ name := by
  rw [descendant_eq_first, first?_eq_none] at h
  exact h d (within_of_at? hd)

theorem FirstAt.unique {name : String} {e d d' : Element} {place place' : List Nat}
    (h : FirstAt name e place d) (h' : FirstAt name e place' d') : d = d' := by
  rcases lt_trichotomy place place' with hlt | rfl | hlt
  · exact absurd h.named (h'.first place hlt d h.found)
  · exact Option.some.inj (h.found.symm.trans h'.found)
  · exact absurd h'.named (h.first place' hlt d' h'.found)

mutual

theorem exists_firstAt (name : String) (e d : Element) (h : e.descendant? name = some d) :
    ∃ place, FirstAt name e place d := by
  match e with
  | ⟨own, attributes, children, text⟩ =>
    by_cases hown : own = name
    · rw [descendant?, if_pos hown] at h
      cases h
      exact ⟨[], rfl, hown, fun earlier hlt => absurd hlt (List.not_lt_nil earlier)⟩
    · rw [descendant?, if_neg hown] at h
      obtain ⟨i, c, place, hc, hfirst, hbefore⟩ := exists_firstIn name children d h
      refine ⟨i :: place, at?_cons_eq_some.mpr ⟨c, hc, hfirst.found⟩, hfirst.named, ?_⟩
      -- An earlier place is the tree itself, in an earlier child, or earlier in the same child.
      intro earlier hlt b hb
      cases earlier with
      | nil =>
        cases hb
        exact hown
      | cons j earlier =>
        obtain ⟨c', hc', hb⟩ := at?_cons_eq_some.mp hb
        rcases List.cons_lt_cons_iff.mp hlt with hj | ⟨rfl, hrest⟩
        · exact ne_of_descendant_eq_none (hbefore j c' hj hc') earlier b hb
        · obtain rfl := Option.some.inj (hc'.symm.trans hc)
          exact hfirst.first earlier hrest b hb

theorem exists_firstIn (name : String) (es : List Element) (d : Element)
    (h : descendantIn? name es = some d) :
    ∃ (i : Nat) (c : Element) (place : List Nat), es[i]? = some c ∧ FirstAt name c place d ∧
      ∀ j c', j < i → es[j]? = some c' → Element.descendant? name c' = none := by
  match es with
  | [] => cases h
  | e :: rest =>
    rw [descendantIn?] at h
    cases he : e.descendant? name with
    | some found =>
      rw [he] at h
      cases h
      obtain ⟨place, hfirst⟩ := exists_firstAt name e d he
      exact ⟨0, e, place, rfl, hfirst, fun j c' hj _ => by omega⟩
    | none =>
      rw [he] at h
      obtain ⟨i, c, place, hc, hfirst, hbefore⟩ := exists_firstIn name rest d h
      refine ⟨i + 1, c, place, hc, hfirst, ?_⟩
      intro j c' hj hc'
      cases j with
      | zero =>
        cases hc'
        exact he
      | succ j => exact hbefore j c' (by omega) hc'

end

theorem descendant_eq_some_iff (name : String) (e d : Element) :
    e.descendant? name = some d ↔ ∃ place, FirstAt name e place d := by
  refine ⟨exists_firstAt name e d, ?_⟩
  intro hplace
  obtain ⟨place, h⟩ := hplace
  cases hd : e.descendant? name with
  | none => exact absurd h.named (ne_of_descendant_eq_none hd place d h.found)
  | some d' =>
    obtain ⟨place', h'⟩ := exists_firstAt name e d' hd
    rw [h'.unique h]

end OlapClient.Markup.Element

namespace OlapClient.Response

open Markup Element

/-! ### The stack of the search -/

/-- The trees still to be searched are on a stack, whose top is the end of the list. The search
takes off the tree on top, and if that has another name it puts the children there, in reverse.
These are the elements it has passed in this way, in turn, and what is on the stack then. -/
inductive Searched (name : String) (start : List Element) : List Element → List Element → Prop where
  | start : Searched name start [] start
  | turn (passed stack : List Element) (e : Element) (h : Searched name start passed (stack ++ [e]))
      (hne : e.name ≠ name) : Searched name start (passed ++ [e]) (stack ++ e.children.reverse)

theorem search_turn (name : String) (stack : List Element) (e : Element) (hne : e.name ≠ name) :
    search name (stack ++ [e]).reverse = search name (stack ++ e.children.reverse).reverse := by
  simp [search, hne]

theorem elements_turn (stack : List Element) (e : Element) :
    elementsIn (stack ++ [e]).reverse = e :: elementsIn (stack ++ e.children.reverse).reverse := by
  simp [elementsIn, elements_eq, elementsIn_append]

theorem Searched.search_eq {name : String} {start passed stack : List Element}
    (h : Searched name start passed stack) :
    search name start.reverse = search name stack.reverse := by
  induction h with
  | start => rfl
  | turn passed stack e _ hne ih => rw [ih, search_turn name stack e hne]

/-- The stack holds what comes behind the elements passed, in document order from the top down. -/
theorem Searched.elements_eq {name : String} {start passed stack : List Element}
    (h : Searched name start passed stack) :
    elementsIn start.reverse = passed ++ elementsIn stack.reverse := by
  induction h with
  | start => rfl
  | turn passed stack e _ _ ih => rw [ih, elements_turn, List.append_assoc, List.singleton_append]

theorem Searched.ends {name : String} {start passed stack : List Element}
    (h : Searched name start passed stack) :
    (∃ passed', Searched name start passed' []) ∨
      ∃ passed' rest e, Searched name start passed' (rest ++ [e]) ∧ e.name = name := by
  rcases List.eq_nil_or_concat' stack with hstack | ⟨rest, e, hstack⟩
  · exact .inl ⟨passed, hstack ▸ h⟩
  · have htop : Searched name start passed (rest ++ [e]) := hstack ▸ h
    by_cases he : e.name = name
    · exact .inr ⟨passed, rest, e, htop, he⟩
    · -- One element less is left after a turn.
      have hless : (elementsIn (rest ++ e.children.reverse).reverse).length <
          (elementsIn stack.reverse).length := by
        rw [hstack, elements_turn, List.length_cons]
        omega
      exact (Searched.turn passed rest e htop he).ends
termination_by (elementsIn stack.reverse).length
decreasing_by exact hless

theorem search_top (name : String) (rest : List Element) (e : Element) (he : e.name = name) :
    search name (rest ++ [e]).reverse = some e := by
  rw [List.reverse_concat, search, if_pos he]

theorem search_eq_some_iff (name : String) (start : List Element) (e : Element) :
    search name start.reverse = some e ↔
      ∃ passed rest, Searched name start passed (rest ++ [e]) ∧ e.name = name := by
  have hstart : Searched name start [] start := .start
  constructor
  · intro hs
    rcases hstart.ends with ⟨passed, h⟩ | ⟨passed, rest, e', h, he⟩
    · rw [h.search_eq, List.reverse_nil, search] at hs
      cases hs
    · rw [h.search_eq, search_top name rest e' he] at hs
      cases hs
      exact ⟨passed, rest, h, he⟩
  · intro hfound
    obtain ⟨passed, rest, h, he⟩ := hfound
    rw [h.search_eq, search_top name rest e he]

theorem search_eq_none_iff (name : String) (start : List Element) :
    search name start.reverse = none ↔ Searched name start (elementsIn start.reverse) [] := by
  have hstart : Searched name start [] start := .start
  constructor
  · intro hs
    rcases hstart.ends with ⟨passed, h⟩ | ⟨passed, rest, e, h, he⟩
    · have hall : elementsIn start.reverse = passed := h.elements_eq.trans (List.append_nil passed)
      exact hall ▸ h
    · rw [h.search_eq, search_top name rest e he] at hs
      cases hs
  · intro h
    rw [h.search_eq, List.reverse_nil, search]

/-! ### The result and the descendant -/

theorem root_eq_ok_iff (document e : Element) :
    root document = .ok e ↔ search "root" [document].reverse = some e := by
  rw [List.reverse_singleton, root]
  cases search "root" [document] <;> simp

theorem root_eq_error_iff (document : Element) (cause : ClientError) :
    root document = .error cause ↔
      cause = .response .noRoot ∧ search "root" [document].reverse = none := by
  rw [List.reverse_singleton, root]
  cases search "root" [document] <;> simp [eq_comm]

theorem search_eq_descendant (name : String) (e : Element) :
    search name [e].reverse = e.descendant? name := by
  rw [descendant_eq_first, first?, search_eq_find, List.reverse_singleton, elementsIn, elementsIn,
    List.append_nil]

/-- The result is the descendant `root` that the recursion finds, which stands at the first place of
this name, and it is missing exactly if there is none. When the stack has it on top, the elements
before it in document order have been passed and no others; when it is missing, all have been. -/
theorem root_finds_descendant (document : Element) :
    (∀ e, root document = .ok e ↔ document.descendant? "root" = some e) ∧
    (∀ cause, root document = .error cause ↔
      cause = .response .noRoot ∧ document.descendant? "root" = none) ∧
    (∀ e, document.descendant? "root" = some e ↔ ∃ place, FirstAt "root" document place e) ∧
    (∀ e, root document = .ok e ↔ ∃ passed rest,
      Searched "root" [document] passed (rest ++ [e]) ∧ e.name = "root" ∧
        document.elements = passed ++ elementsIn (rest ++ [e]).reverse) ∧
    (root document = .error (.response .noRoot) ↔
      Searched "root" [document] document.elements []) := by
  have helements : elementsIn [document].reverse = document.elements := List.append_nil _
  refine ⟨?_, ?_, descendant_eq_some_iff "root" document, ?_, ?_⟩
  · intro e
    rw [root_eq_ok_iff, search_eq_descendant]
  · intro cause
    rw [root_eq_error_iff, search_eq_descendant]
  · intro e
    rw [root_eq_ok_iff, search_eq_some_iff]
    constructor
    · intro hfound
      obtain ⟨passed, rest, h, he⟩ := hfound
      exact ⟨passed, rest, h, he, helements ▸ h.elements_eq⟩
    · intro hfound
      obtain ⟨passed, rest, h, he, -⟩ := hfound
      exact ⟨passed, rest, h, he⟩
  · rw [root_eq_error_iff, search_eq_none_iff, helements]
    simp

/-- Of two elements `root`, one inside the other, the outer one is found, whole. -/
example : root ⟨"a", [], [⟨"b", [], [⟨"root", [], [⟨"root", [], [], "x"⟩], ""⟩], ""⟩,
    ⟨"root", [], [], ""⟩], ""⟩ = .ok ⟨"root", [], [⟨"root", [], [], "x"⟩], ""⟩ := by cbv

end OlapClient.Response
