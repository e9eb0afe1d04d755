import OlapClient.Proofs.Markup.DocumentOrder
import OlapClient.Response

/-!
# Faults in a response

Which documents are reported as faults, and which result is returned for the others. An element
`Fault` counts wherever it stands. Of the lists of messages only the first in document order is
looked at, so that one without an error hides those after it.
-/

namespace OlapClient.Response

open Markup Element

/-! ### The search for the result -/

theorem search_eq_find (name : String) (pending : List Element) :
    search name pending = (elementsIn pending).find? fun d => d.name = name := by
  fun_induction search name pending with
  | case1 => rfl
  | case2 e pending h => simp [elementsIn, elements_eq, h]
  | case3 e pending h ih => simp [elementsIn, elements_eq, h, ih, elementsIn_append]

/-- The first `root` of a document, in document order. -/
def firstRoot (document : Element) : Except ClientError Element :=
  match document.first? "root" with
  | some e => .ok e
  | none => .error (.response .noRoot)

theorem root_eq_first (document : Element) : root document = firstRoot document := by
  have hs : search "root" [document] = document.first? "root" := by
    simp [search_eq_find, elementsIn, first?]
  cases hd : document.first? "root" <;> simp [root, hs, firstRoot, hd]

/-! ### The document of a response -/

/-- A result that is a fault. -/
def IsFault (r : Except ClientError Element) : Prop := ∃ fault, r = .error (.serverFault fault)

/-- A list of messages with an error directly inside it. -/
def HasError (messages : Element) : Prop := ∃ c, c ∈ messages.children ∧ c.name = "Error"

/-- A document with an element `Fault`, or with an error in some list of messages. -/
def Reports (document : Element) : Prop :=
  (∃ e, Within e document ∧ e.name = "Fault") ∨
    ∃ e, Within e document ∧ e.name = "Messages" ∧ HasError e

/-- A document without an element `Fault` whose first list of messages has no error. -/
def Hides (document : Element) : Prop :=
  (∀ e, Within e document → e.name ≠ "Fault") ∧
    ∃ e, document.first? "Messages" = some e ∧ ¬ HasError e

theorem child_eq_none (e : Element) : e.child? "Error" = none ↔ ¬ HasError e := by
  rw [child?, List.find?_eq_none]
  refine ⟨?_, ?_⟩
  · rintro h ⟨c, hc, hn⟩
    exact h c hc (beq_iff_eq.mpr hn)
  · intro h c hc hn
    exact h ⟨c, hc, beq_iff_eq.mp hn⟩

/-- No fault is found exactly if there is nothing to report, or it is hidden. -/
theorem fault_eq_none (document : Element) :
    fault? document = none ↔ ¬ Reports document ∨ Hides document := by
  rw [fault?, descendant_eq_first, descendant_eq_first]
  cases hf : document.first? "Fault" with
  | some e =>
    obtain ⟨hw, hn⟩ := within_of_first "Fault" document e hf
    have hr : Reports document := .inl ⟨e, hw, hn⟩
    have hh : ¬ Hides document := fun h => h.1 e hw hn
    simp [hr, hh]
  | none =>
    have hno := (first?_eq_none "Fault" document).mp hf
    cases hm : document.first? "Messages" with
    | none =>
      have hnm := (first?_eq_none "Messages" document).mp hm
      have hr : ¬ Reports document := by
        rintro (⟨e, hw, hn⟩ | ⟨e, hw, hn, -⟩)
        · exact hno e hw hn
        · exact hnm e hw hn
      simp [hr]
    | some e =>
      obtain ⟨hw, hn⟩ := within_of_first "Messages" document e hm
      cases hc : e.child? "Error" with
      | none =>
        have hh : Hides document := ⟨hno, e, hm, (child_eq_none e).mp hc⟩
        simp [hc, hh]
      | some c =>
        have he : HasError e := by
          refine Classical.byContradiction fun hne => ?_
          rw [(child_eq_none e).mpr hne] at hc
          cases hc
        have hr : Reports document := .inr ⟨e, hw, hn, he⟩
        have hh : ¬ Hides document := by
          rintro ⟨-, e', he', hne⟩
          rw [hm] at he'
          cases he'
          exact hne he
        simp [hc, hr, hh]

/-- A response is a fault exactly if its document reports one and does not hide it; the result of
any other is the first `root` in document order. -/
theorem payload_fault_iff (bytes : Bytes) (document : Element)
    (h : readDocument bytes = .ok document) :
    (IsFault (payload bytes) ↔ Reports document ∧ ¬ Hides document) ∧
    (¬ IsFault (payload bytes) → payload bytes = firstRoot document) := by
  cases hf : fault? document with
  | some fault =>
    have hp : payload bytes = .error (.serverFault fault) := by
      simp [payload, h, hf]
    have hnot : ¬ (¬ Reports document ∨ Hides document) := by
      rw [← fault_eq_none, hf]
      simp
    have hfault : IsFault (payload bytes) := ⟨fault, hp⟩
    refine ⟨⟨fun _ => ?_, fun _ => hfault⟩, fun hn => absurd hfault hn⟩
    exact ⟨Classical.byContradiction fun hr => hnot (.inl hr), fun hh => hnot (.inr hh)⟩
  | none =>
    have hp : payload bytes = firstRoot document := by
      simp [payload, h, hf, root_eq_first]
    have hor := (fault_eq_none document).mp hf
    have hno : ¬ IsFault (payload bytes) := by
      rintro ⟨fault, hr⟩
      rw [hp, firstRoot] at hr
      cases hd : document.first? "root" <;> simp [hd] at hr
    refine ⟨⟨fun hfault => absurd hfault hno, ?_⟩, fun _ => hp⟩
    rintro ⟨hr, hh⟩
    exact absurd hor (not_or.mpr ⟨fun hn => hn hr, hh⟩)

/-- The response `<a><Messages/><Messages><Error/></Messages><root/></a>`. -/
def hiddenError : Bytes :=
  [60, 97, 62, 60, 77, 101, 115, 115, 97, 103, 101, 115, 47, 62, 60, 77, 101, 115, 115, 97, 103,
    101, 115, 62, 60, 69, 114, 114, 111, 114, 47, 62, 60, 47, 77, 101, 115, 115, 97, 103, 101, 115,
    62, 60, 114, 111, 111, 116, 47, 62, 60, 47, 97, 62]

/-- The list of messages that holds the error. -/
def messagesWithError : Element := { name := "Messages", children := [{ name := "Error" }] }

def hidingDocument : Element :=
  { name := "a", children := [{ name := "Messages" }, messagesWithError, { name := "root" }] }

set_option maxRecDepth 4000 in
theorem read_hiddenError : readDocument hiddenError = .ok hidingDocument := rfl

theorem reports_hidingDocument : Reports hidingDocument := by
  have hm : messagesWithError ∈ hidingDocument.children := .tail _ (.head _)
  have he : HasError messagesWithError := ⟨{ name := "Error" }, .head _, rfl⟩
  exact .inr ⟨messagesWithError, .deeper _ _ hm .self, rfl, he⟩

theorem hides_hidingDocument : Hides hidingDocument := by
  refine ⟨?_, { name := "Messages" }, rfl, ?_⟩
  · exact (first?_eq_none "Fault" hidingDocument).mp rfl
  · rintro ⟨c, hc, -⟩
    cases hc

theorem hiddenError_passes : ¬ IsFault (payload hiddenError) := by
  have h := payload_fault_iff hiddenError hidingDocument read_hiddenError
  intro hf
  exact (h.1.mp hf).2 hides_hidingDocument

/-- An error in the second list of messages is passed over for a result. -/
theorem error_passed_over : readDocument hiddenError = .ok hidingDocument ∧
    Reports hidingDocument ∧ payload hiddenError = .ok { name := "root" } := by
  refine ⟨read_hiddenError, reports_hidingDocument, ?_⟩
  have hf : fault? hidingDocument = none := rfl
  have hr : firstRoot hidingDocument = .ok { name := "root" } := rfl
  simp [payload, read_hiddenError, hf, root_eq_first, hr]

end OlapClient.Response
