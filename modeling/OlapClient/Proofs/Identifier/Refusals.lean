import OlapClient.Proofs.Identifier.Completion

/-!
# Where a text is refused

The place of a refusal is as far to the right as it can be. The text before it can still be
completed, and no text that goes on with the next character is accepted. What is missing at the end
of a text that can be completed as a whole is reported where it was opened instead.
-/

namespace OlapClient

open Spelling

namespace Shape

/-- The text is read to its end. -/
def Accepts (shape : Shape) (text : List Char) : Prop :=
  ∃ assembly, Assembly.parse shape (String.ofList text) = .ok assembly

/-- More text makes it one that is read to its end. -/
def Completes (shape : Shape) (text : List Char) : Prop := ∃ more, shape.Accepts (text ++ more)

theorem accepts_iff (shape : Shape) (text : List Char) :
    shape.Accepts text ↔ ((Scan.start shape).run 0 text).2 = .ok () := by
  have hscan : Event.scan shape (String.ofList text) = (Scan.start shape).run 0 text := by
    rw [Event.scan, String.toList_ofList]
  constructor
  · rintro ⟨assembly, h⟩
    rw [Assembly.parse, hscan] at h
    rcases hr : (Scan.start shape).run 0 text with ⟨events, refusal | ⟨⟩⟩
    · rw [hr] at h
      cases h
    · rfl
  · intro h
    exact ⟨_, Assembly.parse_of_scan shape _ _ (hscan.trans (Prod.ext rfl h))⟩

end Shape

/-- What stands unclosed is a bracket, a parenthesis or a brace. -/
theorem Spelling.Unclosed.opens {shape : Shape} {text : List Char} {position : Nat}
    (h : Unclosed shape text position) : ∃ c ∈ ['[', '(', '{'], text[position]? = some c := by
  cases h with
  | bracket brace paren link before body hb => exact ⟨'[', by simp, by simp⟩
  | paren brace before texts hs hb hne ht => exact ⟨'(', by simp, by simp⟩
  | brace gap inside hl hg hi => exact ⟨'{', by simp, by simp⟩

/-- A text that is refused is reported with the text and a place in it. Either a bracket,
parenthesis or brace that opens there is not closed, and the whole text can be completed; or the
text before that place can, and no text is accepted that has the next character too. -/
theorem Assembly.parse_refused (shape : Shape) (input : String) (e : IdentifierError)
    (h : Assembly.parse shape input = .error e) : ∃ refusal, e = .refused refusal input ∧
      refusal.position ≤ input.length ∧
      (((∃ c ∈ ['[', '(', '{'], input.toList[refusal.position]? = some c) ∧
          Unclosed shape input.toList refusal.position ∧ shape.Completes input.toList) ∨
        shape.Completes (input.toList.take refusal.position) ∧
          (refusal.position < input.length →
            ∀ more, ¬ shape.Accepts (input.toList.take (refusal.position + 1) ++ more))) := by
  rcases hscan : Event.scan shape input with ⟨events, refusal | ⟨⟩⟩
  · rw [Assembly.parse, hscan] at h
    cases h
    obtain ⟨front, behind, hsplit, ⟨more, total, hmore, -⟩, hplace⟩ :=
      (Scan.reached_start shape).run_refused input.toList hscan
    have hcompletes : shape.Completes front :=
      ⟨more, (shape.accepts_iff _).mpr (congrArg Prod.snd hmore)⟩
    refine ⟨refusal, rfl, ?_⟩
    rw [← String.length_toList]
    rcases hplace with ⟨hp, hnone⟩ | ⟨rfl, hu⟩
    · rw [List.nil_append] at hp
      have htake : input.toList.take refusal.position = front := by
        rw [hsplit, hp, List.take_left]
      refine ⟨by simp [hsplit, hp], .inr ⟨htake.symm ▸ hcompletes, fun hlt more haccepts => ?_⟩⟩
      cases behind with
      | nil => simp [hsplit, hp] at hlt
      | cons c rest =>
        have hnext : input.toList.take (refusal.position + 1) ++ more = front ++ c :: more := by
          simp [hsplit, hp, List.take_append, List.take_of_length_le]
        rw [hnext, shape.accepts_iff] at haccepts
        exact hnone c rest rfl more haccepts
    · rw [List.append_nil] at hsplit
      rw [List.nil_append, ← hsplit] at hu
      obtain ⟨c, hc, hget⟩ := hu.opens
      have hlt := (List.getElem?_eq_some_iff.mp hget).1
      exact ⟨Nat.le_of_lt hlt, .inl ⟨⟨c, hc, hget⟩, hu, hsplit ▸ hcompletes⟩⟩
  · rw [Assembly.parse, hscan] at h
    cases h

/-- A brace behind a comma is reported where it stands. A parenthesis that is not closed is reported
where it opens; the one in brackets is not meant. -/
theorem Assembly.comma_and_parenthesis_refused :
    Assembly.parse .memberList "\x7b[a], \x7d" =
      .error (.refused ⟨.trailingComma, 6⟩ "\x7b[a], \x7d") ∧
    Shape.Completes .memberList "\x7b[a], ".toList ∧
    (∀ more, ¬ Shape.Accepts .memberList ("\x7b[a], \x7d".toList ++ more)) ∧
    Assembly.parse .tuple "([(], b" = .error (.refused ⟨.unclosedTuple, 0⟩ "([(], b") ∧
    Unclosed .tuple "([(], b".toList 0 ∧ Shape.Completes .tuple "([(], b".toList := by
  have hcomma : Assembly.parse .memberList "\x7b[a], \x7d" =
      .error (.refused ⟨.trailingComma, 6⟩ "\x7b[a], \x7d") := rfl
  have hparen : Assembly.parse .tuple "([(], b" =
      .error (.refused ⟨.unclosedTuple, 0⟩ "([(], b") := rfl
  obtain ⟨_, ⟨⟩, -, hcase⟩ := Assembly.parse_refused _ _ _ hcomma
  obtain ⟨_, ⟨⟩, -, hcase'⟩ := Assembly.parse_refused _ _ _ hparen
  have hbrace : ¬ ∃ c ∈ ['[', '(', '{'], "\x7b[a], \x7d".toList[6]? = some c := by simp
  obtain ⟨hcompletes, hnone⟩ := hcase.resolve_left fun hleft => hbrace hleft.1
  have hclosed : Shape.Accepts .tuple ("([(], b".toList.take 1 ++ "[(], b)".toList) := ⟨_, rfl⟩
  obtain ⟨-, hunclosed, hcompletes'⟩ := hcase'.resolve_right fun hright =>
    hright.2 (by decide) _ hclosed
  exact ⟨hcomma, hcompletes, hnone (by decide), hparen, hunclosed, hcompletes'⟩

end OlapClient
