import Mathlib.Data.List.Basic

/-!
# Pieces of text that show where they end

Of a text that is put together from pieces, each piece can be found again where it shows where it
ends, provided that no character that would continue it stands behind it. This goes on from pieces
to what is made of them: pieces with something always before or behind them, pieces with separators
between them, and pieces one after the other.
-/

namespace OlapClient

/-- A text does not begin with one of the characters. -/
def Avoids (barred rest : List Char) : Prop := ∀ c, rest.head? = some c → c ∉ barred

/-- What is written for a value determines the value and where it ends, whatever stands behind it,
if that does not begin with one of the barred characters. -/
def SelfDelimiting {α : Type} (valid : α → Prop) (chars : α → List Char) (barred : List Char) :
    Prop :=
  ∀ a b rest rest', valid a → valid b → Avoids barred rest → Avoids barred rest' →
    chars a ++ rest = chars b ++ rest' → a = b ∧ rest = rest'

theorem avoids_cons {barred : List Char} {c : Char} (rest : List Char) (h : c ∉ barred) :
    Avoids barred (c :: rest) := fun c' hc' => by
  cases hc'
  exact h

theorem avoids_nil (rest : List Char) : Avoids [] rest := fun _ _ => List.not_mem_nil

theorem Avoids.mono {barred barred' rest : List Char} (h : Avoids barred rest)
    (hb : ∀ c ∈ barred', c ∈ barred) : Avoids barred' rest :=
  fun c hc hmem => h c hc (hb c hmem)

namespace SelfDelimiting

variable {α : Type} {valid : α → Prop} {chars : α → List Char} {barred : List Char}

theorem mono (h : SelfDelimiting valid chars barred) {barred' : List Char}
    (hb : ∀ c ∈ barred, c ∈ barred') : SelfDelimiting valid chars barred' :=
  fun a b rest rest' ha hb' hr hr' he => h a b rest rest' ha hb' (hr.mono hb) (hr'.mono hb) he

/-- A value that is written as another one is, and is determined by it. -/
theorem comap {β : Type} (h : SelfDelimiting valid chars barred) {valid' : β → Prop} (f : β → α)
    (hf : ∀ b b', f b = f b' → b = b') (hv : ∀ b, valid' b → valid (f b)) :
    SelfDelimiting valid' (fun b => chars (f b)) barred := by
  intro b b' rest rest' hb hb' hr hr' he
  obtain ⟨hab, hrest⟩ := h _ _ rest rest' (hv b hb) (hv b' hb') hr hr' he
  exact ⟨hf b b' hab, hrest⟩

theorem prefixed (h : SelfDelimiting valid chars barred) (before : List Char) :
    SelfDelimiting valid (fun a => before ++ chars a) barred := by
  intro a b rest rest' ha hb hr hr' he
  simp only [List.append_assoc, List.append_cancel_left_eq] at he
  exact h a b rest rest' ha hb hr hr' he

/-- What always stands behind a piece shows where it ends. -/
theorem followed (h : SelfDelimiting valid chars barred) (c : Char) (behind : List Char)
    (hc : c ∉ barred) : SelfDelimiting valid (fun a => chars a ++ c :: behind) [] := by
  intro a b rest rest' ha hb _ _ he
  simp only [List.append_assoc, List.cons_append] at he
  obtain ⟨hab, hrest⟩ := h a b _ _ ha hb (avoids_cons _ hc) (avoids_cons _ hc) he
  exact ⟨hab, List.append_cancel_left (List.cons.inj hrest).2⟩

theorem intercalate_mapIdx_cons (separator : List Char) (chars : Nat → α → List Char) (a : α)
    (as : List α) (hne : as ≠ []) : separator.intercalate ((a :: as).mapIdx chars) =
      chars 0 a ++
        (separator ++ separator.intercalate (as.mapIdx fun index => chars (index + 1))) := by
  obtain ⟨a', as, rfl⟩ := List.exists_cons_of_ne_nil hne
  simp only [List.mapIdx_cons, List.intercalate_cons_cons, List.append_assoc]

/-- Pieces with a separator between them: where the separator could not continue a piece, it shows
that another one follows. -/
theorem separated (c : Char) (separator : List Char) (hc : c ∉ barred)
    (chars : Nat → α → List Char) (h : ∀ index, SelfDelimiting valid (chars index) barred) :
    SelfDelimiting (fun as => as ≠ [] ∧ ∀ a ∈ as, valid a)
      (fun as => (c :: separator).intercalate (as.mapIdx chars)) (c :: barred) := by
  rintro as bs rest rest' ⟨hne, ha⟩ ⟨hne', hb⟩ hr hr' he
  have hsub : ∀ c' ∈ barred, c' ∈ c :: barred := fun c' hc' => List.mem_cons_of_mem c hc'
  dsimp only at he
  have alone : ∀ chars : Nat → α → List Char, ∀ a : α,
      (c :: separator).intercalate ([a].mapIdx chars) = chars 0 a := by simp
  induction as generalizing bs chars with
  | nil => exact absurd rfl hne
  | cons a as ih =>
    obtain ⟨b, bs, rfl⟩ := List.exists_cons_of_ne_nil hne'
    have hfirst := h 0 a b
    have ha0 := ha a List.mem_cons_self
    have hb0 := hb b List.mem_cons_self
    rcases eq_or_ne as [] with rfl | has <;> rcases eq_or_ne bs [] with rfl | hbs
    · rw [alone, alone] at he
      obtain ⟨rfl, hrest⟩ := hfirst _ _ ha0 hb0 (hr.mono hsub) (hr'.mono hsub) he
      exact ⟨rfl, hrest⟩
    · -- The separator before the next piece would stand behind the last one.
      rw [alone, intercalate_mapIdx_cons _ chars b bs hbs, List.append_assoc] at he
      obtain ⟨-, hrest⟩ := hfirst _ _ ha0 hb0 (hr.mono hsub) (avoids_cons _ hc) he
      exact absurd List.mem_cons_self (hr c (by rw [hrest]; rfl))
    · rw [alone, intercalate_mapIdx_cons _ chars a as has, List.append_assoc] at he
      obtain ⟨-, hrest⟩ := hfirst _ _ ha0 hb0 (avoids_cons _ hc) (hr'.mono hsub) he
      exact absurd List.mem_cons_self (hr' c (by rw [← hrest]; rfl))
    · simp only [intercalate_mapIdx_cons _ chars _ _ has, intercalate_mapIdx_cons _ chars _ _ hbs,
        List.append_assoc, List.cons_append] at he
      obtain ⟨rfl, hrest⟩ := hfirst _ _ ha0 hb0 (avoids_cons _ hc) (avoids_cons _ hc) he
      have hbehind := List.append_cancel_left (List.cons.inj hrest).2
      obtain ⟨rfl, hends⟩ := ih (fun index => chars (index + 1)) (fun index => h (index + 1)) bs has
        (fun a' hmem => ha a' (List.mem_cons_of_mem _ hmem)) hbs
        (fun b' hmem => hb b' (List.mem_cons_of_mem _ hmem)) hbehind
      exact ⟨rfl, hends⟩

/-- The same, where a piece does not depend on its place. -/
theorem separated_map (h : SelfDelimiting valid chars barred) (c : Char) (separator : List Char)
    (hc : c ∉ barred) : SelfDelimiting (fun as => as ≠ [] ∧ ∀ a ∈ as, valid a)
      (fun as => (c :: separator).intercalate (as.map chars)) (c :: barred) := by
  have hmap : ∀ as : List α, (as.mapIdx fun _ => chars) = as.map chars := by
    intro as
    induction as with
    | nil => rfl
    | cons a as ih => rw [List.mapIdx_cons, ih, List.map_cons]
  have hindex := separated c separator hc (fun _ => chars) (fun _ => h)
  simpa only [hmap] using hindex

/-- What goes on up to the first occurrence of a character. -/
theorem upTo (c : Char) :
    SelfDelimiting (fun cs : List Char => c ∉ cs) (fun cs => cs ++ [c]) [] := by
  intro a b rest rest' ha hb _ _ he
  simp only [List.append_assoc, List.singleton_append] at he
  -- were one piece longer, the character that ends the other would stand within it
  rcases List.append_eq_append_iff.mp he with ⟨t, rfl, ht⟩ | ⟨t, rfl, ht⟩
  · cases t with
    | nil => exact ⟨(List.append_nil a).symm, (List.cons.inj ht).2⟩
    | cons d t =>
      obtain ⟨rfl, -⟩ := List.cons.inj ht
      exact absurd (by simp) hb
  · cases t with
    | nil => exact ⟨List.append_nil b, (List.cons.inj ht).2.symm⟩
    | cons d t =>
      obtain ⟨rfl, -⟩ := List.cons.inj ht
      exact absurd (by simp) ha

/-- One piece behind another. -/
theorem append {β : Type} {valid' : β → Prop} {chars' : β → List Char}
    (h : SelfDelimiting valid chars []) (h' : SelfDelimiting valid' chars' []) :
    SelfDelimiting (fun p : α × β => valid p.1 ∧ valid' p.2) (fun p => chars p.1 ++ chars' p.2)
      [] := by
  rintro ⟨a, a'⟩ ⟨b, b'⟩ rest rest' ⟨ha, ha'⟩ ⟨hb, hb'⟩ hr hr' he
  simp only [List.append_assoc] at he
  obtain ⟨rfl, hbehind⟩ := h a b _ _ ha hb (avoids_nil _) (avoids_nil _) he
  obtain ⟨rfl, hends⟩ := h' a' b' rest rest' ha' hb' hr hr' hbehind
  exact ⟨rfl, hends⟩

/-- Pieces one after the other, up to where no piece begins. -/
theorem repeated (h : SelfDelimiting valid chars []) (as bs : List α) (rest rest' : List Char)
    (has : ∀ a ∈ as, valid a) (hbs : ∀ b ∈ bs, valid b) (hr : ∀ a, valid a → ¬ chars a <+: rest)
    (hr' : ∀ a, valid a → ¬ chars a <+: rest')
    (he : as.flatMap chars ++ rest = bs.flatMap chars ++ rest') : as = bs ∧ rest = rest' := by
  induction as generalizing bs with
  | nil =>
    cases bs with
    | nil => exact ⟨rfl, he⟩
    | cons b bs =>
      rw [List.flatMap_cons, List.append_assoc] at he
      exact absurd ⟨_, he.symm⟩ (hr b (hbs b List.mem_cons_self))
  | cons a as ih =>
    have ha := has a List.mem_cons_self
    rw [List.flatMap_cons, List.append_assoc] at he
    cases bs with
    | nil => exact absurd ⟨_, he⟩ (hr' a ha)
    | cons b bs =>
      rw [List.flatMap_cons, List.append_assoc] at he
      obtain ⟨rfl, hbehind⟩ :=
        h a b _ _ ha (hbs b List.mem_cons_self) (avoids_nil _) (avoids_nil _) he
      obtain ⟨rfl, hends⟩ := ih bs (fun a' hmem => has a' (List.mem_cons_of_mem _ hmem))
        (fun b' hmem => hbs b' (List.mem_cons_of_mem _ hmem)) hbehind
      exact ⟨rfl, hends⟩

end SelfDelimiting

end OlapClient
