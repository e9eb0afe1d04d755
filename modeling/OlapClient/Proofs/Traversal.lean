import Mathlib.Data.List.Forall2
import Mathlib.Data.List.Induction

/-!
# Traversals of lists

What is known of each element of a list, once a computation over the list has succeeded; and the
last element of a kind, which is the one that counts where later elements replace earlier ones.
-/

namespace OlapClient

variable {ε ε' α β : Type}

/-! ### Computations that succeed -/

theorem bind_eq_ok {r : Except ε α} {f : α → Except ε β} {b : β} :
    (r >>= f) = .ok b ↔ ∃ a, r = .ok a ∧ f a = .ok b := by
  cases r with
  | error e =>
    constructor
    · intro h
      cases h
    · rintro ⟨a, h, -⟩
      cases h
  | ok a =>
    constructor
    · exact fun h => ⟨a, rfl, h⟩
    · rintro ⟨a', h, hf⟩
      cases h
      exact hf

theorem map_eq_ok {r : Except ε α} {f : α → β} {b : β} :
    r.map f = .ok b ↔ ∃ a, r = .ok a ∧ f a = b := by
  cases r <;> simp [Except.map]

theorem toOption_eq_some {r : Except ε α} {a : α} : r.toOption = some a ↔ r = .ok a := by
  cases r <;> simp [Except.toOption]

theorem mapError_eq_ok {r : Except ε α} {f : ε → ε'} {a : α} :
    r.mapError f = .ok a ↔ r = .ok a := by
  cases r <;> simp [Except.mapError]

theorem mapM_eq_ok {f : α → Except ε β} {as : List α} {bs : List β} :
    as.mapM f = .ok bs ↔ List.Forall₂ (fun a b => f a = .ok b) as bs := by
  induction as generalizing bs with
  | nil =>
    rw [List.mapM_nil, List.forall₂_nil_left_iff]
    exact ⟨fun h => (Except.ok.inj h).symm, fun h => h ▸ rfl⟩
  | cons a as ih =>
    rw [List.mapM_cons, bind_eq_ok, List.forall₂_cons_left_iff]
    constructor
    · rintro ⟨b, hb, hrest⟩
      obtain ⟨bs', hbs, hpure⟩ := bind_eq_ok.mp hrest
      exact ⟨b, bs', hb, ih.mp hbs, (Except.ok.inj hpure).symm⟩
    · rintro ⟨b, bs', hb, hbs, rfl⟩
      exact ⟨b, hb, bind_eq_ok.mpr ⟨bs', ih.mpr hbs, rfl⟩⟩

theorem foldlM_concat_eq_ok {f : β → α → Except ε β} {init b : β} {as : List α} {a : α} :
    (as ++ [a]).foldlM f init = .ok b ↔ ∃ b', as.foldlM f init = .ok b' ∧ f b' a = .ok b := by
  rw [List.foldlM_append, bind_eq_ok]
  refine exists_congr fun b' => and_congr_right fun _ => ?_
  rw [List.foldlM_cons, bind_eq_ok]
  constructor
  · rintro ⟨b'', h, hnil⟩
    cases hnil
    exact h
  · exact fun h => ⟨b, h, rfl⟩

/-- What holds at the start and is kept by each step holds at the end. -/
theorem foldlM_keeps {f : β → α → Except ε β} {init : β} (I : List α → β → Prop) (h : I [] init)
    (hstep : ∀ as a b b', I as b → f b a = .ok b' → I (as ++ [a]) b') (as : List α) (b : β)
    (hb : as.foldlM f init = .ok b) : I as b := by
  induction as using List.reverseRecOn generalizing b with
  | nil =>
    cases hb
    exact h
  | append_singleton as a ih =>
    obtain ⟨b', hb', hf⟩ := foldlM_concat_eq_ok.mp hb
    exact hstep as a b' b (ih b' hb') hf

/-- Steps whose success does not depend on what is folded succeed together. -/
theorem foldlM_isOk_iff {f : β → α → Except ε β} {p : α → Prop}
    (hf : ∀ b a, (∃ b', f b a = .ok b') ↔ p a) (init : β) (as : List α) :
    (∃ b, as.foldlM f init = .ok b) ↔ ∀ a ∈ as, p a := by
  induction as using List.reverseRecOn with
  | nil => exact ⟨fun _ a ha => absurd ha List.not_mem_nil, fun _ => ⟨init, rfl⟩⟩
  | append_singleton as a ih =>
    simp only [foldlM_concat_eq_ok, List.mem_append, List.mem_singleton, or_imp, forall_and,
      forall_eq, ← ih]
    constructor
    · rintro ⟨b, b', hb', h⟩
      exact ⟨⟨b', hb'⟩, (hf b' a).mp ⟨b, h⟩⟩
    · rintro ⟨⟨b', hb'⟩, ha⟩
      obtain ⟨b, h⟩ := (hf b' a).mpr ha
      exact ⟨b, b', hb', h⟩

theorem exists_of_forall₂ {R : α → β → Prop} {as : List α} {bs : List β}
    (h : List.Forall₂ R as bs) (a : α) (ha : a ∈ as) : ∃ b ∈ bs, R a b := by
  induction h with
  | nil => cases ha
  | @cons a' b' as bs hab _ ih =>
    rcases List.mem_cons.mp ha with rfl | ha
    · exact ⟨b', List.mem_cons_self, hab⟩
    · obtain ⟨b, hb, hr⟩ := ih ha
      exact ⟨b, List.mem_cons_of_mem _ hb, hr⟩

theorem exists_forall₂ {R : α → β → Prop} {as : List α} (h : ∀ a ∈ as, ∃ b, R a b) :
    ∃ bs, List.Forall₂ R as bs := by
  induction as with
  | nil => exact ⟨[], .nil⟩
  | cons a as ih =>
    obtain ⟨b, hb⟩ := h a List.mem_cons_self
    obtain ⟨bs, hbs⟩ := ih fun a' ha' => h a' (List.mem_cons_of_mem _ ha')
    exact ⟨b :: bs, .cons hb hbs⟩

theorem mapM_isOk_iff {f : α → Except ε β} {as : List α} :
    (∃ bs, as.mapM f = .ok bs) ↔ ∀ a ∈ as, ∃ b, f a = .ok b := by
  simp only [mapM_eq_ok]
  constructor
  · rintro ⟨bs, h⟩ a ha
    obtain ⟨b, -, hb⟩ := exists_of_forall₂ h a ha
    exact ⟨b, hb⟩
  · exact exists_forall₂

/-! ### Computations that fail -/

theorem bind_eq_error {r : Except ε α} {f : α → Except ε β} {e : ε} :
    (r >>= f) = .error e ↔ r = .error e ∨ ∃ a, r = .ok a ∧ f a = .error e := by
  cases r with
  | error e' => simp [bind, Except.bind]
  | ok a => simp [bind, Except.bind]

theorem mapError_eq_error {r : Except ε α} {f : ε → ε'} {e' : ε'} :
    r.mapError f = .error e' ↔ ∃ e, r = .error e ∧ f e = e' := by
  cases r <;> simp [Except.mapError]

theorem foldlM_eq_error {f : β → α → Except ε β} {init : β} {as : List α} {e : ε}
    (h : as.foldlM f init = .error e) : ∃ a ∈ as, ∃ b, f b a = .error e := by
  induction as generalizing init with
  | nil => cases h
  | cons a as ih =>
    rw [List.foldlM_cons, bind_eq_error] at h
    rcases h with h | ⟨b, -, h⟩
    · exact ⟨a, List.mem_cons_self, init, h⟩
    · obtain ⟨a', ha', hf⟩ := ih h
      exact ⟨a', List.mem_cons_of_mem a ha', hf⟩

theorem mapM_eq_error {f : α → Except ε β} {as : List α} {e : ε} (h : as.mapM f = .error e) :
    ∃ a ∈ as, f a = .error e := by
  induction as with
  | nil => cases h
  | cons a as ih =>
    rw [List.mapM_cons, bind_eq_error] at h
    rcases h with h | ⟨b, -, h⟩
    · exact ⟨a, List.mem_cons_self, h⟩
    · rcases bind_eq_error.mp h with h | ⟨bs, -, h⟩
      · obtain ⟨a', ha', hf⟩ := ih h
        exact ⟨a', List.mem_cons_of_mem a ha', hf⟩
      · cases h

/-! ### The front of a list -/

/-- A front that ends where the rest begins differently is found by its kind. -/
theorem front_and_rest {p : α → Bool} {front rest : List α} (hfront : ∀ a ∈ front, p a = true)
    (hrest : ∀ a ∈ rest.head?, p a = false) :
    (front ++ rest).takeWhile p = front ∧ (front ++ rest).dropWhile p = rest := by
  rw [List.takeWhile_append_of_pos hfront, List.dropWhile_append_of_pos hfront]
  cases rest with
  | nil => exact ⟨List.append_nil front, rfl⟩
  | cons a rest =>
    have ha : ¬ p a = true := by
      rw [hrest a rfl]
      decide
    rw [List.takeWhile_cons_of_neg ha, List.dropWhile_cons_of_neg ha, List.append_nil]
    exact ⟨rfl, rfl⟩

/-! ### The last of a kind -/

/-- The last element of a kind, if there is one. -/
def LastOf (p : α → Prop) (l : List α) : Option α → Prop
  | none => ∀ a ∈ l, ¬ p a
  | some a => ∃ before behind, l = before ++ a :: behind ∧ p a ∧ ∀ b ∈ behind, ¬ p b

theorem lastOf_nil_iff {p : α → Prop} {last : Option α} : LastOf p [] last ↔ last = none := by
  cases last <;> simp [LastOf]

theorem concat_eq_append_cons {l before behind : List α} {a b : α} :
    l ++ [a] = before ++ b :: behind ↔
      (behind = [] ∧ a = b ∧ l = before) ∨ ∃ t, behind = t ++ [a] ∧ l = before ++ b :: t := by
  constructor
  · intro h
    rcases List.eq_nil_or_concat' behind with rfl | ⟨t, c, rfl⟩
    · obtain ⟨hl, ha⟩ := List.append_inj' h rfl
      exact .inl ⟨rfl, List.singleton_inj.mp ha, hl⟩
    · rw [← List.cons_append, ← List.append_assoc] at h
      obtain ⟨hl, ha⟩ := List.append_inj' h rfl
      exact .inr ⟨t, by rw [List.singleton_inj.mp ha], hl⟩
  · rintro (⟨rfl, rfl, rfl⟩ | ⟨t, rfl, rfl⟩)
    · rfl
    · rw [List.append_assoc, List.cons_append]

theorem lastOf_concat_of_pos {p : α → Prop} {l : List α} {a : α} {last : Option α} (ha : p a) :
    LastOf p (l ++ [a]) last ↔ last = some a := by
  constructor
  · intro h
    cases last with
    | none => exact absurd ha (h a (by simp))
    | some b =>
      obtain ⟨before, behind, hl, -, hno⟩ := h
      obtain ⟨-, rfl, -⟩ | ⟨t, rfl, -⟩ := concat_eq_append_cons.mp hl
      · rfl
      · exact absurd ha (hno a (by simp))
  · rintro rfl
    exact ⟨l, [], rfl, ha, by simp⟩

theorem lastOf_concat_of_neg {p : α → Prop} {l : List α} {a : α} {last : Option α} (ha : ¬ p a) :
    LastOf p (l ++ [a]) last ↔ LastOf p l last := by
  cases last with
  | none => simp [LastOf, or_imp, forall_and, ha]
  | some b =>
    constructor
    · rintro ⟨before, behind, hl, hb, hno⟩
      obtain ⟨-, rfl, -⟩ | ⟨t, rfl, rfl⟩ := concat_eq_append_cons.mp hl
      · exact absurd hb ha
      · exact ⟨before, t, rfl, hb, fun c hc => hno c (by simp [hc])⟩
    · rintro ⟨before, behind, rfl, hb, hno⟩
      refine ⟨before, behind ++ [a], by simp, hb, fun c hc => ?_⟩
      rcases List.mem_append.mp hc with hc | hc
      · exact hno c hc
      · exact List.mem_singleton.mp hc ▸ ha

theorem LastOf.eq_of_concat {p : α → Prop} {l : List α} {a : α} {last : Option α}
    (h : LastOf p (l ++ [a]) last) (ha : p a) : last = some a := (lastOf_concat_of_pos ha).mp h

theorem LastOf.of_concat {p : α → Prop} {l : List α} {a : α} {last : Option α}
    (h : LastOf p (l ++ [a]) last) (ha : ¬ p a) : LastOf p l last := (lastOf_concat_of_neg ha).mp h

theorem exists_lastOf (p : α → Prop) (l : List α) : ∃ last, LastOf p l last := by
  induction l using List.reverseRecOn with
  | nil => exact ⟨none, lastOf_nil_iff.mpr rfl⟩
  | append_singleton l a ih =>
    obtain ⟨last, h⟩ := ih
    by_cases ha : p a
    · exact ⟨some a, (lastOf_concat_of_pos ha).mpr rfl⟩
    · exact ⟨last, (lastOf_concat_of_neg ha).mpr h⟩

theorem LastOf.congr {p q : α → Prop} {l : List α} {last : Option α} (h : LastOf p l last)
    (hpq : ∀ a, p a ↔ q a) : LastOf q l last := by
  have heq : p = q := funext fun a => propext (hpq a)
  exact heq ▸ h

theorem lastOf_filter (p : α → Prop) (keep : α → Bool) (l : List α) (last : Option α) :
    LastOf p (l.filter keep) last ↔ LastOf (fun a => p a ∧ keep a = true) l last := by
  induction l using List.reverseRecOn with
  | nil => rw [List.filter_nil, lastOf_nil_iff, lastOf_nil_iff]
  | append_singleton l a ih =>
    rw [List.filter_append]
    by_cases hkeep : keep a = true
    · rw [List.filter_singleton, hkeep, cond_true]
      by_cases hp : p a
      · rw [lastOf_concat_of_pos hp, lastOf_concat_of_pos ⟨hp, hkeep⟩]
      · rw [lastOf_concat_of_neg hp, lastOf_concat_of_neg fun h => hp h.1, ih]
    · rw [List.filter_singleton, Bool.eq_false_iff.mpr hkeep, cond_false, List.append_nil,
        lastOf_concat_of_neg fun h => hkeep h.2, ih]

theorem LastOf.map {p : β → Prop} {l : List α} {last : Option α} (f : α → β)
    (h : LastOf (fun a => p (f a)) l last) : LastOf p (l.map f) (last.map f) := by
  cases last with
  | none =>
    intro b hb
    obtain ⟨a, ha, rfl⟩ := List.mem_map.mp hb
    exact h a ha
  | some a =>
    obtain ⟨before, behind, rfl, ha, hno⟩ := h
    refine ⟨before.map f, behind.map f, by simp, ha, fun b hb => ?_⟩
    obtain ⟨c, hc, rfl⟩ := List.mem_map.mp hb
    exact hno c hc

theorem LastOf.unique {p : α → Prop} {l : List α} {last last' : Option α} (h : LastOf p l last)
    (h' : LastOf p l last') : last = last' := by
  induction l using List.reverseRecOn with
  | nil => rw [lastOf_nil_iff.mp h, lastOf_nil_iff.mp h']
  | append_singleton l a ih =>
    by_cases ha : p a
    · rw [h.eq_of_concat ha, h'.eq_of_concat ha]
    · exact ih (h.of_concat ha) (h'.of_concat ha)

theorem LastOf.mem {p : α → Prop} {l : List α} {a : α} (h : LastOf p l (some a)) : a ∈ l ∧ p a := by
  obtain ⟨before, behind, rfl, ha, -⟩ := h
  exact ⟨by simp, ha⟩

theorem LastOf.append {p : α → Prop} {l : List α} {a : α} (h : LastOf p l (some a))
    (front : List α) :
    LastOf p (front ++ l) (some a) := by
  obtain ⟨before, behind, rfl, ha, hno⟩ := h
  exact ⟨front ++ before, behind, (List.append_assoc ..).symm, ha, hno⟩

theorem forall₂_concat_left {R : α → β → Prop} {as : List α} {a : α} {bs : List β}
    (h : List.Forall₂ R (as ++ [a]) bs) :
    ∃ bs' b, bs = bs' ++ [b] ∧ List.Forall₂ R as bs' ∧ R a b := by
  have hreverse := List.forall₂_reverse_iff.mpr h
  rw [List.reverse_concat] at hreverse
  obtain ⟨b, bs', hab, hrest, heq⟩ := List.forall₂_cons_left_iff.mp hreverse
  refine ⟨bs'.reverse, b, ?_, ?_, hab⟩
  · rw [← List.reverse_cons, ← heq, List.reverse_reverse]
  · rw [← List.forall₂_reverse_iff, List.reverse_reverse]
    exact hrest

/-- The last of a kind on one side of a correspondence stands for the last on the other side. -/
theorem LastOf.rel {R : α → β → Prop} {p : α → Prop} {q : β → Prop} {as : List α} {bs : List β}
    (h : List.Forall₂ R as bs) (hpq : ∀ a b, R a b → (p a ↔ q b)) {last : Option α}
    {last' : Option β} (ha : LastOf p as last) (hb : LastOf q bs last') :
    Option.Rel R last last' := by
  induction as using List.reverseRecOn generalizing bs last' with
  | nil =>
    cases List.forall₂_nil_left_iff.mp h
    rw [lastOf_nil_iff.mp ha, lastOf_nil_iff.mp hb]
    exact .none
  | append_singleton as a ih =>
    obtain ⟨bs, b, rfl, hrest, hab⟩ := forall₂_concat_left h
    by_cases hpa : p a
    · have hqb := (hpq a b hab).mp hpa
      rw [ha.eq_of_concat hpa, hb.eq_of_concat hqb]
      exact .some hab
    · have hqb : ¬ q b := fun hqb => hpa ((hpq a b hab).mpr hqb)
      exact ih hrest (ha.of_concat hpa) (hb.of_concat hqb)

/-- The last of a kind among the parts that elements have, of which each has one at most. -/
theorem LastOf.flatMap {p : α → Prop} {q : β → Prop} {f : α → List β} {l : List α}
    {last : Option α} (hf : ∀ a ∈ l, (f a = [] ∧ ¬ p a) ∨ ∃ b, f a = [b] ∧ (p a ↔ q b))
    (h : LastOf p l last) : LastOf q (l.flatMap f) (last.bind fun a => (f a).head?) := by
  induction l using List.reverseRecOn generalizing last with
  | nil =>
    rw [lastOf_nil_iff.mp h]
    exact lastOf_nil_iff.mpr rfl
  | append_singleton l a ih =>
    have hrest : ∀ a ∈ l, (f a = [] ∧ ¬ p a) ∨ ∃ b, f a = [b] ∧ (p a ↔ q b) :=
      fun a' ha' => hf a' (List.mem_append_left _ ha')
    rw [List.flatMap_append, List.flatMap_singleton]
    obtain ⟨hnil, hp⟩ | ⟨b, hb, hpq⟩ := hf a (by simp)
    · rw [hnil, List.append_nil]
      exact ih hrest (h.of_concat hp)
    · by_cases hp : p a
      · rw [h.eq_of_concat hp, hb]
        exact (lastOf_concat_of_pos (hpq.mp hp)).mpr (by simp [hb])
      · rw [hb]
        exact (lastOf_concat_of_neg fun hq => hp (hpq.mpr hq)).mpr (ih hrest (h.of_concat hp))

theorem LastOf.congr_mem {p q : α → Prop} {l : List α} {last : Option α} (h : LastOf p l last)
    (hpq : ∀ a ∈ l, (p a ↔ q a)) : LastOf q l last := by
  cases last with
  | none => exact fun a ha hq => h a ha ((hpq a ha).mpr hq)
  | some a =>
    obtain ⟨before, behind, rfl, ha, hno⟩ := h
    refine ⟨before, behind, rfl, (hpq a (by simp)).mp ha, fun b hb hq => ?_⟩
    exact hno b hb ((hpq b (by simp [hb])).mpr hq)

end OlapClient
