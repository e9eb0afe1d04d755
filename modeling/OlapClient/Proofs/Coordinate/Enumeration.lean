import OlapClient.Coordinate.Space
import OlapClient.Proofs.Coordinate.Saturation

/-!
# Enumeration of a space

The odometer of a space counts: after `k` advances it stands at the digits of `k` in the mixed radix
of the lengths, the fastest axis being the least significant, and it runs out after as many points
as the product of the lengths. That product need not fit in 64 bits; where it does, the count of the
points that are left is exact at every place.
-/

namespace OlapClient.Coordinate

/-! ### Digits -/

theorem digits_zero (lengths : List Nat) : digits 0 lengths = List.replicate lengths.length 0 := by
  induction lengths with
  | nil => rfl
  | cons length lengths ih =>
    rw [digits, Nat.zero_mod, Nat.zero_div, ih, List.length_cons, List.replicate_succ]

theorem digits_injective (m n : Nat) (lengths : List Nat) (hm : m < lengths.prod)
    (hn : n < lengths.prod) (h : digits m lengths = digits n lengths) : m = n := by
  induction lengths generalizing m n with
  | nil =>
    rw [List.prod_nil] at hm hn
    omega
  | cons length lengths ih =>
    obtain ⟨hmod, hrest⟩ := List.cons.inj h
    have hdiv : m / length = n / length :=
      ih _ _ (pos_of_lt_prod m length lengths hm).2 (pos_of_lt_prod n length lengths hn).2 hrest
    rw [← Nat.mod_add_div m length, ← Nat.mod_add_div n length, hmod, hdiv]

theorem InRange.reverse {coordinates lengths : List Nat} (h : InRange coordinates lengths) :
    InRange coordinates.reverse lengths.reverse := List.forall₂_reverse_iff.mpr h

/-! ### The odometer -/

theorem div_add_one (n length : Nat) (hpos : 0 < length) :
    (n % length + 1 < length ∧ (n + 1) % length = n % length + 1 ∧ (n + 1) / length = n / length) ∨
    (n % length + 1 = length ∧ (n + 1) % length = 0 ∧ (n + 1) / length = n / length + 1) := by
  have hlt := Nat.mod_lt n hpos
  have hn := Nat.mod_add_div n length
  rcases Nat.lt_or_ge (n % length + 1) length with hc | hc
  · have hsum : n + 1 = n % length + 1 + length * (n / length) := by omega
    refine .inl ⟨hc, ?_, ?_⟩
    · rw [hsum, Nat.add_mul_mod_self_left, Nat.mod_eq_of_lt hc]
    · rw [hsum, Nat.add_mul_div_left _ _ hpos, Nat.div_eq_of_lt hc, Nat.zero_add]
  · have hfull : n % length + 1 = length := by omega
    have hsum : n + 1 = length * (n / length + 1) := by
      rw [Nat.mul_add]
      omega
    refine .inr ⟨hfull, ?_, ?_⟩
    · rw [hsum, Nat.mul_mod_right]
    · rw [hsum, Nat.mul_div_cancel_left _ hpos]

/-- The odometer advances as numbers do, and runs out where the digits do. -/
theorem successor_digits (n : Nat) (lengths : List Nat) (h : n < lengths.prod) :
    successor lengths (digits n lengths) =
      if n + 1 < lengths.prod then some (digits (n + 1) lengths) else none := by
  induction lengths generalizing n with
  | nil =>
    have hend : ¬ n + 1 < ([] : List Nat).prod := by
      rw [List.prod_nil]
      omega
    rw [if_neg hend]
    rfl
  | cons length lengths ih =>
    obtain ⟨hpos, hrest⟩ := pos_of_lt_prod n length lengths h
    have hn := Nat.mod_add_div n length
    rw [digits, successor, digits, List.prod_cons]
    obtain ⟨hc, hmod, hdiv⟩ | ⟨hc, hmod, hdiv⟩ := div_add_one n length hpos
    · have hlt : n + 1 < length * lengths.prod := by
        have hle : length * (n / length + 1) ≤ length * lengths.prod :=
          Nat.mul_le_mul_left length hrest
        rw [Nat.mul_add] at hle
        omega
      rw [if_pos hc, if_pos hlt, hmod, hdiv]
    · have hnot : ¬ n % length + 1 < length := by omega
      have hsum : n + 1 = length * (n / length + 1) := by
        rw [Nat.mul_add]
        omega
      -- the axis is full: the carry goes into the axes behind it
      have hcarry : n + 1 < length * lengths.prod ↔ n / length + 1 < lengths.prod := by
        rw [hsum]
        exact Nat.mul_lt_mul_left hpos
      rw [if_neg hnot, ih _ hrest, hmod, hdiv]
      by_cases hend : n / length + 1 < lengths.prod
      · rw [if_pos hend, if_pos (hcarry.mpr hend)]
        rfl
      · rw [if_neg hend, if_neg (fun hlt => hend (hcarry.mp hlt))]
        rfl

namespace Space

variable (s : Space)

/-- The point at a number, which is written in the mixed radix of the lengths. -/
def pointAt (k : Nat) : List Nat :=
  match s.order with
  | .little => digits k s.lengths
  | .big => (digits k s.lengths.reverse).reverse

theorem pointAt_zero : s.pointAt 0 = List.replicate s.arity 0 := by
  have hl : s.lengths.length = s.arity := List.length_map ..
  rw [pointAt]
  cases s.order with
  | little => simp only [digits_zero, hl]
  | big => simp only [digits_zero, List.length_reverse, List.reverse_replicate, hl]

theorem successorOf_pointAt (k : Nat) (h : k < s.lengths.prod) :
    s.successorOf (s.pointAt k) =
      if k + 1 < s.lengths.prod then some (s.pointAt (k + 1)) else none := by
  rw [successorOf, pointAt, pointAt]
  cases s.order with
  | little => exact successor_digits k s.lengths h
  | big =>
    have hp : s.lengths.reverse.prod = s.lengths.prod := List.prod_reverse s.lengths
    have hs := successor_digits k s.lengths.reverse (by omega)
    simp only [List.reverse_reverse, hs, hp]
    split <;> rfl

theorem pointAt_inRange (k : Nat) (h : k < s.lengths.prod) : InRange (s.pointAt k) s.lengths := by
  rw [pointAt]
  cases s.order with
  | little => exact digits_inRange k s.lengths h
  | big =>
    rw [← List.prod_reverse] at h
    have hr := (digits_inRange k s.lengths.reverse h).reverse
    rwa [List.reverse_reverse] at hr

theorem exists_pointAt (point : List Nat) (h : InRange point s.lengths) :
    ∃ k, k < s.lengths.prod ∧ s.pointAt k = point := by
  unfold pointAt
  cases s.order with
  | little => exact h.exists_digits
  | big =>
    obtain ⟨k, hk, hd⟩ := h.reverse.exists_digits
    rw [List.prod_reverse] at hk
    exact ⟨k, hk, by simp only [hd, List.reverse_reverse]⟩

theorem pointAt_injective (j k : Nat) (hj : j < s.lengths.prod) (hk : k < s.lengths.prod)
    (h : s.pointAt j = s.pointAt k) : j = k := by
  unfold pointAt at h
  cases ho : s.order with
  | little =>
    rw [ho] at h
    exact digits_injective j k s.lengths hj hk h
  | big =>
    rw [ho] at h
    rw [← List.prod_reverse] at hj hk
    exact digits_injective j k _ hj hk (List.reverse_injective h)

/-! ### Void spaces and counts -/

theorem isVoid_iff : s.isVoid = true ↔ ∃ d ∈ s.dimensions, d ≤ 0 := by
  simp [isVoid, List.any_eq_true]

theorem isVoid_eq_false (h : ∀ d ∈ s.dimensions, 0 < d) : s.isVoid = false := by
  rw [← Bool.not_eq_true, isVoid_iff]
  rintro ⟨d, hd, hle⟩
  have hpos := h d hd
  omega

theorem lengths_pos (h : ∀ d ∈ s.dimensions, 0 < d) : ∀ length ∈ s.lengths, 0 < length := by
  intro length hl
  obtain ⟨d, hd, rfl⟩ := List.mem_map.mp hl
  have hpos := h d hd
  omega

end Space

theorem prod_pos (lengths : List Nat) (h : ∀ l ∈ lengths, 0 < l) : 0 < lengths.prod := by
  induction lengths with
  | nil => exact Nat.one_pos
  | cons length lengths ih =>
    rw [List.prod_cons]
    exact Nat.mul_pos (h length List.mem_cons_self) (ih fun l hl => h l (List.mem_cons_of_mem _ hl))

theorem le_mul_prod (product length : Nat) (lengths : List Nat) (h : ∀ l ∈ lengths, 0 < l) :
    product * length ≤ product * (length :: lengths).prod := by
  have hpos := prod_pos lengths h
  rw [List.prod_cons, ← Nat.mul_assoc]
  exact Nat.le_mul_of_pos_right _ hpos

/-- Without an axis of length zero, no product on the way exceeds the last one. -/
theorem productWithin_of_le (product : Nat) (lengths : List Nat) (h : ∀ l ∈ lengths, 0 < l)
    (hfit : product * lengths.prod ≤ Text.maxCount) :
    productWithin product lengths = some (product * lengths.prod) := by
  induction lengths generalizing product with
  | nil => rw [List.prod_nil, Nat.mul_one, productWithin]
  | cons length lengths ih =>
    have hrest : ∀ l ∈ lengths, 0 < l := fun l hl => h l (List.mem_cons_of_mem _ hl)
    have hle := le_mul_prod product length lengths hrest
    rw [productWithin, if_pos (Nat.le_trans hle hfit)]
    rw [List.prod_cons, ← Nat.mul_assoc] at hfit ⊢
    exact ih (product * length) hrest hfit

namespace Space

variable (s : Space)

/-- The size is the exact number of points, as far as 64 bits go. -/
theorem size_eq_min : s.size = min s.lengths.prod Text.maxCount := by
  rw [size]
  by_cases hvoid : s.isVoid = true
  · obtain ⟨d, hd, hle⟩ := s.isVoid_iff.mp hvoid
    have hzero : 0 ∈ s.lengths := List.mem_map.mpr ⟨d, hd, Int.toNat_of_nonpos hle⟩
    rw [if_pos hvoid, List.prod_eq_zero hzero, Nat.zero_min]
  · rw [if_neg hvoid, foldl_saturatingProduct_eq]

theorem size_eq_prod (hfit : s.lengths.prod ≤ Text.maxCount) : s.size = s.lengths.prod := by
  rw [size_eq_min, Nat.min_eq_left hfit]

theorem cellCount_lengths (h : ∀ d ∈ s.dimensions, 0 < d) (hfit : s.lengths.prod ≤ Text.maxCount) :
    cellCount s.lengths = .ok s.lengths.prod := by
  have hone : 1 * s.lengths.prod = s.lengths.prod := Nat.one_mul _
  rw [cellCount, productWithin_of_le 1 s.lengths (s.lengths_pos h) (by omega), hone]

/-! ### Along the enumeration -/

/-- The place in the enumeration after a number of advances. -/
def cursor (s : Space) : Nat → Cursor
  | 0 => s.start
  | k + 1 => (s.advance (cursor s k)).2

/-- What the advance of a number gives, counted from zero. -/
def nth (k : Nat) : Option (List Nat) := (s.advance (s.cursor k)).1

theorem nth_eq_next (k : Nat) : s.nth k = (s.cursor k).next := by
  rw [nth, advance]
  cases hn : (s.cursor k).next <;> rfl

theorem cursor_of_none (k : Nat) (h : (s.cursor k).next = none) :
    s.cursor (k + 1) = s.cursor k := by
  rw [cursor, advance, h]

theorem cursor_of_some (k : Nat) (point : List Nat) (h : (s.cursor k).next = some point) :
    s.cursor (k + 1) = ⟨s.successorOf point, (s.cursor k).remaining - 1⟩ := by
  rw [cursor, advance, h]

/-- A dimension of zero or less leaves nothing, whatever the others are. -/
theorem nth_of_void (h : ∃ d ∈ s.dimensions, d ≤ 0) (k : Nat) : s.nth k = none := by
  rw [nth_eq_next]
  induction k with
  | zero => rw [cursor, start, s.isVoid_iff.mpr h, if_pos rfl]
  | succ k ih => rw [s.cursor_of_none k ih, ih]

theorem next_cursor (h : ∀ d ∈ s.dimensions, 0 < d) (k : Nat) :
    (s.cursor k).next = if k < s.lengths.prod then some (s.pointAt k) else none := by
  induction k with
  | zero =>
    have hpos := prod_pos s.lengths (s.lengths_pos h)
    rw [if_pos hpos, cursor, start, s.isVoid_eq_false h, pointAt_zero]
    rfl
  | succ k ih =>
    by_cases hk : k < s.lengths.prod
    · rw [if_pos hk] at ih
      rw [s.cursor_of_some k _ ih, s.successorOf_pointAt k hk]
    · have hk' : ¬ k + 1 < s.lengths.prod := by omega
      rw [if_neg hk] at ih
      rw [s.cursor_of_none k ih, ih, if_neg hk']

theorem remaining_cursor (h : ∀ d ∈ s.dimensions, 0 < d) (k : Nat) (hk : k ≤ s.lengths.prod) :
    (s.cursor k).remaining = s.size - k := by
  induction k with
  | zero => rfl
  | succ k ih =>
    have hn := s.next_cursor h k
    rw [if_pos (by omega)] at hn
    rw [s.cursor_of_some k _ hn, ih (by omega)]
    exact Nat.sub_sub ..

theorem sizeHint_cursor (h : ∀ d ∈ s.dimensions, 0 < d) (hfit : s.lengths.prod ≤ Text.maxCount)
    (k : Nat) (hk : k ≤ s.lengths.prod) :
    (s.cursor k).sizeHint = (s.lengths.prod - k, s.lengths.prod - k) := by
  have hr := s.remaining_cursor h k hk
  have hn := s.next_cursor h k
  rw [s.size_eq_prod hfit] at hr
  rw [Cursor.sizeHint, hr]
  by_cases hlt : k < s.lengths.prod
  · rw [if_pos hlt] at hn
    rw [hn]
    rfl
  · rw [if_neg hlt] at hn
    have hzero : s.lengths.prod - k = 0 := by omega
    rw [hn, hzero]
    rfl

theorem exists_unique_nth (h : ∀ d ∈ s.dimensions, 0 < d) (point : List Nat)
    (hr : InRange point s.lengths) : ∃! k, s.nth k = some point := by
  obtain ⟨k, hk, hp⟩ := s.exists_pointAt point hr
  refine ⟨k, ?_, ?_⟩
  · simp only [nth_eq_next, s.next_cursor h, if_pos hk, hp]
  · intro j hj
    rw [nth_eq_next, s.next_cursor h] at hj
    by_cases hlt : j < s.lengths.prod
    · rw [if_pos hlt] at hj
      exact s.pointAt_injective j k hlt hk ((Option.some.inj hj).trans hp.symm)
    · rw [if_neg hlt] at hj
      cases hj

/-- The advances of a space give the digits of their numbers, each point of the space once, and then
nothing; the counts are exact as far as they fit in 64 bits. -/
theorem enumeration_counts (s : Space) :
    ((∃ d ∈ s.dimensions, d ≤ 0) → ∀ k, s.nth k = none) ∧
    ((∀ d ∈ s.dimensions, 0 < d) →
      (∀ k < s.lengths.prod, s.nth k = some (match s.order with
        | .little => digits k s.lengths
        | .big => (digits k s.lengths.reverse).reverse)) ∧
      (∀ k ≥ s.lengths.prod, s.nth k = none) ∧
      (∀ point, InRange point s.lengths → ∃! k, s.nth k = some point) ∧
      (∀ k point, s.nth k = some point → InRange point s.lengths) ∧
      (s.lengths.prod ≤ Text.maxCount →
        s.size = s.lengths.prod ∧
        (∀ k ≤ s.lengths.prod,
          (s.cursor k).sizeHint = (s.lengths.prod - k, s.lengths.prod - k)) ∧
        (s.order = .little → ∀ k < s.lengths.prod, ∃ point,
          ofOrdinal s.lengths k = .ok point ∧ s.nth k = some point))) := by
  refine ⟨s.nth_of_void, fun h => ?_⟩
  have hnth : ∀ k < s.lengths.prod, s.nth k = some (s.pointAt k) := by
    intro k hk
    rw [nth_eq_next, s.next_cursor h, if_pos hk]
  have hend : ∀ k ≥ s.lengths.prod, s.nth k = none := by
    intro k hk
    rw [nth_eq_next, s.next_cursor h, if_neg (by omega)]
  refine ⟨hnth, hend, s.exists_unique_nth h, ?_, fun hfit => ?_⟩
  · intro k point hp
    rcases Nat.lt_or_ge k s.lengths.prod with hk | hk
    · rw [hnth k hk] at hp
      exact Option.some.inj hp ▸ s.pointAt_inRange k hk
    · rw [hend k hk] at hp
      cases hp
  · refine ⟨s.size_eq_prod hfit, s.sizeHint_cursor h hfit, fun ho k hk => ?_⟩
    have hp : s.pointAt k = digits k s.lengths := by rw [pointAt, ho]
    exact ⟨s.pointAt k, hp ▸ ofOrdinal_of_lt _ _ (s.cellCount_lengths h hfit) k hk, hnth k hk⟩

/-- A space of more points than 64 bits count, and one that a dimension below zero empties. -/
theorem wide_enumeration_counts :
    nth ⟨[0x100000000, 1, 0x200000000], .big⟩ 0x10000000000000007 =
      some [0x80000000, 0, 7] ∧
    nth ⟨[0x100000000, 1, 0x200000000], .little⟩ 0x10000000000000007 =
      some [7, 0, 0x100000000] ∧
    (cursor ⟨[3, 0x100000000], .big⟩ 0x200000001).sizeHint = (0xFFFFFFFF, 0xFFFFFFFF) ∧
    nth ⟨[0x100000000, -1, 0x200000000], .big⟩ 0 = none := by
  refine ⟨?_, ?_, ?_, (enumeration_counts _).1 ⟨-1, by decide, by decide⟩ 0⟩
  · exact ((enumeration_counts _).2 (by decide)).1 _ (by decide)
  · exact ((enumeration_counts _).2 (by decide)).1 _ (by decide)
  · have h := (enumeration_counts ⟨[3, 0x100000000], .big⟩).2 (by decide)
    exact (h.2.2.2.2 (by decide)).2.1 0x200000001 (by decide)

end Space

end OlapClient.Coordinate
