import Mathlib.Algebra.BigOperators.Group.List.Lemmas
import Mathlib.Data.List.TakeWhile
import OlapClient.Proofs.Coordinate.Enumeration

/-!
# Counting cells over empty axes

Cells are counted axis by axis, and a product that leaves 64 bits is refused at once. An empty axis,
one of length zero, brings the number of cells back to zero, but the axes in front of it decide
whether it is reached: the count is refused exactly if their product does not fit. So the count may
depend on the order of the axes, where a space of the same lengths is empty in every order.
-/

namespace OlapClient.Coordinate

/-! ### Axes in front of an empty one -/

/-- The lengths in front of the first empty axis. -/
def frontLengths (lengths : List Nat) : List Nat := lengths.takeWhile fun length => 0 < length

/-- The lengths of the axes that are not empty. -/
def filledLengths (lengths : List Nat) : List Nat := lengths.filter fun length => 0 < length

theorem frontLengths_pos (lengths : List Nat) : ∀ l ∈ frontLengths lengths, 0 < l := by
  intro l hl
  simpa using List.mem_takeWhile_imp hl

theorem filledLengths_pos (lengths : List Nat) : ∀ l ∈ filledLengths lengths, 0 < l := by
  intro l hl
  simpa using List.of_mem_filter hl

theorem frontLengths_eq_self {lengths : List Nat} (h : 0 ∉ lengths) :
    frontLengths lengths = lengths := by
  rw [frontLengths, List.takeWhile_eq_self_iff]
  intro l hl
  have hne : l ≠ 0 := fun hzero => h (hzero ▸ hl)
  exact decide_eq_true (Nat.pos_of_ne_zero hne)

theorem frontLengths_sublist_filled (lengths : List Nat) :
    (frontLengths lengths).Sublist (filledLengths lengths) := by
  have hfront : (frontLengths lengths).filter (fun length => 0 < length) = frontLengths lengths :=
    List.filter_eq_self.mpr fun l hl => decide_eq_true (frontLengths_pos lengths l hl)
  rw [← hfront]
  exact (List.takeWhile_sublist _).filter _

theorem prod_front_le_filled (lengths : List Nat) :
    (frontLengths lengths).prod ≤ (filledLengths lengths).prod :=
  Nat.le_of_dvd (prod_pos _ (filledLengths_pos lengths))
    (frontLengths_sublist_filled lengths).prod_dvd_prod

/-- Along the axes no product exceeds that of the axes in front of the first empty one. -/
theorem prod_take_le_front (lengths : List Nat) (k : Nat) :
    (lengths.take k).prod ≤ (frontLengths lengths).prod := by
  induction lengths generalizing k with
  | nil => simp [frontLengths]
  | cons length lengths ih =>
    cases k with
    | zero => exact prod_pos _ (frontLengths_pos (length :: lengths))
    | succ k =>
      rw [List.take_succ_cons, List.prod_cons]
      by_cases hl : 0 < length
      · have hfront : frontLengths (length :: lengths) = length :: frontLengths lengths :=
          List.takeWhile_cons_of_pos (decide_eq_true hl)
        rw [hfront, List.prod_cons]
        exact Nat.mul_le_mul_left length (ih k)
      · rw [Nat.eq_zero_of_not_pos hl, Nat.zero_mul]
        exact Nat.zero_le _

theorem take_fits_iff (lengths : List Nat) :
    (∀ k, (lengths.take k).prod ≤ Text.maxCount) ↔
      (frontLengths lengths).prod ≤ Text.maxCount := by
  constructor
  · intro h
    have hfront : frontLengths lengths = lengths.take (frontLengths lengths).length :=
      List.prefix_iff_eq_take.mp (List.takeWhile_prefix _)
    rw [hfront]
    exact h _
  · exact fun h k => Nat.le_trans (prod_take_le_front lengths k) h

/-! ### The count -/

/-- The count is exact where there is one, and the axes in front of the first empty one decide
whether there is one. -/
theorem cellCount_eq_ok_iff_front (lengths : List Nat) (total : Nat) :
    cellCount lengths = .ok total ↔
      total = lengths.prod ∧ (frontLengths lengths).prod ≤ Text.maxCount := by
  rw [cellCount_eq_ok_iff, take_fits_iff]

/-- The condition on the axes as they are visited is one on the product of all, unless an empty axis
hides behind a product that does not fit. -/
theorem counts_exactly_iff (lengths : List Nat) :
    (∀ total, cellCount lengths = .ok total ↔
        total = lengths.prod ∧ lengths.prod ≤ Text.maxCount) ↔
      (0 ∈ lengths → (frontLengths lengths).prod ≤ Text.maxCount) := by
  simp only [cellCount_eq_ok_iff_front]
  constructor
  · intro h hzero
    have hprod : lengths.prod = 0 := List.prod_eq_zero hzero
    exact ((h lengths.prod).mpr ⟨rfl, by omega⟩).2
  · intro h total
    by_cases hzero : 0 ∈ lengths
    · have hprod : lengths.prod = 0 := List.prod_eq_zero hzero
      exact and_congr_right fun _ => iff_of_true (h hzero) (by omega)
    · rw [frontLengths_eq_self hzero]

/-! ### The order of the axes -/

/-- With the empty axes at the end, all others are counted before the first of them. -/
theorem filled_le_front_of_filled_first (lengths rest : List Nat) :
    (filledLengths lengths).prod ≤ (frontLengths (filledLengths lengths ++ rest)).prod := by
  have hle := prod_take_le_front (filledLengths lengths ++ rest) (filledLengths lengths).length
  rwa [List.take_left'] at hle
  rfl

/-- All orders of the axes are counted alike exactly if no axis is empty or all the others can be
counted together. -/
theorem counts_alike_iff (lengths : List Nat) :
    (∀ order, order.Perm lengths → ∀ total,
        cellCount order = .ok total ↔ cellCount lengths = .ok total) ↔
      (0 ∈ lengths → (filledLengths lengths).prod ≤ Text.maxCount) := by
  constructor
  · intro halike hzero
    have hprod : lengths.prod = 0 := List.prod_eq_zero hzero
    -- with an empty axis in front the cells are counted, so they are with all empty axes at the end
    have hempty : cellCount (0 :: lengths.erase 0) = .ok 0 := by
      rw [cellCount_eq_ok_iff_front]
      exact ⟨by rw [List.prod_cons, Nat.zero_mul], by simp [frontLengths, Text.maxCount]⟩
    have hcount := (halike _ (List.perm_cons_erase hzero).symm 0).mp hempty
    have hlast :=
      (halike _ (List.filter_append_perm (fun length => 0 < length) lengths) 0).mpr hcount
    have hfront := ((cellCount_eq_ok_iff_front _ _).mp hlast).2
    exact Nat.le_trans (filled_le_front_of_filled_first lengths _) hfront
  · intro hfilled order horder total
    rw [cellCount_eq_ok_iff_front, cellCount_eq_ok_iff_front, horder.prod_eq]
    by_cases hzero : 0 ∈ lengths
    · have hperm : (filledLengths order).prod = (filledLengths lengths).prod :=
        (horder.filter _).prod_eq
      have horder' := prod_front_le_filled order
      have hlengths := prod_front_le_filled lengths
      have hfits := hfilled hzero
      exact and_congr_right fun _ => iff_of_true (by omega) (by omega)
    · have hzero' : 0 ∉ order := fun h => hzero (horder.mem_iff.mp h)
      rw [frontLengths_eq_self hzero, frontLengths_eq_self hzero', horder.prod_eq]

/-! ### Spaces of the same lengths -/

/-- The size of a space is exact as far as 64 bits go, whatever the order of its axes. -/
theorem Space.size_ofLengths (lengths : List Nat) (order : Order) :
    Space.size ⟨lengths.map Int.ofNat, order⟩ = min lengths.prod Text.maxCount := by
  have hlengths : Space.lengths ⟨lengths.map Int.ofNat, order⟩ = lengths := by
    simp [Space.lengths, Function.comp_def]
  rw [Space.size_eq_min, hlengths]

/-- What is counted is the product of the lengths, and the axes in front of the first empty one
decide whether it is counted. The count says whether the product of all lengths fits in 64 bits
exactly if no empty axis hides behind a product that does not; it is independent of the order of the
axes exactly if no axis is empty or all the others can be counted together. A space of the same
lengths has as many points as cells are counted. -/
theorem cellCount_exact_iff (lengths : List Nat) :
    (∀ total, cellCount lengths = .ok total ↔
      total = lengths.prod ∧ (frontLengths lengths).prod ≤ Text.maxCount) ∧
    ((∀ total, cellCount lengths = .ok total ↔
        total = lengths.prod ∧ lengths.prod ≤ Text.maxCount) ↔
      (0 ∈ lengths → (frontLengths lengths).prod ≤ Text.maxCount)) ∧
    ((∀ order, order.Perm lengths → ∀ total,
        cellCount order = .ok total ↔ cellCount lengths = .ok total) ↔
      (0 ∈ lengths → (filledLengths lengths).prod ≤ Text.maxCount)) ∧
    (∀ order, Space.size ⟨lengths.map Int.ofNat, order⟩ = min lengths.prod Text.maxCount) ∧
    ∀ total, cellCount lengths = .ok total →
      ∀ order, Space.size ⟨lengths.map Int.ofNat, order⟩ = total := by
  refine ⟨cellCount_eq_ok_iff_front lengths, counts_exactly_iff lengths, counts_alike_iff lengths,
    Space.size_ofLengths lengths, ?_⟩
  intro total h order
  obtain ⟨rfl, hfit⟩ := cellCount_eq_prod lengths total h
  rw [Space.size_ofLengths, Nat.min_eq_left hfit]

/-- The product leaves 64 bits before the empty axis is reached, although there are no cells; in
another order they are counted. -/
theorem hidden_empty_axis_refused :
    [0x4000000000000000, 4, 0].prod ≤ Text.maxCount ∧
    ¬ (∀ total, cellCount [0x4000000000000000, 4, 0] = .ok total ↔
      total = [0x4000000000000000, 4, 0].prod ∧
        [0x4000000000000000, 4, 0].prod ≤ Text.maxCount) ∧
    cellCount [0, 0x4000000000000000, 4] = .ok 0 := by
  refine ⟨by decide, fun h => ?_, rfl⟩
  have hcount : cellCount [0x4000000000000000, 4, 0] = .ok 0 := (h 0).mpr ⟨rfl, by decide⟩
  have hrefused : cellCount [0x4000000000000000, 4, 0] =
      .error (.tooManyCells [0x4000000000000000, 4, 0]) := rfl
  rw [hrefused] at hcount
  cases hcount

end OlapClient.Coordinate
