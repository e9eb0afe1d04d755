import Mathlib.Algebra.BigOperators.Ring.List
import OlapClient.Proofs.Coordinate.Ordinals

/-!
# Weights that do not fit

The weight of an axis is the number of cells that the axes before it span, and it stays at the
largest count once that number does not fit in 64 bits. Where the exact sum of a vector of
coordinates fits, such a weight meets a coordinate of zero only: no term and no sum on the way is
too large, the ordinal is the exact sum, and no two vectors share one.
-/

namespace OlapClient.Coordinate

/-! ### Saturated products -/

/-- To saturate on the way or at the end is the same: a product that reached the largest count stays
there, unless an axis is empty. -/
theorem saturatingProduct_min (product length : Nat) :
    saturatingProduct (min product Text.maxCount) length =
      min (product * length) Text.maxCount := by
  rw [saturatingProduct]
  rcases Nat.le_total product Text.maxCount with hle | hle
  · rw [Nat.min_eq_left hle]
  · rw [Nat.min_eq_right hle]
    rcases Nat.eq_zero_or_pos length with rfl | hpos
    · rw [Nat.mul_zero, Nat.mul_zero]
    · have hmax : Text.maxCount ≤ Text.maxCount * length := Nat.le_mul_of_pos_right _ hpos
      have hprod : Text.maxCount * length ≤ product * length := Nat.mul_le_mul_right length hle
      rw [Nat.min_eq_right hmax, Nat.min_eq_right (Nat.le_trans hmax hprod)]

theorem foldl_saturatingProduct_min (product : Nat) (lengths : List Nat) :
    lengths.foldl saturatingProduct (min product Text.maxCount) =
      min (product * lengths.prod) Text.maxCount := by
  induction lengths generalizing product with
  | nil => rw [List.prod_nil, Nat.mul_one, List.foldl_nil]
  | cons length lengths ih =>
    rw [List.foldl_cons, saturatingProduct_min, ih, List.prod_cons, Nat.mul_assoc]

/-- The saturated product of some lengths is the exact one, as far as 64 bits go. -/
theorem foldl_saturatingProduct_eq (lengths : List Nat) :
    lengths.foldl saturatingProduct 1 = min lengths.prod Text.maxCount := by
  have hone : min 1 Text.maxCount = 1 := by decide
  rw [← hone, foldl_saturatingProduct_min, Nat.one_mul]

/-- A coordinate times a weight that may have saturated is the exact term, if that fits: otherwise
the weight is too large for any coordinate but zero. -/
theorem mul_min_of_fits (c weight : Nat) (h : c * weight ≤ Text.maxCount) :
    c * min weight Text.maxCount = c * weight := by
  rcases Nat.le_total weight Text.maxCount with hle | hle
  · rw [Nat.min_eq_left hle]
  · rcases Nat.eq_zero_or_pos c with rfl | hpos
    · rw [Nat.zero_mul, Nat.zero_mul]
    · have hterm : weight ≤ c * weight := Nat.le_mul_of_pos_left weight hpos
      rw [Nat.min_eq_right hle, Nat.le_antisymm hle (Nat.le_trans hterm h)]

/-! ### Exact sums -/

theorem weigh_nil (lengths : List Nat) : weigh lengths [] = 0 := rfl

/-- The sum in the form in which each axis counts the axes behind it. -/
theorem weigh_cons (length c : Nat) (lengths coordinates : List Nat) :
    weigh (length :: lengths) (c :: coordinates) = c + length * weigh lengths coordinates := by
  have hterm : (fun i c' => c' * ((length :: lengths).take (i + 1)).prod) =
      fun (i : Nat) (c' : Nat) => length * (c' * (lengths.take i).prod) := by
    funext i c'
    rw [List.take_succ_cons, List.prod_cons, Nat.mul_left_comm]
  rw [weigh, weigh, List.mapIdx_cons, List.sum_cons, hterm, List.take_zero, List.prod_nil,
    Nat.mul_one, List.mapIdx_eq_zipIdx_map, List.mapIdx_eq_zipIdx_map, ← List.sum_map_mul_left]

theorem weigh_digits (n : Nat) (lengths : List Nat) (h : n < lengths.prod) :
    weigh lengths (digits n lengths) = n := by
  induction lengths generalizing n with
  | nil =>
    rw [List.prod_nil] at h
    rw [digits, weigh_nil]
    omega
  | cons length lengths ih =>
    rw [digits, weigh_cons, ih _ (pos_of_lt_prod n length lengths h).2, Nat.mod_add_div]

/-- Vectors in range differ in their sums. -/
theorem InRange.eq_of_weigh_eq {coordinates other lengths : List Nat}
    (h : InRange coordinates lengths) (ho : InRange other lengths)
    (hsum : weigh lengths coordinates = weigh lengths other) : coordinates = other := by
  obtain ⟨n, hn, rfl⟩ := h.exists_digits
  obtain ⟨m, hm, rfl⟩ := ho.exists_digits
  rw [weigh_digits n lengths hn, weigh_digits m lengths hm] at hsum
  rw [hsum]

theorem term_le_weigh {coordinates lengths : List Nat} (h : InRange coordinates lengths) (i c : Nat)
    (hc : coordinates[i]? = some c) : c * (lengths.take i).prod ≤ weigh lengths coordinates := by
  induction h generalizing i with
  | nil => cases hc
  | @cons c' length coordinates lengths _ _ ih =>
    rw [weigh_cons]
    cases i with
    | zero =>
      obtain rfl : c' = c := by simpa using hc
      rw [List.take_zero, List.prod_nil, Nat.mul_one]
      exact Nat.le_add_right _ _
    | succ i =>
      rw [List.take_succ_cons, List.prod_cons, Nat.mul_left_comm]
      exact Nat.le_add_left_of_le (Nat.mul_le_mul_left length (ih i (by simpa using hc)))

theorem weigh_take_le {coordinates lengths : List Nat} (h : InRange coordinates lengths) (k : Nat) :
    weigh lengths (coordinates.take k) ≤ weigh lengths coordinates := by
  induction h generalizing k with
  | nil => rw [List.take_nil]
  | @cons c length coordinates lengths _ _ ih =>
    cases k with
    | zero => exact Nat.zero_le _
    | succ k =>
      rw [List.take_succ_cons, weigh_cons, weigh_cons]
      exact Nat.add_le_add_left (Nat.mul_le_mul_left length (ih k)) c

/-! ### The loop over the axes -/

/-- The weight of an axis as it is kept along the axes. -/
def runningWeight (lengths : List Nat) (axis : Nat) : Nat :=
  (lengths.take axis).foldl saturatingProduct 1

theorem eq_of_fitting? {n m : Nat} (h : fitting? n = some m) : m = n :=
  (Option.some.inj (Option.ite_none_right_eq_some.mp h).2).symm

/-- What the steps on 64-bit counts give is the sum. -/
theorem weightedSum_of_weightedSum64? (axis weight sum : Nat) (pairs : List (Nat × Nat))
    (result : Except CoordinateError Nat)
    (h : weightedSum64? axis weight sum pairs = some result) :
    weightedSum axis weight sum pairs = result := by
  induction pairs generalizing axis weight sum with
  | nil => exact Option.some.inj h
  | cons pair pairs ih =>
    obtain ⟨c, length⟩ := pair
    rw [weightedSum64?] at h
    rw [weightedSum]
    by_cases hc : c < length
    · rw [if_pos hc] at h ⊢
      obtain ⟨term, hterm, h⟩ := Option.bind_eq_some_iff.mp h
      obtain ⟨sum', hsum, h⟩ := Option.bind_eq_some_iff.mp h
      rw [eq_of_fitting? hsum, eq_of_fitting? hterm] at h
      exact ih _ _ _ h
    · rw [if_neg hc] at h ⊢
      exact Option.some.inj h

/-- Along the axes the weight is the saturated one, and what is still to come fits on top of the
sum. -/
theorem weightedSum64?_of_fits (axis weight sum : Nat) {coordinates lengths : List Nat}
    (h : InRange coordinates lengths)
    (hfit : sum + weight * weigh lengths coordinates ≤ Text.maxCount) :
    weightedSum64? axis (min weight Text.maxCount) sum (coordinates.zip lengths) =
      some (.ok (sum + weight * weigh lengths coordinates)) := by
  induction h generalizing axis weight sum with
  | nil => rfl
  | @cons c length coordinates lengths hc hrest ih =>
    have hsum : sum + weight * weigh (length :: lengths) (c :: coordinates) =
        sum + c * weight + weight * length * weigh lengths coordinates := by
      rw [weigh_cons]
      ring
    rw [hsum] at hfit ⊢
    have hterm := mul_min_of_fits c weight (by omega)
    rw [List.zip_cons_cons, weightedSum64?, if_pos hc, hterm,
      saturatingProduct_min weight length, fitting?_eq _ (by omega)]
    simp only [bind, Option.bind, fitting?_eq (sum + c * weight) (by omega)]
    exact ih (axis + 1) (weight * length) (sum + c * weight) hfit

theorem toOrdinal64?_of_fits {coordinates lengths : List Nat} (h : InRange coordinates lengths)
    (hfit : weigh lengths coordinates ≤ Text.maxCount) :
    toOrdinal64? lengths coordinates = some (.ok (weigh lengths coordinates)) := by
  have hsum := weightedSum64?_of_fits 0 1 0 h (by omega)
  have hone : min 1 Text.maxCount = 1 := by decide
  rw [hone, Nat.zero_add, Nat.one_mul] at hsum
  rw [toOrdinal64?, if_pos h.length_eq, hsum]

theorem toOrdinal_of_fits {coordinates lengths : List Nat} (h : InRange coordinates lengths)
    (hfit : weigh lengths coordinates ≤ Text.maxCount) :
    toOrdinal lengths coordinates = .ok (weigh lengths coordinates) := by
  have h64 := toOrdinal64?_of_fits h hfit
  rw [toOrdinal64?, if_pos h.length_eq] at h64
  rw [toOrdinal, if_pos h.length_eq]
  exact weightedSum_of_weightedSum64? _ _ _ _ _ h64

/-- Over any axes, whether or not their cells can be counted, the ordinal of coordinates in range is
their exact weighted sum if that fits in 64 bits. Then no step leaves 64 bits: neither a coordinate
times the weight that is kept, which is the exact term, nor a sum on the way. Coordinates with such
a sum share their ordinal with no others. -/
theorem toOrdinal_exact (lengths coordinates : List Nat) (hr : InRange coordinates lengths)
    (hfit : weigh lengths coordinates ≤ Text.maxCount) :
    toOrdinal lengths coordinates = .ok (weigh lengths coordinates) ∧
    toOrdinal64? lengths coordinates = some (.ok (weigh lengths coordinates)) ∧
    (∀ axis c, coordinates[axis]? = some c →
      c * runningWeight lengths axis = c * (lengths.take axis).prod ∧
      c * runningWeight lengths axis ≤ Text.maxCount) ∧
    (∀ axis, weigh lengths (coordinates.take axis) ≤ Text.maxCount) ∧
    ∀ other, InRange other lengths → weigh lengths other ≤ Text.maxCount →
      toOrdinal lengths other = toOrdinal lengths coordinates → other = coordinates := by
  refine ⟨toOrdinal_of_fits hr hfit, toOrdinal64?_of_fits hr hfit, ?_, ?_, ?_⟩
  · intro axis c hc
    have hterm := Nat.le_trans (term_le_weigh hr axis c hc) hfit
    have hexact : c * runningWeight lengths axis = c * (lengths.take axis).prod := by
      rw [runningWeight, foldl_saturatingProduct_eq, mul_min_of_fits c _ hterm]
    exact ⟨hexact, hexact ▸ hterm⟩
  · exact fun axis => Nat.le_trans (weigh_take_le hr axis) hfit
  · intro other hother hfit' heq
    rw [toOrdinal_of_fits hother hfit', toOrdinal_of_fits hr hfit] at heq
    exact hother.eq_of_weigh_eq hr (Except.ok.inj heq)

/-- The weight of the last two axes has saturated. -/
theorem wide_sum_exact :
    cellCount [0x8000000000000000, 4, 0x100000000, 3] =
      .error (.tooManyCells [0x8000000000000000, 4, 0x100000000, 3]) ∧
    toOrdinal [0x8000000000000000, 4, 0x100000000, 3] [7, 1, 0, 0] = .ok 0x8000000000000007 ∧
    0 * runningWeight [0x8000000000000000, 4, 0x100000000, 3] 3 ≤ Text.maxCount := by
  have hr : InRange [7, 1, 0, 0] [0x8000000000000000, 4, 0x100000000, 3] :=
    .cons (by decide) (.cons (by decide) (.cons (by decide) (.cons (by decide) .nil)))
  have hsum : weigh [0x8000000000000000, 4, 0x100000000, 3] [7, 1, 0, 0] = 0x8000000000000007 := rfl
  obtain ⟨hto, -, hterms, -⟩ := toOrdinal_exact _ _ hr (by rw [hsum]; decide)
  exact ⟨rfl, hsum ▸ hto, (hterms 3 0 rfl).2⟩

end OlapClient.Coordinate
