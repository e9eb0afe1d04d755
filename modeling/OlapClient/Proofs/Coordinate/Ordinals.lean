import Mathlib.Algebra.BigOperators.Group.List.Basic
import Mathlib.Data.List.Forall2
import Mathlib.Tactic.Ring
import OlapClient.Coordinate.Basic

/-!
# Ordinals and coordinates

Over axes whose cells can be counted, an ordinal below the count and a vector of coordinates in
range determine each other: the coordinates are the digits of the ordinal in the mixed radix of the
lengths. Both directions are also done with 64-bit counts (`ofOrdinal64?`, `toOrdinal64?`), where a
division by zero or a result that does not fit gives nothing; they always give the same result.
-/

namespace OlapClient.Coordinate

/-! ### Steps on 64-bit counts -/

def fitting? (n : Nat) : Option Nat := if n ≤ Text.maxCount then some n else none

def quotient? (n d : Nat) : Option Nat := if d = 0 then none else fitting? (n / d)

def remainder? (n d : Nat) : Option Nat := if d = 0 then none else fitting? (n % d)

def digits64? (n : Nat) : List Nat → Option (List Nat)
  | [] => some []
  | length :: lengths => do
    let digit ← remainder? n length
    let rest ← quotient? n length
    let behind ← digits64? rest lengths
    return digit :: behind

def weightedSum64? (axis weight sum : Nat) :
    List (Nat × Nat) → Option (Except CoordinateError Nat)
  | [] => some (.ok sum)
  | (coordinate, length) :: rest =>
    if coordinate < length then do
      let term ← fitting? (coordinate * weight)
      let sum ← fitting? (sum + term)
      weightedSum64? (axis + 1) (saturatingProduct weight length) sum rest
    else some (.error (.coordinateOutOfRange coordinate axis length))

/-- `ofOrdinal` in steps on 64-bit counts. -/
def ofOrdinal64? (lengths : List Nat) (ordinal : Nat) :
    Option (Except CoordinateError (List Nat)) :=
  match cellCount lengths with
  | .error e => some (.error e)
  | .ok total =>
    if ordinal < total then (digits64? ordinal lengths).map .ok
    else some (.error (.ordinalOutOfRange ordinal total))

/-- `toOrdinal` in steps on 64-bit counts. -/
def toOrdinal64? (lengths coordinates : List Nat) : Option (Except CoordinateError Nat) :=
  if coordinates.length = lengths.length then weightedSum64? 0 1 0 (coordinates.zip lengths)
  else some (.error (.wrongArity lengths.length coordinates.length))

theorem fitting?_eq (n : Nat) (h : n ≤ Text.maxCount) : fitting? n = some n := if_pos h

theorem quotient?_eq (n d : Nat) (hd : 0 < d) (h : n ≤ Text.maxCount) :
    quotient? n d = some (n / d) := by
  have hle : n / d ≤ n := Nat.div_le_self n d
  have hne : d ≠ 0 := by omega
  rw [quotient?, if_neg hne]
  exact fitting?_eq _ (by omega)

theorem remainder?_eq (n d : Nat) (hd : 0 < d) (h : n ≤ Text.maxCount) :
    remainder? n d = some (n % d) := by
  have hle : n % d ≤ n := Nat.mod_le n d
  have hne : d ≠ 0 := by omega
  rw [remainder?, if_neg hne]
  exact fitting?_eq _ (by omega)

/-! ### Counting cells -/

theorem productWithin_cons (product length total : Nat) (lengths : List Nat)
    (h : productWithin product (length :: lengths) = some total) :
    product * length ≤ Text.maxCount ∧ productWithin (product * length) lengths = some total := by
  rw [productWithin] at h
  by_cases hfit : product * length ≤ Text.maxCount
  · rw [if_pos hfit] at h
    exact ⟨hfit, h⟩
  · rw [if_neg hfit] at h
    cases h

theorem productWithin_eq (product total : Nat) (lengths : List Nat)
    (h : productWithin product lengths = some total) : total = product * lengths.prod := by
  induction lengths generalizing product with
  | nil => simpa [productWithin] using h.symm
  | cons length lengths ih =>
    obtain ⟨-, hrest⟩ := productWithin_cons product length total lengths h
    rw [ih (product * length) hrest, List.prod_cons, Nat.mul_assoc]

theorem productWithin_le (product total : Nat) (lengths : List Nat) (hp : product ≤ Text.maxCount)
    (h : productWithin product lengths = some total) : total ≤ Text.maxCount := by
  induction lengths generalizing product with
  | nil =>
    have htotal : product = total := by simpa [productWithin] using h
    omega
  | cons length lengths ih =>
    obtain ⟨hfit, hrest⟩ := productWithin_cons product length total lengths h
    exact ih (product * length) hfit hrest

theorem productWithin_of_cellCount (lengths : List Nat) (total : Nat)
    (h : cellCount lengths = .ok total) : productWithin 1 lengths = some total := by
  rw [cellCount] at h
  cases hp : productWithin 1 lengths with
  | none =>
    rw [hp] at h
    cases h
  | some total' =>
    rw [hp] at h
    cases h
    rfl

theorem cellCount_eq_prod (lengths : List Nat) (total : Nat) (h : cellCount lengths = .ok total) :
    total = lengths.prod ∧ total ≤ Text.maxCount := by
  have hp := productWithin_of_cellCount lengths total h
  refine ⟨?_, productWithin_le 1 total lengths (by decide) hp⟩
  rw [productWithin_eq 1 total lengths hp, Nat.one_mul]

theorem productWithin_fits (product total : Nat) (lengths : List Nat) (hp : product ≤ Text.maxCount)
    (h : productWithin product lengths = some total) (k : Nat) :
    product * (lengths.take k).prod ≤ Text.maxCount := by
  induction lengths generalizing product k with
  | nil => simpa using hp
  | cons length lengths ih =>
    obtain ⟨hfit, hrest⟩ := productWithin_cons product length total lengths h
    cases k with
    | zero => simpa using hp
    | succ k =>
      rw [List.take_succ_cons, List.prod_cons, ← Nat.mul_assoc]
      exact ih (product * length) hfit hrest k

theorem productWithin_of_fits (product : Nat) (lengths : List Nat)
    (h : ∀ k, product * (lengths.take k).prod ≤ Text.maxCount) :
    productWithin product lengths = some (product * lengths.prod) := by
  induction lengths generalizing product with
  | nil => rw [productWithin, List.prod_nil, Nat.mul_one]
  | cons length lengths ih =>
    have hfit : product * length ≤ Text.maxCount := by simpa using h 1
    rw [productWithin, if_pos hfit, List.prod_cons, ← Nat.mul_assoc]
    refine ih (product * length) fun k => ?_
    have hk := h (k + 1)
    rwa [List.take_succ_cons, List.prod_cons, ← Nat.mul_assoc] at hk

/-- Cells are counted if no product of the first lengths leaves 64 bits. -/
theorem cellCount_eq_ok_iff (lengths : List Nat) (total : Nat) :
    cellCount lengths = .ok total ↔
      total = lengths.prod ∧ ∀ k, (lengths.take k).prod ≤ Text.maxCount := by
  constructor
  · intro h
    have hp := productWithin_of_cellCount lengths total h
    refine ⟨(cellCount_eq_prod lengths total h).1, fun k => ?_⟩
    have hk := productWithin_fits 1 total lengths (by decide) hp k
    rwa [Nat.one_mul] at hk
  · rintro ⟨rfl, h⟩
    have hp := productWithin_of_fits 1 lengths fun k => by
      rw [Nat.one_mul]
      exact h k
    rw [cellCount, hp, Nat.one_mul]

theorem saturatingProduct_eq (a b : Nat) (h : a * b ≤ Text.maxCount) :
    saturatingProduct a b = a * b := Nat.min_eq_left h

/-! ### Digits -/

/-- One coordinate for each axis, each below the length of its axis. -/
def InRange (coordinates lengths : List Nat) : Prop := List.Forall₂ (· < ·) coordinates lengths

/-- Below the product of all lengths there is no axis of length zero. -/
theorem pos_of_lt_prod (n length : Nat) (lengths : List Nat) (h : n < (length :: lengths).prod) :
    0 < length ∧ n / length < lengths.prod := by
  rw [List.prod_cons] at h
  have hpos : 0 < length := by
    apply Nat.pos_of_ne_zero
    rintro rfl
    omega
  exact ⟨hpos, Nat.div_lt_of_lt_mul h⟩

theorem digits_inRange (n : Nat) (lengths : List Nat) (h : n < lengths.prod) :
    InRange (digits n lengths) lengths := by
  induction lengths generalizing n with
  | nil => exact .nil
  | cons length lengths ih =>
    obtain ⟨hpos, hrest⟩ := pos_of_lt_prod n length lengths h
    exact .cons (Nat.mod_lt n hpos) (ih (n / length) hrest)

theorem InRange.exists_digits {coordinates lengths : List Nat} (h : InRange coordinates lengths) :
    ∃ n, n < lengths.prod ∧ digits n lengths = coordinates := by
  induction h with
  | nil => exact ⟨0, by simp, rfl⟩
  | @cons c length coordinates lengths hc _ ih =>
    obtain ⟨n, hn, hd⟩ := ih
    have hmod : (c + length * n) % length = c := by
      rw [Nat.add_mul_mod_self_left, Nat.mod_eq_of_lt hc]
    have hdiv : (c + length * n) / length = n := by
      rw [Nat.add_mul_div_left c n (by omega), Nat.div_eq_of_lt hc, Nat.zero_add]
    have hle : length * (n + 1) ≤ length * lengths.prod := Nat.mul_le_mul_left length hn
    refine ⟨c + length * n, ?_, ?_⟩
    · rw [List.prod_cons]
      rw [Nat.mul_add] at hle
      omega
    · rw [digits, hmod, hdiv, hd]

theorem digits64?_eq (n : Nat) (lengths : List Nat) (h : n < lengths.prod)
    (hfit : n ≤ Text.maxCount) : digits64? n lengths = some (digits n lengths) := by
  induction lengths generalizing n with
  | nil => rfl
  | cons length lengths ih =>
    obtain ⟨hpos, hrest⟩ := pos_of_lt_prod n length lengths h
    have hle : n / length ≤ n := Nat.div_le_self n length
    rw [digits64?, remainder?_eq n length hpos hfit, quotient?_eq n length hpos hfit]
    simp [ih (n / length) hrest (by omega), digits]

/-! ### Weighted sums -/

/-- The digits of a number weigh as much as the number. -/
theorem weightedSum_digits (axis weight sum n total : Nat) (lengths : List Nat)
    (hp : productWithin weight lengths = some total) (h : n < lengths.prod) :
    weightedSum axis weight sum ((digits n lengths).zip lengths) = .ok (sum + n * weight) := by
  induction lengths generalizing axis weight sum n with
  | nil =>
    have hn : n = 0 := by simpa using h
    simp [digits, weightedSum, hn]
  | cons length lengths ih =>
    obtain ⟨hpos, hrest⟩ := pos_of_lt_prod n length lengths h
    obtain ⟨hfit, hp⟩ := productWithin_cons weight length total lengths hp
    have hsum : sum + n % length * weight + n / length * (weight * length) = sum + n * weight := by
      have hn := Nat.mod_add_div n length
      calc sum + n % length * weight + n / length * (weight * length)
          = sum + (n % length + length * (n / length)) * weight := by ring
        _ = sum + n * weight := by rw [hn]
    rw [digits, List.zip_cons_cons, weightedSum, if_pos (Nat.mod_lt n hpos),
      saturatingProduct_eq weight length hfit, ih _ _ _ _ hp hrest, hsum]

/-- The first coordinate out of range is reported with its axis. -/
theorem weightedSum_outOfRange (axis weight sum : Nat) (coordinates lengths : List Nat)
    (hl : coordinates.length = lengths.length) (h : ¬ InRange coordinates lengths) :
    ∃ i coordinate length, weightedSum axis weight sum (coordinates.zip lengths) =
        .error (.coordinateOutOfRange coordinate (axis + i) length) ∧
      coordinates[i]? = some coordinate ∧ lengths[i]? = some length ∧ length ≤ coordinate := by
  induction coordinates generalizing axis weight sum lengths with
  | nil =>
    have hnil : lengths = [] := List.length_eq_zero_iff.mp hl.symm
    rw [hnil] at h
    exact absurd .nil h
  | cons c coordinates ih =>
    cases lengths with
    | nil => cases hl
    | cons length lengths =>
      by_cases hc : c < length
      · have hrest : ¬ InRange coordinates lengths := fun hr => h (.cons hc hr)
        have hl : coordinates.length = lengths.length := Nat.succ.inj hl
        obtain ⟨i, coordinate, length', he, hcoordinate, hlength, hle⟩ :=
          ih (axis + 1) (saturatingProduct weight length) (sum + c * weight) lengths hl hrest
        have haxis : axis + 1 + i = axis + (i + 1) := by omega
        refine ⟨i + 1, coordinate, length', ?_, hcoordinate, hlength, hle⟩
        rw [List.zip_cons_cons, weightedSum, if_pos hc, he, haxis]
      · refine ⟨0, c, length, ?_, rfl, rfl, by omega⟩
        rw [List.zip_cons_cons, weightedSum, if_neg hc, Nat.add_zero]

/-- The sum stays below the weight of the next axis, and that weight is a product that was
counted. -/
theorem weightedSum64?_eq (axis weight sum total : Nat) (coordinates lengths : List Nat)
    (hp : productWithin weight lengths = some total) (hsum : sum < weight) :
    weightedSum64? axis weight sum (coordinates.zip lengths) =
      some (weightedSum axis weight sum (coordinates.zip lengths)) := by
  induction coordinates generalizing axis weight sum lengths with
  | nil => rfl
  | cons c coordinates ih =>
    cases lengths with
    | nil => rfl
    | cons length lengths =>
      obtain ⟨hfit, hp⟩ := productWithin_cons weight length total lengths hp
      rw [List.zip_cons_cons, weightedSum64?, weightedSum]
      by_cases hc : c < length
      · have hterm : c * weight + weight ≤ weight * length := by
          have hle := Nat.mul_le_mul_left weight (Nat.succ_le_of_lt hc)
          rw [Nat.mul_succ, Nat.mul_comm weight c] at hle
          exact hle
        have hnext : sum + c * weight < weight * length := by omega
        rw [if_pos hc, if_pos hc, fitting?_eq (c * weight) (by omega),
          saturatingProduct_eq _ _ hfit]
        simp [fitting?_eq (sum + c * weight) (by omega), ih _ _ _ _ hp hnext]
      · rw [if_neg hc, if_neg hc]

/-- The coordinates, each times the number of cells between two neighbours on its axis. -/
def weigh (lengths coordinates : List Nat) : Nat :=
  (coordinates.mapIdx fun i c => c * (lengths.take i).prod).sum

theorem weightedSum_inRange (axis weight sum total : Nat) (coordinates lengths : List Nat)
    (hp : productWithin weight lengths = some total) (hr : InRange coordinates lengths) :
    weightedSum axis weight sum (coordinates.zip lengths) =
      .ok (sum + (coordinates.mapIdx fun i c => c * (weight * (lengths.take i).prod)).sum) := by
  induction hr generalizing axis weight sum with
  | nil => simp [weightedSum]
  | @cons c length coordinates lengths hc hrest ih =>
    obtain ⟨hfit, hp⟩ := productWithin_cons weight length total lengths hp
    have htake : (fun i c' => c' * (weight * ((length :: lengths).take (i + 1)).prod)) =
        fun (i : Nat) (c' : Nat) => c' * (weight * length * (lengths.take i).prod) := by
      funext i c'
      rw [List.take_succ_cons, List.prod_cons, Nat.mul_assoc]
    rw [List.zip_cons_cons, weightedSum, if_pos hc, saturatingProduct_eq weight length hfit,
      ih _ _ _ hp, List.mapIdx_cons, List.sum_cons, htake, List.take_zero, List.prod_nil,
      Nat.mul_one, Nat.add_assoc]

/-! ### Both directions -/

variable (lengths : List Nat) (total : Nat)

theorem ofOrdinal_of_lt (h : cellCount lengths = .ok total) (ordinal : Nat) (ho : ordinal < total) :
    ofOrdinal lengths ordinal = .ok (digits ordinal lengths) := by
  simp only [ofOrdinal, h, bind, Except.bind, if_pos ho]
  rfl

theorem ofOrdinal_of_ge (h : cellCount lengths = .ok total) (ordinal : Nat) (ho : total ≤ ordinal) :
    ofOrdinal lengths ordinal = .error (.ordinalOutOfRange ordinal total) := by
  have hnot : ¬ ordinal < total := by omega
  simp only [ofOrdinal, h, bind, Except.bind, if_neg hnot]
  rfl

theorem toOrdinal_digits (h : cellCount lengths = .ok total) (ordinal : Nat)
    (ho : ordinal < total) :
    toOrdinal lengths (digits ordinal lengths) = .ok ordinal := by
  obtain ⟨hprod, -⟩ := cellCount_eq_prod lengths total h
  rw [hprod] at ho
  have hl := (digits_inRange ordinal lengths ho).length_eq
  rw [toOrdinal, if_pos hl,
    weightedSum_digits 0 1 0 ordinal total lengths (productWithin_of_cellCount lengths total h) ho]
  simp

theorem toOrdinal_eq_weigh (h : cellCount lengths = .ok total) (coordinates : List Nat)
    (hr : InRange coordinates lengths) :
    toOrdinal lengths coordinates = .ok (weigh lengths coordinates) := by
  rw [toOrdinal, if_pos hr.length_eq,
    weightedSum_inRange 0 1 0 total coordinates lengths
      (productWithin_of_cellCount lengths total h) hr]
  simp only [Nat.one_mul, Nat.zero_add, weigh]

theorem ofOrdinal64?_eq (h : cellCount lengths = .ok total) (ordinal : Nat) :
    ofOrdinal64? lengths ordinal = some (ofOrdinal lengths ordinal) := by
  obtain ⟨hprod, hfit⟩ := cellCount_eq_prod lengths total h
  rw [ofOrdinal64?, h]
  rcases Nat.lt_or_ge ordinal total with ho | ho
  · have hd := digits64?_eq ordinal lengths (by omega) (by omega)
    simp only [if_pos ho, hd, ofOrdinal_of_lt lengths total h ordinal ho]
    rfl
  · have hnot : ¬ ordinal < total := by omega
    simp only [if_neg hnot, ofOrdinal_of_ge lengths total h ordinal ho]

theorem toOrdinal64?_eq (h : cellCount lengths = .ok total) (coordinates : List Nat) :
    toOrdinal64? lengths coordinates = some (toOrdinal lengths coordinates) := by
  rw [toOrdinal64?, toOrdinal]
  by_cases hl : coordinates.length = lengths.length
  · rw [if_pos hl, if_pos hl]
    exact weightedSum64?_eq 0 1 0 total coordinates lengths
      (productWithin_of_cellCount lengths total h) (by omega)
  · rw [if_neg hl, if_neg hl]

/-- Over axes whose cells can be counted, ordinals below the count and coordinates in range belong
to each other, all others are refused, and no step divides by zero or leaves 64 bits. -/
theorem ordinals_match_coordinates (h : cellCount lengths = .ok total) :
    (∀ ordinal < total, ∃ coordinates, ofOrdinal lengths ordinal = .ok coordinates ∧
      InRange coordinates lengths ∧ toOrdinal lengths coordinates = .ok ordinal) ∧
    (∀ coordinates, InRange coordinates lengths → ∃ ordinal < total,
      toOrdinal lengths coordinates = .ok ordinal ∧ ofOrdinal lengths ordinal = .ok coordinates) ∧
    (∀ ordinal ≥ total,
      ofOrdinal lengths ordinal = .error (.ordinalOutOfRange ordinal total)) ∧
    (∀ coordinates, coordinates.length ≠ lengths.length →
      toOrdinal lengths coordinates = .error (.wrongArity lengths.length coordinates.length)) ∧
    (∀ coordinates, coordinates.length = lengths.length → ¬ InRange coordinates lengths →
      ∃ axis coordinate length,
        toOrdinal lengths coordinates = .error (.coordinateOutOfRange coordinate axis length) ∧
        coordinates[axis]? = some coordinate ∧ lengths[axis]? = some length ∧
        length ≤ coordinate) ∧
    (∀ ordinal, ofOrdinal64? lengths ordinal = some (ofOrdinal lengths ordinal)) ∧
    ∀ coordinates, toOrdinal64? lengths coordinates = some (toOrdinal lengths coordinates) := by
  obtain ⟨hprod, -⟩ := cellCount_eq_prod lengths total h
  refine ⟨?_, ?_, ofOrdinal_of_ge lengths total h, ?_, ?_, ofOrdinal64?_eq lengths total h,
    toOrdinal64?_eq lengths total h⟩
  · intro ordinal ho
    exact ⟨digits ordinal lengths, ofOrdinal_of_lt lengths total h ordinal ho,
      digits_inRange ordinal lengths (by omega), toOrdinal_digits lengths total h ordinal ho⟩
  · intro coordinates hr
    obtain ⟨ordinal, hn, rfl⟩ := hr.exists_digits
    have ho : ordinal < total := by omega
    exact ⟨ordinal, ho, toOrdinal_digits lengths total h ordinal ho,
      ofOrdinal_of_lt lengths total h ordinal ho⟩
  · intro coordinates hl
    exact if_neg hl
  · intro coordinates hl hr
    obtain ⟨axis, coordinate, length, he, hfound⟩ :=
      weightedSum_outOfRange 0 1 0 coordinates lengths hl hr
    refine ⟨axis, coordinate, length, ?_, hfound⟩
    rw [toOrdinal, if_pos hl, he, Nat.zero_add]

/-- An axis of length one, and a count close to 64 bits. -/
theorem wide_ordinals_match :
    cellCount [0x100000000, 1, 0xFFFFFFFF] = .ok 0xFFFFFFFF00000000 ∧
    toOrdinal [0x100000000, 1, 0xFFFFFFFF] [7, 0, 0xFFFFFFFE] = .ok 0xFFFFFFFE00000007 ∧
    ofOrdinal [0x100000000, 1, 0xFFFFFFFF] 0xFFFFFFFE00000007 = .ok [7, 0, 0xFFFFFFFE] := by
  have hcount : cellCount [0x100000000, 1, 0xFFFFFFFF] = .ok 0xFFFFFFFF00000000 := rfl
  obtain ⟨-, hcoordinates, -⟩ := ordinals_match_coordinates _ _ hcount
  have hr : InRange [7, 0, 0xFFFFFFFE] [0x100000000, 1, 0xFFFFFFFF] :=
    .cons (by decide) (.cons (by decide) (.cons (by decide) .nil))
  obtain ⟨ordinal, -, hto, hof⟩ := hcoordinates _ hr
  have hordinal : ordinal = 0xFFFFFFFE00000007 := by
    have hsum : toOrdinal [0x100000000, 1, 0xFFFFFFFF] [7, 0, 0xFFFFFFFE] =
        .ok 0xFFFFFFFE00000007 := rfl
    rw [hsum] at hto
    exact (Except.ok.inj hto).symm
  rw [hordinal] at hto hof
  exact ⟨hcount, hto, hof⟩

end OlapClient.Coordinate
