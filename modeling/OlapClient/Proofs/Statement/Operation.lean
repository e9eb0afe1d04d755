import OlapClient.Statement.Basic
import OlapClient.Statement.Execution

/-!
# Operations on a statement

What admission, cancellation and closing do to the statement and the desk, one equation for each
of their outcomes.
-/

namespace OlapClient

/-! ### Calls -/

/-- A cancellation that finds its call resolved, or no call at all, changes nothing. -/
theorem cancelCall_lost (d : Desk) (n : Nat) (h : d.calls[n]? ≠ some .unresolved) :
    d.cancelCall n = (d, false) := by
  cases hc : d.calls[n]? with
  | none => simp [Desk.cancelCall, Calls.cancel, hc]
  | some c =>
    have hn : c ≠ .unresolved := by
      intro he
      exact h (by rw [hc, he])
    have hs : d.calls.set n c = d.calls := by
      obtain ⟨hl, he⟩ := List.getElem?_eq_some_iff.mp hc
      rw [← he]
      exact List.set_getElem_self hl
    cases c <;> simp_all [Desk.cancelCall, Calls.cancel, Call.cancel]

theorem cancelCall_won (d : Desk) (n : Nat) (h : d.calls[n]? = some .unresolved) :
    d.cancelCall n = ({ d with calls := d.calls.set n .cancelled }, true) := by
  simp [Desk.cancelCall, Calls.cancel, h, Call.cancel]

theorem closeLeftOpen_length (d : Desk) (left : Option Nat) :
    (d.closeLeftOpen left).cellSets.length = d.cellSets.length := by
  cases left with
  | none => rfl
  | some n => exact List.length_modify ..

theorem closeLeftOpen_calls (d : Desk) (left : Option Nat) :
    (d.closeLeftOpen left).calls = d.calls := by
  cases left <;> rfl

/-! ### Admission -/

/-- The statement after the cell set that a job replaces is closed. -/
def Statement.makeWay (s : Statement) (job : Job) : Statement :=
  if job.isMultidimensional then { s with openCellSet := none } else s

/-- The desk after the cell set that a job replaces is closed. -/
def Desk.makeWay (d : Desk) (s : Statement) (job : Job) : Desk :=
  if job.isMultidimensional then d.closeLeftOpen s.openCellSet else d

namespace Statement

variable (s : Statement) (d : Desk) (job : Job) (session : Option String)

theorem makeWay_pending : (s.makeWay job).pending = s.pending := by
  unfold makeWay
  split <;> rfl

theorem makeWay_isClosed : (s.makeWay job).isClosed = s.isClosed := by
  unfold makeWay
  split <;> rfl

theorem start_closed (hc : s.isClosed = true) :
    (s.start d job session).2 = (.error (.closed .statement), s, d) := by
  simp [start, hc]

theorem start_busy (hc : s.isClosed = false) (hp : s.phase = .submitted) :
    (s.start d job session).2 = (.error (.request .alreadyExecuting), s, d) := by
  simp [start, hc, hp]

theorem start_cancelled (hc : s.isClosed = false) (hp : s.phase ≠ .submitted)
    (hf : s.cancelRequested = true) :
    (s.start d job session).2 =
      (.error .cancelled, { s.makeWay job with cancelRequested := false, phase := .cancelled },
        d.makeWay s job) := by
  cases hj : job.isMultidimensional <;> simp [start, hc, hp, hf, hj, makeWay, Desk.makeWay]

theorem start_admitted (hc : s.isClosed = false) (hp : s.phase ≠ .submitted)
    (hf : s.cancelRequested = false) :
    (s.start d job session).2 =
      (.ok { job := job, timeout := s.timeout, session := session },
        { s.makeWay job with cancelRequested := false, phase := .submitted },
        d.makeWay s job) := by
  cases hj : job.isMultidimensional <;> simp [start, hc, hp, hf, hj, makeWay, Desk.makeWay]

/-! ### Cancellation -/

theorem cancel_early (hp : s.pending = none) :
    (s.cancel d).2 = ({ s with cancelRequested := true }, d) := by
  simp [cancel, hp]

theorem cancel_won (n : Nat) (hp : s.pending = some n) (hc : d.calls[n]? = some .unresolved) :
    (s.cancel d).2 =
      ({ s with cancelRequested := true }, { d with calls := d.calls.set n .cancelled }) := by
  simp [cancel, hp, cancelCall_won d n hc]

theorem cancel_lost (n : Nat) (hp : s.pending = some n) (hc : d.calls[n]? ≠ some .unresolved) :
    (s.cancel d).2 = (s, d) := by
  simp [cancel, hp, cancelCall_lost d n hc]

theorem cancel_keeps :
    (s.cancel d).2.1.phase = s.phase ∧ (s.cancel d).2.1.pending = s.pending ∧
      (s.cancel d).2.1.timeout = s.timeout ∧ (s.cancel d).2.1.isClosed = s.isClosed ∧
      (s.cancel d).2.1.openCellSet = s.openCellSet ∧ (s.cancel d).2.2.cellSets = d.cellSets := by
  obtain hp | ⟨n, hp⟩ := Option.eq_none_or_eq_some s.pending
  · rw [s.cancel_early d hp]
    exact ⟨rfl, rfl, rfl, rfl, rfl, rfl⟩
  · by_cases hc : d.calls[n]? = some .unresolved
    · rw [s.cancel_won d n hp hc]
      exact ⟨rfl, rfl, rfl, rfl, rfl, rfl⟩
    · rw [s.cancel_lost d n hp hc]
      exact ⟨rfl, rfl, rfl, rfl, rfl, rfl⟩

/-! ### Closing -/

/-- The statement after it is closed, the call in flight apart. -/
def shut (s : Statement) : Statement := { s with isClosed := true, openCellSet := none }

theorem close_again (hc : s.isClosed = true) : (s.close d).2 = (s, d) := by
  simp [close, hc]

theorem close_idle (hc : s.isClosed = false) (hp : s.pending = none) :
    (s.close d).2 = (s.shut, d.closeLeftOpen s.openCellSet) := by
  simp [close, hc, hp, shut]

theorem close_won (n : Nat) (hc : s.isClosed = false) (hp : s.pending = some n)
    (hu : d.calls[n]? = some .unresolved) :
    (s.close d).2 = ({ s.shut with cancelRequested := true },
      { d.closeLeftOpen s.openCellSet with calls := d.calls.set n .cancelled }) := by
  have hl : (d.closeLeftOpen s.openCellSet).calls[n]? = some .unresolved := by
    rw [closeLeftOpen_calls, hu]
  simp [close, hc, hp, shut, cancelCall_won _ n hl, closeLeftOpen_calls]

theorem close_lost (n : Nat) (hc : s.isClosed = false) (hp : s.pending = some n)
    (hu : d.calls[n]? ≠ some .unresolved) :
    (s.close d).2 = (s.shut, d.closeLeftOpen s.openCellSet) := by
  have hl : (d.closeLeftOpen s.openCellSet).calls[n]? ≠ some .unresolved := by
    rw [closeLeftOpen_calls]
    exact hu
  simp [close, hc, hp, shut, cancelCall_lost _ n hl]

theorem close_keeps : (s.close d).2.1.phase = s.phase ∧ (s.close d).2.1.pending = s.pending := by
  cases hc : s.isClosed with
  | true =>
    rw [s.close_again d hc]
    exact ⟨rfl, rfl⟩
  | false =>
    obtain hp | ⟨n, hp⟩ := Option.eq_none_or_eq_some s.pending
    · rw [s.close_idle d hc hp]
      exact ⟨rfl, rfl⟩
    · by_cases hu : d.calls[n]? = some .unresolved
      · rw [s.close_won d n hc hp hu]
        exact ⟨rfl, rfl⟩
      · rw [s.close_lost d n hc hp hu]
        exact ⟨rfl, rfl⟩

end Statement

end OlapClient
