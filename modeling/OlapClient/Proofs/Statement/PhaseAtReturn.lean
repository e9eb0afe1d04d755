import OlapClient.Proofs.Statement.OpenCellSet
import OlapClient.Proofs.Statement.Unreadable

/-!
# The phase that an execution leaves

Phase and result are recorded at different places, and the two agree but for one gap. A
multidimensional result is recorded as completed before its cell set is handed out; if the statement
is found closed at that point the execution returns an error, and the phase says completed.
-/

namespace OlapClient

/-- The phase that tells a result. -/
def Phase.ofResult : Except ClientError Answer → Phase
  | .ok _ => .completed
  | .error e => .ofError e

namespace Execution.Advance

variable {x : Execution} {config : Config} {s s' : Statement} {d d' : Desk} {t : Turn} {g : Stage}

/-- The turn that ends an execution records the phase, or the phase was recorded before a cell set
was to be handed out. -/
theorem ends (h : x.Advance config s d t g s' d') (r : Except ClientError Answer)
    (hg : g = .returned r) (hx : x.stage ≠ g) :
    (x.stage.isOpening = false ∧ s'.phase = .ofResult r) ∨
    (x.stage.isOpening = true ∧ s'.phase = s.phase ∧
      ((s.isClosed = true ∧ r = .error (.closed .statement)) ∨
        (s.isClosed = false ∧ ∃ answer, r = .ok answer))) := by
  cases h with
  | rest => exact absurd rfl hx
  | unreadable response cacheHit hs e hr =>
    cases hg
    exact .inl ⟨by rw [hs]; rfl, (ofError_of_unreadable _ _ _ e hr).symm⟩
  | readsRows response cacheHit hs =>
    cases hg
    exact .inl ⟨by rw [hs]; rfl, rfl⟩
  | fails e hs =>
    cases hg
    exact .inl ⟨by rw [hs]; rfl, rfl⟩
  | refusesCells cells hs hc =>
    cases hg
    exact .inr ⟨by rw [hs]; rfl, rfl, .inl ⟨hc, rfl⟩⟩
  | opensCells cells hs hc =>
    cases hg
    exact .inr ⟨by rw [hs]; rfl, rfl, .inr ⟨hc, _, rfl⟩⟩
  | _ => cases hg

theorem opens (h : x.Advance config s d t g s' d') (hg : g.isOpening = true) :
    (x.stage.isOpening = true ∧ s' = s ∧ d' = d) ∨
      (x.stage.isRunning = true ∧ s'.phase = .completed) := by
  cases h with
  | rest => exact .inl ⟨hg, rfl, rfl⟩
  | readsCells response cacheHit hs => exact .inr ⟨by rw [hs]; rfl, rfl⟩
  | _ => cases hg

end Execution.Advance

namespace Scene

/-- An execution returns with a move: at a turn of its own, or at once when it is let in and a
cancellation is left over. One that is refused does not count. -/
structure ReturnsWith (n : Nat) (s : Scene) (m : Move) (r : Except ClientError Answer) : Prop where
  before : s.answer? n = none
  after : (s.after m).answer? n = some r
  admitted : ∀ job, m = .attempt job → s.statement.isClosed = false ∧ s.statement.phase ≠ .submitted

/-- Another execution is let in while the cell set of this one waits to be handed out. -/
def Overtakes (n : Nat) (s : Scene) (m : Move) : Prop :=
  s.isAt n Stage.isOpening = true ∧ s.statement.isClosed = false ∧ ∃ job, m = .attempt job

theorem Idle.phase_after {s : Scene} (h : s.Idle) (m : Move) (hm : ∀ job, m ≠ .attempt job) :
    (s.after m).statement.phase = s.statement.phase := by
  cases m with
  | attempt job => exact absurd rfl (hm job)
  | turn k t =>
    cases hx : s.executions[k]? with
    | none => rw [s.after_turn_none k t hx]
    | some x =>
      obtain ⟨g, statement, desk, -, hs, -, he⟩ :=
        s.after_turn_settled k x t hx (h.resting k x hx)
      rw [he]
      exact hs.phase
  | cancel => exact (s.statement.cancel_keeps s.desk).1
  | close => exact (s.statement.close_keeps s.desk).1
  | setTimeout seconds =>
    obtain ⟨timeout, he⟩ := s.after_setTimeout_eq seconds
    rw [he]
  | configure config => rfl
  | closeCellSet k => rfl
  | addCellSet cells => rfl
  | setCalls calls => rfl

/-! ### While a cell set waits to be handed out -/

/-- As long as the cell set of an execution waits, no execution runs and the phase is completed. -/
def Posted (n : Nat) (s : Scene) : Prop :=
  s.isAt n Stage.isOpening = true → s.Idle ∧ s.statement.phase = .completed

theorem Posted.after_other {n : Nat} {s : Scene} (h : s.Posted n) (m : Move)
    (hm : ∀ t, m ≠ .turn n t) (hov : ¬ s.Overtakes n m) (x : Execution)
    (hx : s.executions[n]? = some x) : (s.after m).Posted n := by
  intro ha
  have ho : s.isAt n Stage.isOpening = true := by
    rw [isAt_of _ n _ x (s.getElem?_after n x m hx hm)] at ha
    rw [s.isAt_of n _ x hx]
    exact ha
  obtain ⟨hi, hp⟩ := h ho
  by_cases hat : ∃ job, m = .attempt job
  · cases hc : s.statement.isClosed with
    | false => exact absurd ⟨ho, hc, hat⟩ hov
    | true =>
      obtain ⟨job, rfl⟩ := hat
      have he := s.after_attempt_refused job _ (s.statement.start_closed s.desk job s.session hc)
      rw [he]
      exact ⟨hi.keep_append _ rfl rfl hi.phase hi.pending, hp⟩
  · have hat' : ∀ job, m ≠ .attempt job := fun job he => hat ⟨job, he⟩
    exact ⟨hi.after_move m hat', (hi.phase_after m hat').trans hp⟩

theorem Posted.after {n : Nat} {s : Scene} (h : s.Posted n) (ho : s.Ordered) (m : Move)
    (hov : ¬ s.Overtakes n m) : (s.after m).Posted n := by
  intro ha
  obtain ⟨y, hy, hyo⟩ := (isAt_iff _ n _).mp ha
  obtain hx | ⟨t, x, rfl, hx⟩ | ⟨job, -, -, rfl⟩ := s.getElem?_of_after n y m hy
  · by_cases hm : ∃ t, m = .turn n t
    · obtain ⟨t, rfl⟩ := hm
      have hi := h (by rw [s.isAt_of n _ y hx, hyo])
      exact ⟨hi.1.after_turn n t, (hi.1.phase_after _ (by simp)).trans hi.2⟩
    · exact h.after_other m (fun t he => hm ⟨t, he⟩) hov y hx ha
  · obtain ⟨g, statement, desk, he, hadv⟩ := s.after_turn n x t hx
    rw [he, getElem?_advance_self s n _ x statement desk hx] at hy
    cases hy
    obtain ⟨hxo, rfl, rfl⟩ | ⟨hr, hp⟩ := hadv.opens hyo
    · have hi := h (by rw [s.isAt_of n _ x hx, hxo])
      exact ⟨hi.1.after_turn n t, (hi.1.phase_after _ (by simp)).trans hi.2⟩
    · rw [he]
      exact ⟨(ho.runs n x hx hr).leave hadv (Stage.not_running_of_opening _ hyo), hp⟩
  · obtain ha' | ⟨e, ha'⟩ := s.attempted_stage job
    · rw [ha'] at hyo
      cases hyo
    · rw [ha'] at hyo
      cases hyo

theorem Posted.run {n : Nat} {s : Scene} (h : s.Posted n) (ho : s.Ordered) (ms : List Move)
    (hov : ¬ s.Sometime (Overtakes n) ms) : (s.run ms).Posted n := by
  induction ms generalizing s with
  | nil => exact h
  | cons m ms ih =>
    obtain ⟨hm, hms⟩ := not_or.mp hov
    exact ih (h.after ho m hm) (ho.after m) hms

theorem new_posted (n : Nat) (config : Config) (session : Option String) (desk : Desk) :
    (new config session desk).Posted n := by
  intro h
  simp [isAt, stage?, new] at h

/-! ### The return -/

/-- An execution that returns at a turn of its own records its phase then, or had its phase
recorded when its cell set was there. -/
theorem phase_of_returned (s : Scene) (n : Nat) (x : Execution) (t : Turn)
    (r : Except ClientError Answer) (hx : s.executions[n]? = some x)
    (hb : s.answer? n = none) (ha : (s.after (.turn n t)).answer? n = some r) :
    (x.stage.isOpening = false ∧ (s.after (.turn n t)).statement.phase = .ofResult r) ∨
    (x.stage.isOpening = true ∧ (s.after (.turn n t)).statement.phase = s.statement.phase ∧
      ((s.statement.isClosed = true ∧ r = .error (.closed .statement)) ∨
        (s.statement.isClosed = false ∧ ∃ answer, r = .ok answer))) := by
  obtain ⟨g, statement, desk, he, hadv⟩ := s.after_turn n x t hx
  have hg : g = .returned r := by
    rw [he, answer?, getElem?_advance_self s n _ x statement desk hx] at ha
    cases g <;> simp_all [Execution.result?]
  have hne : x.stage ≠ g := by
    intro heq
    rw [answer?, hx] at hb
    simp [Execution.result?, heq, hg] at hb
  rw [he]
  exact hadv.ends r hg hne

theorem phase_of_attempt (s : Scene) (job : Job) (r : Except ClientError Answer)
    (hc : s.statement.isClosed = false) (hp : s.statement.phase ≠ .submitted)
    (ha : (s.attempted job).result? = some r) :
    (s.after (.attempt job)).statement.phase = .ofResult r := by
  obtain ⟨phase, g, ⟨-, rfl, rfl⟩ | ⟨-, -, rfl⟩, hx, hs, -⟩ := s.entry_of_entered job hc hp
  · rw [hx] at ha
    cases ha
    rw [hs]
    rfl
  · rw [hx] at ha
    cases ha

theorem ReturnsWith.cases {n : Nat} {s : Scene} {m : Move} {r : Except ClientError Answer}
    (h : s.ReturnsWith n m r) :
    (∃ t x, m = .turn n t ∧ s.executions[n]? = some x) ∨
    (∃ job, m = .attempt job ∧ s.executions[n]? = none ∧ (s.attempted job).result? = some r) := by
  obtain ⟨y, hy, hr⟩ := Option.bind_eq_some_iff.mp h.after
  obtain hx | hturn | ⟨job, hm, hn, rfl⟩ := s.getElem?_of_after n y m hy
  · have hb := h.before
    rw [answer?, hx] at hb
    simp [hr] at hb
  · exact .inl hturn
  · refine .inr ⟨job, hm, ?_, hr⟩
    rw [hn]
    exact List.getElem?_eq_none (Nat.le_refl _)

/-- Unless another execution is let in before its cell set is handed out, an execution that returns
leaves the phase that tells its result, with one exception: it has a cell set to hand out and the
statement is closed. It then returns an error, and the phase says completed. If another is let in
before, the return does not touch the phase. -/
theorem phase_tells_result_iff (config : Config) (session : Option String) (desk : Desk)
    (ms : List Move) (s : Scene) (hs : (new config session desk).run ms = s) (n : Nat) (m : Move)
    (r : Except ClientError Answer) (h : s.ReturnsWith n m r) :
    (¬ (new config session desk).Sometime (Overtakes n) ms →
      ((s.after m).statement.phase = .ofResult r ↔
        ¬ (s.isAt n Stage.isOpening = true ∧ s.statement.isClosed = true)) ∧
      (s.isAt n Stage.isOpening = true → s.statement.isClosed = true →
        r = .error (.closed .statement) ∧ (s.after m).statement.phase = .completed)) ∧
    (s.isAt n Stage.isOpening = true →
      (s.after m).statement.phase = s.statement.phase) := by
  obtain ⟨t, x, rfl, hx⟩ | ⟨job, rfl, hx, hr⟩ := h.cases
  · have hat := s.isAt_of n Stage.isOpening x hx
    obtain ⟨hxo, hp⟩ | ⟨hxo, hp, hends⟩ := s.phase_of_returned n x t r hx h.before h.after
    · rw [hat, hxo]
      simp [hp]
    · refine ⟨?_, fun _ => hp⟩
      intro hov
      have hposted : s.Posted n := by
        rw [← hs]
        exact (new_posted n config session desk).run (new_ordered config session desk) ms hov
      have hcomplete : (s.after (.turn n t)).statement.phase = .completed :=
        hp.trans (hposted (hat.trans hxo)).2
      obtain ⟨hc, rfl⟩ | ⟨hc, answer, rfl⟩ := hends
      · refine ⟨?_, fun _ _ => ⟨rfl, hcomplete⟩⟩
        simp [hat, hxo, hc, hcomplete, Phase.ofResult, Phase.ofError]
      · simp [hc, hcomplete, Phase.ofResult]
  · obtain ⟨hc, hp⟩ := h.admitted job rfl
    have hat : s.isAt n Stage.isOpening = false := by simp [isAt, stage?, hx]
    have htells := s.phase_of_attempt job r hc hp hr
    simp [hat, htells]

/-! ### A closing before the cell set is handed out -/

theorem not_overtaken (n : Nat) (s : Scene) (ms : List Move) (hm : ∀ job, .attempt job ∉ ms) :
    ¬ s.Sometime (Overtakes n) ms := by
  induction ms generalizing s with
  | nil => exact id
  | cons m ms ih =>
    rintro (⟨-, -, job, rfl⟩ | h)
    · exact hm job (.head _)
    · exact ih (s.after m) (fun job hj => hm job (.tail _ hj)) h

/-- The response of an execution is read, and its cell set waits to be handed out. -/
def untilOpening : List Move := untilCells 0 ++ [.turn 0 .step]

def openingScene (isClosed : Bool) : Scene where
  config := {}
  session := none
  statement := { phase := .completed, isClosed := isClosed }
  desk := {}
  executions := [⟨.cells "", none, none, .opening emptyCells⟩]

theorem run_untilOpening : (new {} none {}).run untilOpening = openingScene false := by
  rw [untilOpening, run_append, run_cons, after_read_cells _ 0 _ rfl rfl rfl]
  rfl

theorem not_overtaken_untilOpening (ms : List Move) (hm : ∀ job, .attempt job ∉ ms) :
    ¬ (new {} none {}).Sometime (Overtakes 0) (untilOpening ++ ms) := by
  have hfirst : (new {} none {}).isAt 0 Stage.isOpening = false := rfl
  rintro (⟨h, -⟩ | h)
  · rw [hfirst] at h
    cases h
  · refine not_overtaken 0 _ _ ?_ h
    simp [hm]

theorem handed_over_completed :
    (openingScene false).ReturnsWith 0 (.turn 0 .step) (.ok (.cellSet 0)) ∧
    ((openingScene false).after (.turn 0 .step)).statement.phase =
      .ofResult (.ok (.cellSet 0)) := by
  have hr : (openingScene false).ReturnsWith 0 (.turn 0 .step) (.ok (.cellSet 0)) :=
    ⟨rfl, rfl, fun job h => by cases h⟩
  have hov := not_overtaken_untilOpening [] (by simp)
  rw [List.append_nil] at hov
  have h := phase_tells_result_iff {} none {} untilOpening _ run_untilOpening 0 _ _ hr
  refine ⟨hr, (h.1 hov).1.mpr ?_⟩
  rintro ⟨-, hc⟩
  cases hc

/-- The statement is closed before the cell set is handed out: an error, and the phase completed. -/
theorem completed_though_refused :
    ((new {} none {}).run (untilOpening ++ [.close])).ReturnsWith 0 (.turn 0 .step)
      (.error (.closed .statement)) ∧
    ¬ (new {} none {}).Sometime (Overtakes 0) (untilOpening ++ [.close]) ∧
    (((new {} none {}).run (untilOpening ++ [.close])).after (.turn 0 .step)).statement.phase =
      .completed ∧
    Phase.ofResult (.error (.closed .statement)) = .failed := by
  have hrun : (new {} none {}).run (untilOpening ++ [.close]) = openingScene true := by
    rw [run_append, run_untilOpening]
    rfl
  rw [hrun]
  refine ⟨⟨rfl, rfl, ?_⟩, not_overtaken_untilOpening _ (by simp), rfl, rfl⟩
  intro job h
  cases h

end Scene

end OlapClient
