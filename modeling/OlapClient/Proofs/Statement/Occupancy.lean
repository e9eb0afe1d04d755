import OlapClient.Proofs.Statement.Advance

/-!
# Occupancy

At most one execution at a time runs: is between its admission and the recording of its phase.
While it does, the phase is `submitted` and the pending call is the one that its stage names. While
none does, the phase is another one and no call is pending. This holds wherever a run leads.
-/

namespace OlapClient

namespace Stage

/-- From the admission of an execution until its phase is recorded. -/
def isRunning : Stage → Bool
  | opening _ | returned _ => false
  | _ => true

/-- The call that the statement knows while an execution is at a stage. -/
def pending? : Stage → Option Nat
  | waiting _ call | recording _ call _ => some call
  | _ => none

end Stage

theorem ofError_ne_submitted (e : ClientError) : Phase.ofError e ≠ .submitted := by
  cases e <;> simp [Phase.ofError]

/-- Two statements that differ in their open cell set at most. -/
structure Statement.Alike (s s' : Statement) : Prop where
  phase : s'.phase = s.phase
  pending : s'.pending = s.pending
  cancelRequested : s'.cancelRequested = s.cancelRequested
  timeout : s'.timeout = s.timeout
  isClosed : s'.isClosed = s.isClosed

theorem Statement.Alike.refl (s : Statement) : s.Alike s := ⟨rfl, rfl, rfl, rfl, rfl⟩

/-! ### Turns of a running execution -/

namespace Execution.Advance

variable {x : Execution} {config : Config} {s s' : Statement} {d d' : Desk} {t : Turn} {g : Stage}

theorem frame (h : x.Advance config s d t g s' d') (hx : x.stage.isRunning = true) :
    s'.isClosed = s.isClosed ∧ s'.openCellSet = s.openCellSet ∧ s'.timeout = s.timeout ∧
      d'.cellSets = d.cellSets := by
  cases h with
  | refusesCells cells hs => simp [hs, Stage.isRunning] at hx
  | opensCells cells hs => simp [hs, Stage.isRunning] at hx
  | recordsFailure m call e => cases e <;> exact ⟨rfl, rfl, rfl, rfl⟩
  | _ => exact ⟨rfl, rfl, rfl, rfl⟩

theorem stays (h : x.Advance config s d t g s' d') (hp : s.pending = x.stage.pending?)
    (hg : g.isRunning = true) : s'.phase = s.phase ∧ s'.pending = g.pending? := by
  cases h with
  | rest => exact ⟨rfl, hp⟩
  | unreadable => cases hg
  | readsRows => cases hg
  | readsCells => cases hg
  | fails => cases hg
  | refusesCells => cases hg
  | opensCells => cases hg
  | _ => simp_all [Stage.pending?]

theorem leaves (h : x.Advance config s d t g s' d') (hx : x.stage.isRunning = true)
    (hp : s.pending = x.stage.pending?) (hg : g.isRunning = false) :
    s'.phase ≠ .submitted ∧ s'.pending = none := by
  cases h with
  | rest => rw [hx] at hg; cases hg
  | unreadable response cacheHit hs => exact ⟨by simp, by simp [hp, hs, Stage.pending?]⟩
  | readsRows response cacheHit hs => exact ⟨by simp, by simp [hp, hs, Stage.pending?]⟩
  | readsCells response cacheHit hs => exact ⟨by simp, by simp [hp, hs, Stage.pending?]⟩
  | fails e hs => exact ⟨ofError_ne_submitted e, by simp [hp, hs, Stage.pending?]⟩
  | refusesCells cells hs => simp [hs, Stage.isRunning] at hx
  | opensCells cells hs => simp [hs, Stage.isRunning] at hx
  | _ => cases hg

/-- An execution whose phase is recorded touches nothing but cell sets. -/
theorem settled (h : x.Advance config s d t g s' d') (hx : x.stage.isRunning = false) :
    g.isRunning = false ∧ s.Alike s' ∧ d'.calls = d.calls := by
  cases h with
  | rest => exact ⟨hx, .refl s, rfl⟩
  | refusesCells => exact ⟨rfl, .refl s, rfl⟩
  | opensCells =>
    refine ⟨rfl, ⟨rfl, rfl, rfl, rfl, rfl⟩, ?_⟩
    cases s.openCellSet <;> rfl
  | _ => simp_all [Stage.isRunning]

end Execution.Advance

/-! ### Scenes -/

namespace Scene

/-- The scene in which an execution has got on. -/
def advance (s : Scene) (n : Nat) (x : Execution) (statement : Statement) (desk : Desk) : Scene :=
  { s with statement := statement, desk := desk, executions := s.executions.set n x }

theorem after_turn_eq (s : Scene) (n : Nat) (x y : Execution) (t : Turn) (statement : Statement)
    (desk : Desk) (hx : s.executions[n]? = some x)
    (he : x.take t s.config s.statement s.desk = (y, statement, desk)) :
    s.after (.turn n t) = s.advance n y statement desk := by
  simp only [after, hx, he]
  rfl

theorem after_turn (s : Scene) (n : Nat) (x : Execution) (t : Turn)
    (hx : s.executions[n]? = some x) :
    ∃ g statement desk, s.after (.turn n t) = s.advance n (x.goTo g) statement desk ∧
      x.Advance s.config s.statement s.desk t g statement desk := by
  obtain ⟨g, statement, desk, he, ha⟩ := x.take_listed s.config s.statement s.desk t
  exact ⟨g, statement, desk, s.after_turn_eq n x _ t statement desk hx he, ha⟩

theorem after_turn_none (s : Scene) (n : Nat) (t : Turn) (hx : s.executions[n]? = none) :
    s.after (.turn n t) = s := by
  simp [after, hx]

/-- The execution of a number runs, and no other does. -/
structure Runs (s : Scene) (n : Nat) (x : Execution) : Prop where
  here : s.executions[n]? = some x
  running : x.stage.isRunning = true
  phase : s.statement.phase = .submitted
  pending : s.statement.pending = x.stage.pending?
  alone : ∀ k y, s.executions[k]? = some y → y.stage.isRunning = true → k = n

/-- No execution runs. -/
structure Idle (s : Scene) : Prop where
  phase : s.statement.phase ≠ .submitted
  pending : s.statement.pending = none
  resting : ∀ (k : Nat) (y : Execution), s.executions[k]? = some y → y.stage.isRunning = false

theorem new_idle (config : Config) (session : Option String) (desk : Desk) :
    (new config session desk).Idle := by
  refine ⟨by simp [new, Statement.ofConfig], rfl, ?_⟩
  intro k y hy
  simp [new] at hy

theorem getElem?_advance (s : Scene) (n k : Nat) (x y : Execution) (statement : Statement)
    (desk : Desk) (h : (s.advance n x statement desk).executions[k]? = some y) :
    (k = n ∧ y = x) ∨ (k ≠ n ∧ s.executions[k]? = some y) := by
  by_cases hk : n = k
  · rw [advance, List.getElem?_set, if_pos hk] at h
    split at h
    · exact .inl ⟨hk.symm, (Option.some.inj h).symm⟩
    · cases h
  · rw [advance, List.getElem?_set, if_neg hk] at h
    exact .inr ⟨fun he => hk he.symm, h⟩

theorem getElem?_advance_self (s : Scene) (n : Nat) (x y : Execution) (statement : Statement)
    (desk : Desk) (hy : s.executions[n]? = some y) :
    (s.advance n x statement desk).executions[n]? = some x := by
  obtain ⟨hl, -⟩ := List.getElem?_eq_some_iff.mp hy
  simp [advance, hl]

/-- Only its own turns move an attempt. -/
theorem getElem?_after (s : Scene) (n : Nat) (x : Execution) (m : Move)
    (hx : s.executions[n]? = some x) (hm : ∀ t, m ≠ .turn n t) :
    (s.after m).executions[n]? = some x := by
  cases m with
  | attempt job =>
    obtain ⟨hl, -⟩ := List.getElem?_eq_some_iff.mp hx
    exact (List.getElem?_append_left hl).trans hx
  | turn k t =>
    have hk : k ≠ n := by
      intro he
      exact hm t (by rw [he])
    cases hy : s.executions[k]? with
    | none =>
      rw [s.after_turn_none k t hy]
      exact hx
    | some y =>
      obtain ⟨g, statement, desk, he, -⟩ := s.after_turn k y t hy
      rw [he]
      simp [advance, hk, hx]
  | setTimeout seconds =>
    obtain ⟨timeout, he⟩ := s.after_setTimeout_eq seconds
    rw [he]
    exact hx
  | cancel => exact hx
  | close => exact hx
  | configure config => exact hx
  | closeCellSet k => exact hx
  | addCellSet cells => exact hx
  | setCalls calls => exact hx

/-- An attempt gets on by a turn of its own, or stands where it stood. -/
theorem after_cases (s : Scene) (n : Nat) (x : Execution) (m : Move)
    (hx : s.executions[n]? = some x) :
    (∃ t g statement desk, m = .turn n t ∧ s.after m = s.advance n (x.goTo g) statement desk ∧
      x.Advance s.config s.statement s.desk t g statement desk ∧
      (s.after m).executions[n]? = some (x.goTo g)) ∨
    ((∀ t, m ≠ .turn n t) ∧ (s.after m).executions[n]? = some x) := by
  by_cases hm : ∃ t, m = .turn n t
  · obtain ⟨t, rfl⟩ := hm
    obtain ⟨g, statement, desk, he, ha⟩ := s.after_turn n x t hx
    have hg := s.getElem?_advance_self n (x.goTo g) x statement desk hx
    rw [← he] at hg
    exact .inl ⟨t, g, statement, desk, rfl, he, ha, hg⟩
  · have hm' : ∀ t, m ≠ .turn n t := fun t ht => hm ⟨t, ht⟩
    exact .inr ⟨hm', s.getElem?_after n x m hx hm'⟩

/-- What turns keep of a stage, runs keep. -/
theorem stage_run (P : Stage → Prop)
    (hP : ∀ {x : Execution} {config s d t g s' d'}, x.Advance config s d t g s' d' →
      P x.stage → P g) (s : Scene) (n : Nat) (ms : List Move)
    (h : ∃ x, s.executions[n]? = some x ∧ P x.stage) :
    ∃ x, (s.run ms).executions[n]? = some x ∧ P x.stage := by
  refine run_keeps (fun s => ∃ x, s.executions[n]? = some x ∧ P x.stage) ?_ s ms h
  rintro s m ⟨x, hx, hxP⟩
  obtain ⟨t, g, statement, desk, -, -, ha, hg⟩ | ⟨-, hk⟩ := s.after_cases n x m hx
  · exact ⟨_, hg, hP ha hxP⟩
  · exact ⟨x, hk, hxP⟩

theorem length_after (s : Scene) (m : Move) (hm : ∀ job, m ≠ .attempt job) :
    (s.after m).executions.length = s.executions.length := by
  cases m with
  | attempt job => exact absurd rfl (hm job)
  | turn k t =>
    cases hy : s.executions[k]? with
    | none => rw [s.after_turn_none k t hy]
    | some y =>
      obtain ⟨g, statement, desk, he, -⟩ := s.after_turn k y t hy
      simp [he, advance]
  | setTimeout seconds =>
    obtain ⟨timeout, he⟩ := s.after_setTimeout_eq seconds
    rw [he]
  | cancel => rfl
  | close => rfl
  | configure config => rfl
  | closeCellSet k => rfl
  | addCellSet cells => rfl
  | setCalls calls => rfl

/-- What stands at a number after a move stood there before, got on by a turn of its own, or is
the attempt that the move made. -/
theorem getElem?_of_after (s : Scene) (n : Nat) (y : Execution) (m : Move)
    (hy : (s.after m).executions[n]? = some y) :
    s.executions[n]? = some y ∨ (∃ t x, m = .turn n t ∧ s.executions[n]? = some x) ∨
      ∃ job, m = .attempt job ∧ n = s.executions.length ∧ y = s.attempted job := by
  cases hx : s.executions[n]? with
  | some x =>
    by_cases hm : ∃ t, m = .turn n t
    · obtain ⟨t, rfl⟩ := hm
      exact .inr (.inl ⟨t, x, rfl, rfl⟩)
    · have hk := s.getElem?_after n x m hx (fun t ht => hm ⟨t, ht⟩)
      exact .inl (hk.symm.trans hy)
  | none =>
    have hl := List.getElem?_eq_none_iff.mp hx
    obtain ⟨hn, -⟩ := List.getElem?_eq_some_iff.mp hy
    by_cases hm : ∃ job, m = .attempt job
    · obtain ⟨job, rfl⟩ := hm
      have ha : (s.after (.attempt job)).executions = s.executions ++ [s.attempted job] := rfl
      rw [ha, List.length_append, List.length_singleton] at hn
      have he : n = s.executions.length := by omega
      subst he
      rw [ha, List.getElem?_concat_length] at hy
      exact .inr (.inr ⟨job, rfl, rfl, (Option.some.inj hy).symm⟩)
    · have he := s.length_after m (fun job hj => hm ⟨job, hj⟩)
      omega

/-! ### Attempts -/

/-- What an attempt does: the stage, the statement and the desk that it leaves. -/
inductive Entry (s : Scene) (job : Job) : Stage → Statement → Desk → Prop where
  | refused (e : ClientError) (h : s.statement.isClosed = true ∨ s.statement.phase = .submitted)
      (he : e = .closed .statement ∨ e = .request .alreadyExecuting) :
      Entry s job (.returned (.error e)) s.statement s.desk
  /-- Let in: a cancellation that is left over ends the execution at once. -/
  | entered (phase : Phase) (g : Stage) (hc : s.statement.isClosed = false)
      (hp : s.statement.phase ≠ .submitted)
      (h : (s.statement.cancelRequested = true ∧ phase = .cancelled ∧
          g = .returned (.error .cancelled)) ∨
        (s.statement.cancelRequested = false ∧ phase = .submitted ∧ g = .admitted)) :
      Entry s job g { s.statement.makeWay job with cancelRequested := false, phase := phase }
        (s.desk.makeWay s.statement job)

theorem attempt_entry (s : Scene) (job : Job) :
    ∃ g statement desk, s.attempted job = ⟨job, s.statement.timeout, s.session, g⟩ ∧
      s.after (.attempt job) = { s with
        statement := statement
        desk := desk
        executions := s.executions ++ [⟨job, s.statement.timeout, s.session, g⟩] } ∧
      s.Entry job g statement desk := by
  cases hc : s.statement.isClosed with
  | true =>
    have hs := s.statement.start_closed s.desk job s.session hc
    exact ⟨_, _, _, by simp [attempted, hs], by simp [after, attempted, hs],
      .refused _ (.inl hc) (.inl rfl)⟩
  | false =>
    by_cases hp : s.statement.phase = .submitted
    · have hs := s.statement.start_busy s.desk job s.session hc hp
      exact ⟨_, _, _, by simp [attempted, hs], by simp [after, attempted, hs],
        .refused _ (.inr hp) (.inr rfl)⟩
    · cases hf : s.statement.cancelRequested with
      | true =>
        have hs := s.statement.start_cancelled s.desk job s.session hc hp hf
        exact ⟨_, _, _, by simp [attempted, hs], by simp [after, attempted, hs],
          .entered _ _ hc hp (.inl ⟨hf, rfl, rfl⟩)⟩
      | false =>
        have hs := s.statement.start_admitted s.desk job s.session hc hp hf
        exact ⟨_, _, _, by simp [attempted, hs], by simp [after, attempted, hs],
          .entered _ _ hc hp (.inr ⟨hf, rfl, rfl⟩)⟩

/-- An attempt that is let in. -/
theorem entry_of_entered (s : Scene) (job : Job) (hc : s.statement.isClosed = false)
    (hp : s.statement.phase ≠ .submitted) : ∃ phase g,
      ((s.statement.cancelRequested = true ∧ phase = .cancelled ∧
          g = .returned (.error .cancelled)) ∨
        (s.statement.cancelRequested = false ∧ phase = .submitted ∧ g = .admitted)) ∧
      s.attempted job = ⟨job, s.statement.timeout, s.session, g⟩ ∧
      (s.after (.attempt job)).statement =
        { s.statement.makeWay job with cancelRequested := false, phase := phase } ∧
      (s.after (.attempt job)).desk = s.desk.makeWay s.statement job := by
  obtain ⟨g, statement, desk, hx, he, hentry⟩ := s.attempt_entry job
  cases hentry with
  | refused e h =>
    obtain h | h := h
    · rw [hc] at h
      cases h
    · exact absurd h hp
  | entered phase g hc hp h => exact ⟨phase, g, h, hx, by rw [he], by rw [he]⟩

theorem attempted_stage (s : Scene) (job : Job) :
    (s.attempted job).stage = .admitted ∨ ∃ e, (s.attempted job).stage = .returned (.error e) := by
  obtain ⟨g, statement, desk, hx, -, hentry⟩ := s.attempt_entry job
  rw [hx]
  cases hentry with
  | refused e => exact .inr ⟨e, rfl⟩
  | entered phase g hc hp h =>
    obtain ⟨-, -, rfl⟩ | ⟨-, -, rfl⟩ := h
    · exact .inr ⟨_, rfl⟩
    · exact .inl rfl

theorem attempted_fields (s : Scene) (job : Job) : (s.attempted job).job = job ∧
    (s.attempted job).session = s.session ∧ (s.attempted job).timeout = s.statement.timeout := by
  obtain ⟨g, statement, desk, hx, -⟩ := s.attempt_entry job
  rw [hx]
  exact ⟨rfl, rfl, rfl⟩

theorem answer_of_attempt (s : Scene) (job : Job) :
    (s.after (.attempt job)).answer? s.executions.length = (s.attempted job).result? := by
  simp [answer?, Scene.after]

theorem after_turn_settled (s : Scene) (n : Nat) (x : Execution) (t : Turn)
    (hx : s.executions[n]? = some x) (hr : x.stage.isRunning = false) :
    ∃ g statement desk, g.isRunning = false ∧ s.statement.Alike statement ∧
      desk.calls = s.desk.calls ∧
      s.after (.turn n t) = s.advance n (x.goTo g) statement desk := by
  obtain ⟨g, statement, desk, he, ha⟩ := s.after_turn n x t hx
  obtain ⟨hg, hs, hd⟩ := ha.settled hr
  exact ⟨g, statement, desk, hg, hs, hd, he⟩

theorem after_attempt_refused (s : Scene) (job : Job) (e : ClientError)
    (h : (s.statement.start s.desk job s.session).2 = (.error e, s.statement, s.desk)) :
    s.after (.attempt job) = { s with executions := s.executions ++
      [⟨job, s.statement.timeout, s.session, .returned (.error e)⟩] } := by
  simp only [after, attempted, h]

/-- While an execution runs, every attempt is refused. -/
theorem after_attempt_busy (s : Scene) (job : Job) (hp : s.statement.phase = .submitted) :
    ∃ e, s.after (.attempt job) = { s with executions := s.executions ++
      [⟨job, s.statement.timeout, s.session, .returned (.error e)⟩] } := by
  obtain ⟨g, statement, desk, -, he, hentry⟩ := s.attempt_entry job
  cases hentry with
  | refused e => exact ⟨e, he⟩
  | entered phase g _ hn => exact absurd hp hn

/-- What a move does to the flag and the calls that is neither an attempt nor a turn nor an action
on the calls: nothing, or it is a cancellation without a pending call, or it cancels that call. -/
theorem flag_cases (s : Scene) (m : Move) (ha : ∀ job, m ≠ .attempt job)
    (ht : ∀ k t, m ≠ .turn k t) (hc : ∀ calls, m ≠ .setCalls calls) :
    ((s.after m).statement.cancelRequested = s.statement.cancelRequested ∧
      (s.after m).desk.calls = s.desk.calls ∧ (m = .cancel → s.statement.pending ≠ none)) ∨
    (m = .cancel ∧ s.statement.pending = none ∧
      (s.after m).statement.cancelRequested = true ∧ (s.after m).desk.calls = s.desk.calls) ∨
    ∃ call, s.statement.pending = some call ∧ s.desk.calls[call]? = some .unresolved ∧
      (s.after m).statement.cancelRequested = true ∧
      (s.after m).desk.calls = s.desk.calls.set call .cancelled := by
  cases m with
  | attempt job => exact absurd rfl (ha job)
  | turn k t => exact absurd rfl (ht k t)
  | setCalls calls => exact absurd rfl (hc calls)
  | cancel =>
    obtain hp | ⟨call, hp⟩ := Option.eq_none_or_eq_some s.statement.pending
    · have he := s.statement.cancel_early s.desk hp
      exact .inr (.inl ⟨rfl, hp, by simp [after, he], by simp [after, he]⟩)
    · by_cases hu : s.desk.calls[call]? = some .unresolved
      · have he := s.statement.cancel_won s.desk call hp hu
        exact .inr (.inr ⟨call, hp, hu, by simp [after, he], by simp [after, he]⟩)
      · have he := s.statement.cancel_lost s.desk call hp hu
        exact .inl ⟨by simp [after, he], by simp [after, he], by simp [hp]⟩
  | close =>
    cases hcl : s.statement.isClosed with
    | true =>
      have he := s.statement.close_again s.desk hcl
      exact .inl ⟨by simp [after, he], by simp [after, he], by simp⟩
    | false =>
      obtain hp | ⟨call, hp⟩ := Option.eq_none_or_eq_some s.statement.pending
      · have he := s.statement.close_idle s.desk hcl hp
        exact .inl ⟨by simp [after, he, Statement.shut],
          by simp [after, he, closeLeftOpen_calls], by simp⟩
      · by_cases hu : s.desk.calls[call]? = some .unresolved
        · have he := s.statement.close_won s.desk call hcl hp hu
          exact .inr (.inr ⟨call, hp, hu, by simp [after, he], by simp [after, he]⟩)
        · have he := s.statement.close_lost s.desk call hcl hp hu
          exact .inl ⟨by simp [after, he, Statement.shut],
            by simp [after, he, closeLeftOpen_calls], by simp⟩
  | setTimeout seconds =>
    obtain ⟨timeout, he⟩ := s.after_setTimeout_eq seconds
    rw [he]
    exact .inl ⟨rfl, rfl, by simp⟩
  | configure config => exact .inl ⟨rfl, rfl, by simp⟩
  | closeCellSet k => exact .inl ⟨rfl, rfl, by simp⟩
  | addCellSet cells => exact .inl ⟨rfl, rfl, by simp⟩

/-! ### Moves while an execution runs -/

namespace Runs

variable {s : Scene} {n : Nat} {x : Execution}

theorem advance (h : s.Runs n x) {t : Turn} {g : Stage} {statement : Statement} {desk : Desk}
    (ha : x.Advance s.config s.statement s.desk t g statement desk) (hg : g.isRunning = true) :
    (s.advance n (x.goTo g) statement desk).Runs n (x.goTo g) := by
  obtain ⟨hphase, hpending⟩ := ha.stays h.pending hg
  refine ⟨s.getElem?_advance_self n _ x statement desk h.here, hg, ?_, hpending, ?_⟩
  · exact hphase.trans h.phase
  · intro k y hy hr
    obtain ⟨hk, -⟩ | ⟨-, hy⟩ := s.getElem?_advance n k _ y statement desk hy
    · exact hk
    · exact h.alone k y hy hr

theorem leave (h : s.Runs n x) {t : Turn} {g : Stage} {statement : Statement} {desk : Desk}
    (ha : x.Advance s.config s.statement s.desk t g statement desk) (hg : g.isRunning = false) :
    (s.advance n (x.goTo g) statement desk).Idle := by
  obtain ⟨hphase, hpending⟩ := ha.leaves h.running h.pending hg
  refine ⟨hphase, hpending, ?_⟩
  intro k y hy
  obtain ⟨-, rfl⟩ | ⟨hk, hy⟩ := s.getElem?_advance n k _ y statement desk hy
  · exact hg
  · cases hr : y.stage.isRunning with
    | false => rfl
    | true => exact absurd (h.alone k y hy hr) hk

theorem keep (h : s.Runs n x) {s' : Scene} (he : s'.executions = s.executions)
    (hp : s'.statement.phase = s.statement.phase)
    (hq : s'.statement.pending = s.statement.pending) : s'.Runs n x := by
  refine ⟨?_, h.running, hp.trans h.phase, hq.trans h.pending, ?_⟩
  · rw [he]
    exact h.here
  · rw [he]
    exact h.alone

theorem after_attempt (h : s.Runs n x) (job : Job) : (s.after (.attempt job)).Runs n x := by
  obtain ⟨e, he⟩ := s.after_attempt_busy job h.phase
  rw [he]
  obtain ⟨hn, -⟩ := List.getElem?_eq_some_iff.mp h.here
  refine ⟨?_, h.running, h.phase, h.pending, ?_⟩
  · exact (List.getElem?_append_left hn).trans h.here
  · intro k y hy hr
    rw [List.getElem?_append] at hy
    split at hy
    · exact h.alone k y hy hr
    · rw [List.getElem?_singleton] at hy
      split at hy
      · cases hy
        cases hr
      · cases hy

theorem resting (h : s.Runs n x) (k : Nat) (hk : k ≠ n) (y : Execution)
    (hy : s.executions[k]? = some y) : y.stage.isRunning = false := by
  cases hr : y.stage.isRunning with
  | false => rfl
  | true => exact absurd (h.alone k y hy hr) hk

theorem kept_by_other (h : s.Runs n x) (k : Nat) (t : Turn) (hk : k ≠ n) :
    (s.after (.turn k t)).statement.cancelRequested = s.statement.cancelRequested ∧
      (s.after (.turn k t)).desk.calls = s.desk.calls := by
  cases hy : s.executions[k]? with
  | none =>
    rw [s.after_turn_none k t hy]
    exact ⟨rfl, rfl⟩
  | some y =>
    obtain ⟨g, statement, desk, -, hs, hd, he⟩ :=
      s.after_turn_settled k y t hy (h.resting k hk y hy)
    rw [he]
    exact ⟨hs.cancelRequested, hd⟩

theorem after_other (h : s.Runs n x) (k : Nat) (t : Turn) (hk : k ≠ n) :
    (s.after (.turn k t)).Runs n x := by
  cases hy : s.executions[k]? with
  | none =>
    rw [s.after_turn_none k t hy]
    exact h
  | some y =>
    have hr := h.resting k hk y hy
    obtain ⟨g, statement, desk, hg, hs, -, he⟩ := s.after_turn_settled k y t hy hr
    rw [he]
    refine ⟨?_, h.running, hs.phase.trans h.phase, hs.pending.trans h.pending, ?_⟩
    · simp [Scene.advance, hk, h.here]
    · intro i z hz hrz
      obtain ⟨-, rfl⟩ | ⟨-, hz⟩ := s.getElem?_advance k i _ z statement desk hz
      · rw [Execution.goTo_stage, hg] at hrz
        cases hrz
      · exact h.alone i z hz hrz

theorem after_cancel (h : s.Runs n x) : (s.after .cancel).Runs n x := by
  obtain ⟨hp, hq, -⟩ := s.statement.cancel_keeps s.desk
  exact h.keep rfl hp hq

theorem after_close (h : s.Runs n x) : (s.after .close).Runs n x := by
  obtain ⟨hp, hq⟩ := s.statement.close_keeps s.desk
  exact h.keep rfl hp hq

theorem after_setTimeout (h : s.Runs n x) (seconds : Int) :
    (s.after (.setTimeout seconds)).Runs n x := by
  obtain ⟨timeout, he⟩ := s.after_setTimeout_eq seconds
  rw [he]
  exact h.keep rfl rfl rfl

/-- While an execution runs, only its own turns move it. -/
theorem after_move (h : s.Runs n x) (m : Move) (hm : ∀ t, m ≠ .turn n t) :
    (s.after m).Runs n x := by
  cases m with
  | attempt job => exact h.after_attempt job
  | turn k t =>
    have hk : k ≠ n := by
      intro he
      exact hm t (by rw [he])
    exact h.after_other k t hk
  | cancel => exact h.after_cancel
  | close => exact h.after_close
  | setTimeout seconds => exact h.after_setTimeout seconds
  | configure config => exact h.keep rfl rfl rfl
  | closeCellSet k => exact h.keep rfl rfl rfl
  | addCellSet cells => exact h.keep rfl rfl rfl
  | setCalls calls => exact h.keep rfl rfl rfl

/-- What a move by others does to the flag and the calls: nothing, unless it sets the calls, or it
is a cancellation that finds no call pending, or it cancels the pending call. -/
theorem others_cases (h : s.Runs n x) (m : Move) (hm : ∀ t, m ≠ .turn n t) :
    ((s.after m).statement.cancelRequested = s.statement.cancelRequested ∧
      ((∀ calls, m ≠ .setCalls calls) → (s.after m).desk.calls = s.desk.calls) ∧
      (m = .cancel → x.stage.pending? ≠ none)) ∨
    (m = .cancel ∧ x.stage.pending? = none ∧ (s.after m).statement.cancelRequested = true ∧
      (s.after m).desk.calls = s.desk.calls) ∨
    ∃ call, x.stage.pending? = some call ∧ s.desk.calls[call]? = some .unresolved ∧
      (s.after m).statement.cancelRequested = true ∧
      (s.after m).desk.calls = s.desk.calls.set call .cancelled := by
  by_cases ha : ∃ job, m = .attempt job
  · obtain ⟨job, rfl⟩ := ha
    obtain ⟨e, he⟩ := s.after_attempt_busy job h.phase
    exact .inl ⟨by rw [he], fun _ => by rw [he], by simp⟩
  by_cases ht : ∃ k t, m = .turn k t
  · obtain ⟨k, t, rfl⟩ := ht
    have hk : k ≠ n := by
      intro he
      exact hm t (by rw [he])
    obtain ⟨hf, hd⟩ := h.kept_by_other k t hk
    exact .inl ⟨hf, fun _ => hd, by simp⟩
  by_cases hc : ∃ calls, m = .setCalls calls
  · obtain ⟨calls, rfl⟩ := hc
    exact .inl ⟨rfl, fun hno => absurd rfl (hno calls), by simp⟩
  rw [← h.pending]
  rcases s.flag_cases m (fun job e => ha ⟨job, e⟩) (fun k t e => ht ⟨k, t, e⟩)
    (fun calls e => hc ⟨calls, e⟩) with ⟨hf, hd, hp⟩ | hcancel | hwon
  · exact .inl ⟨hf, fun _ => hd, hp⟩
  · exact .inr (.inl hcancel)
  · exact .inr (.inr hwon)

theorem flag_after (h : s.Runs n x) (m : Move) (hm : ∀ t, m ≠ .turn n t) :
    ((s.after m).statement.cancelRequested = s.statement.cancelRequested ∧
      (m = .cancel → x.stage.pending? ≠ none)) ∨
    (m = .cancel ∧ x.stage.pending? = none ∧ (s.after m).statement.cancelRequested = true) ∨
    ∃ call, x.stage.pending? = some call ∧ s.desk.calls[call]? = some .unresolved ∧
      (s.after m).statement.cancelRequested = true := by
  rcases h.others_cases m hm with ⟨hf, -, hp⟩ | ⟨he, hp, hf, -⟩ | ⟨call, hp, hu, hf, -⟩
  · exact .inl ⟨hf, hp⟩
  · exact .inr (.inl ⟨he, hp, hf⟩)
  · exact .inr (.inr ⟨call, hp, hu, hf⟩)

theorem call_after (h : s.Runs n x) (m : Move) (hm : ∀ t, m ≠ .turn n t)
    (hc : ∀ calls, m ≠ .setCalls calls) (call : Nat)
    (hcall : s.desk.calls[call]? = some Call.cancelled) :
    (s.after m).desk.calls[call]? = some Call.cancelled := by
  rcases h.others_cases m hm with ⟨-, hd, -⟩ | ⟨-, -, -, hd⟩ | ⟨k, -, -, -, hd⟩
  · rw [hd hc]
    exact hcall
  · rw [hd]
    exact hcall
  · rw [hd, List.getElem?_set]
    split
    · obtain ⟨hl, -⟩ := List.getElem?_eq_some_iff.mp hcall
      subst_vars
      simp [hl]
    · exact hcall

/-- A running execution runs on after a move, or leaves the statement idle. -/
theorem after_run (h : s.Runs n x) (m : Move) :
    (∃ y, (s.after m).Runs n y) ∨ (s.after m).Idle := by
  by_cases hm : ∃ t, m = .turn n t
  · obtain ⟨t, rfl⟩ := hm
    obtain ⟨g, statement, desk, he, ha⟩ := s.after_turn n x t h.here
    rw [he]
    cases hg : g.isRunning with
    | true => exact .inl ⟨_, h.advance ha hg⟩
    | false => exact .inr (h.leave ha hg)
  · refine .inl ⟨x, h.after_move m ?_⟩
    intro t ht
    exact hm ⟨t, ht⟩

end Runs

/-! ### Moves while no execution runs -/

namespace Idle

variable {s : Scene}

theorem keep (h : s.Idle) {s' : Scene} (he : s'.executions = s.executions)
    (hp : s'.statement.phase = s.statement.phase)
    (hq : s'.statement.pending = s.statement.pending) : s'.Idle := by
  refine ⟨hp ▸ h.phase, hq.trans h.pending, ?_⟩
  rw [he]
  exact h.resting

theorem keep_append (h : s.Idle) {s' : Scene} (x : Execution) (hx : x.stage.isRunning = false)
    (he : s'.executions = s.executions ++ [x]) (hp : s'.statement.phase ≠ .submitted)
    (hq : s'.statement.pending = none) : s'.Idle := by
  refine ⟨hp, hq, ?_⟩
  intro k y hy
  rw [he, List.getElem?_append] at hy
  split at hy
  · exact h.resting k y hy
  · rw [List.getElem?_singleton] at hy
    split at hy
    · cases hy
      exact hx
    · cases hy

/-- The execution that an idle statement admits. -/
def admission (s : Scene) (job : Job) : Execution :=
  { job := job, timeout := s.statement.timeout, session := s.session }

/-- An attempt on an idle statement is refused, or admitted without a cancellation left over. -/
theorem after_attempt (h : s.Idle) (job : Job) :
    (s.after (.attempt job)).Idle ∨
      ((s.after (.attempt job)).Runs s.executions.length (admission s job) ∧
        (s.after (.attempt job)).statement.cancelRequested = false) := by
  have hq := (s.statement.makeWay_pending job).trans h.pending
  obtain ⟨g, statement, desk, -, he, hentry⟩ := s.attempt_entry job
  rw [he]
  cases hentry with
  | refused e => exact .inl (h.keep_append _ rfl rfl h.phase h.pending)
  | entered phase g _ _ hg =>
    obtain ⟨-, rfl, rfl⟩ | ⟨-, rfl, rfl⟩ := hg
    · exact .inl (h.keep_append _ rfl rfl (by simp) hq)
    · refine .inr ⟨⟨List.getElem?_concat_length, rfl, rfl, hq, ?_⟩, rfl⟩
      intro k y hy hr
      rw [List.getElem?_append] at hy
      split at hy
      · rw [h.resting k y hy] at hr
        cases hr
      · rename_i hk
        rw [List.getElem?_singleton] at hy
        split at hy
        · omega
        · cases hy

theorem after_turn (h : s.Idle) (n : Nat) (t : Turn) : (s.after (.turn n t)).Idle := by
  cases hx : s.executions[n]? with
  | none =>
    rw [s.after_turn_none n t hx]
    exact h
  | some x =>
    obtain ⟨g, statement, desk, hg, hs, -, he⟩ := s.after_turn_settled n x t hx (h.resting n x hx)
    rw [he]
    refine ⟨hs.phase ▸ h.phase, hs.pending.trans h.pending, ?_⟩
    intro k y hy
    obtain ⟨-, rfl⟩ | ⟨-, hy⟩ := s.getElem?_advance n k _ y statement desk hy
    · exact hg
    · exact h.resting k y hy

theorem after_cancel (h : s.Idle) : (s.after .cancel).Idle := by
  obtain ⟨hp, hq, -⟩ := s.statement.cancel_keeps s.desk
  exact h.keep rfl hp hq

theorem after_close (h : s.Idle) : (s.after .close).Idle := by
  obtain ⟨hp, hq⟩ := s.statement.close_keeps s.desk
  exact h.keep rfl hp hq

theorem after_setTimeout (h : s.Idle) (seconds : Int) : (s.after (.setTimeout seconds)).Idle := by
  obtain ⟨timeout, he⟩ := s.after_setTimeout_eq seconds
  rw [he]
  exact h.keep rfl rfl rfl

/-- Only an attempt ends the idleness of a statement. -/
theorem after_move (h : s.Idle) (m : Move) (hm : ∀ job, m ≠ .attempt job) : (s.after m).Idle := by
  cases m with
  | attempt job => exact absurd rfl (hm job)
  | turn k t => exact h.after_turn k t
  | cancel => exact h.after_cancel
  | close => exact h.after_close
  | setTimeout seconds => exact h.after_setTimeout seconds
  | configure config => exact h.keep rfl rfl rfl
  | closeCellSet k => exact h.keep rfl rfl rfl
  | addCellSet cells => exact h.keep rfl rfl rfl
  | setCalls calls => exact h.keep rfl rfl rfl

/-- On an idle statement, only attempts and cancellations touch the flag. -/
theorem flag_after (h : s.Idle) (m : Move) (hm : ∀ job, m ≠ .attempt job) :
    (s.after m).statement.cancelRequested = true ↔
      s.statement.cancelRequested = true ∨ m = .cancel := by
  by_cases ht : ∃ k t, m = .turn k t
  · obtain ⟨k, t, rfl⟩ := ht
    cases hx : s.executions[k]? with
    | none => simp [s.after_turn_none k t hx]
    | some x =>
      obtain ⟨g, statement, desk, -, hs, -, he⟩ :=
        s.after_turn_settled k x t hx (h.resting k x hx)
      simp [he, advance, hs.cancelRequested]
  by_cases hc : ∃ calls, m = .setCalls calls
  · obtain ⟨calls, rfl⟩ := hc
    simp [Scene.after]
  rcases s.flag_cases m hm (fun k t e => ht ⟨k, t, e⟩) (fun calls e => hc ⟨calls, e⟩)
    with ⟨hf, -, hp⟩ | ⟨he, -, hf, -⟩ | ⟨call, hp, -, -, -⟩
  · have hne : m ≠ .cancel := fun he => hp he h.pending
    simp [hf, hne]
  · exact ⟨fun _ => .inr he, fun _ => hf⟩
  · rw [h.pending] at hp
    cases hp

theorem after_run (h : s.Idle) (m : Move) : (∃ n y, (s.after m).Runs n y) ∨ (s.after m).Idle := by
  by_cases hm : ∃ job, m = .attempt job
  · obtain ⟨job, rfl⟩ := hm
    obtain hi | ⟨hr, -⟩ := h.after_attempt job
    · exact .inr hi
    · exact .inl ⟨_, _, hr⟩
  · refine .inr (h.after_move m ?_)
    intro job he
    exact hm ⟨job, he⟩

end Idle

/-! ### Every scene -/

/-- One execution runs, or none does. -/
def Ordered (s : Scene) : Prop := (∃ n x, s.Runs n x) ∨ s.Idle

theorem Ordered.after {s : Scene} (h : s.Ordered) (m : Move) : (s.after m).Ordered := by
  obtain ⟨n, x, h⟩ | h := h
  · obtain ⟨y, hy⟩ | hi := h.after_run m
    · exact .inl ⟨n, y, hy⟩
    · exact .inr hi
  · exact h.after_run m

theorem Ordered.run {s : Scene} (h : s.Ordered) (ms : List Move) : (s.run ms).Ordered :=
  run_keeps Ordered (fun _ m h => h.after m) s ms h

theorem Ordered.runs {s : Scene} (h : s.Ordered) (n : Nat) (x : Execution)
    (hx : s.executions[n]? = some x) (hr : x.stage.isRunning = true) : s.Runs n x := by
  obtain ⟨k, z, hz⟩ | hi := h
  · have hk := hz.alone n x hx hr
    subst hk
    have hxz := Option.some.inj (hx.symm.trans hz.here)
    rw [hxz]
    exact hz
  · rw [hi.resting n x hx] at hr
    cases hr

theorem new_ordered (config : Config) (session : Option String) (desk : Desk) :
    (new config session desk).Ordered :=
  .inr (new_idle config session desk)

end Scene

end OlapClient
