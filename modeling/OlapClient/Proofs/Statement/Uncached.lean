import OlapClient.Proofs.Statement.Occupancy

/-!
# Scenes without their cache

A cache that has nothing and takes everything only delays an execution: while it looks up or stores,
it is as far as an execution without a cache that is about to go on. With the waits for the cache
left out, a run with such a cache is a run without one, move by move.
-/

namespace OlapClient

namespace Stage

def isCached : Stage → Bool
  | looking _ | storing _ _ => true
  | _ => false

/-- The stage of an execution without a cache that is as far. -/
def uncached : Stage → Stage
  | looking m => checking m
  | storing _ response => reading response false
  | g => g

end Stage

namespace Reply

def isCached : Reply → Bool
  | got _ | stored _ => true
  | _ => false

/-- No reply of a cache, or one of a cache that has nothing and takes everything. -/
def isIdle : Reply → Bool
  | got (.ok none) | stored (.ok ()) => true
  | r => !r.isCached

end Reply

namespace Execution

variable (x : Execution) (config : Config) (s : Statement) (d : Desk)

def uncached : Execution := { x with session := none, stage := x.stage.uncached }

theorem result?_uncached : x.uncached.result? = x.result? := by
  obtain ⟨job, timeout, session, stage⟩ := x
  cases stage <;> rfl

/-! ### Turns -/

theorem step_uncached (h : x.stage.isCached = false) :
    (x.uncached.step config s d).2 =
      ((x.step config s d).2.1.uncached, (x.step config s d).2.2) := by
  obtain ⟨job, timeout, session, stage⟩ := x
  cases stage with
  | looking m => cases h
  | storing m response => cases h
  | admitted =>
    -- with a cache it goes on to look up, without one to check
    cases hb : job.request config with
    | error e => simp [uncached, Stage.uncached, step, build, hb, goTo]
    | ok body => cases session <;> simp [uncached, Stage.uncached, step, build, hb, goTo]
  | found response =>
    cases hf : s.cancelRequested <;> simp [uncached, Stage.uncached, step, useFound, hf, goTo]
  | checking m =>
    cases hf : s.cancelRequested <;> simp [uncached, Stage.uncached, step, check, hf, goTo]
  | registering m call =>
    cases hf : s.cancelRequested <;> simp [uncached, Stage.uncached, step, register, hf, goTo]
  | recording m call result =>
    cases session <;> cases hf : s.cancelRequested <;> cases result <;>
      simp [uncached, Stage.uncached, step, recordWait, hf, goTo]
  | reading response cacheHit =>
    cases hr : readStage job response cacheHit with
    | error e => simp [uncached, Stage.uncached, step, read, hr, goTo]
    | ok g =>
      have hreading : (Stage.reading response cacheHit).uncached = .reading response cacheHit := rfl
      have hg : g.uncached = g := by
        obtain ⟨-, r, rfl⟩ | ⟨-, cells, rfl⟩ := readStage_ok job response cacheHit g hr
        · rfl
        · rfl
      simp [uncached, hreading, hg, step, read, hr, goTo]
  | opening cells =>
    cases hc : s.isClosed <;> simp [uncached, Stage.uncached, step, openCells, hc, goTo]
  | failing e => simp [uncached, Stage.uncached, step, fail, goTo]
  | _ => rfl

theorem resume_uncached (h : x.stage.isCached = false) (r : Reply) :
    (x.uncached.resume r).2 = (x.resume r).2.uncached := by
  obtain ⟨job, timeout, session, stage⟩ := x
  cases stage with
  | looking m => cases h
  | storing m response => cases h
  | submitting m =>
    cases r with
    | submitted call => cases call <;> rfl
    | _ => rfl
  | waiting m call => cases r <;> rfl
  | _ => rfl

theorem endWait_uncached (h : x.stage.isCached = false) :
    x.uncached.endWait d = ((x.endWait d).1.uncached, (x.endWait d).2) := by
  obtain ⟨job, timeout, session, stage⟩ := x
  cases stage with
  | looking m => cases h
  | storing m response => cases h
  | waiting m call =>
    cases hw : d.calls.wait call timeout with
    | none => simp [endWait, uncached, Stage.uncached, hw]
    | some taken =>
      simp only [endWait, uncached, Stage.uncached, hw]
      rfl
  | _ => rfl

/-- An execution that does not wait for the cache gets on as it does without one. -/
theorem take_uncached (h : x.stage.isCached = false) (t : Turn) :
    x.uncached.take t config s d =
      ((x.take t config s d).1.uncached, (x.take t config s d).2) := by
  cases t with
  | step => exact x.step_uncached config s d h
  | reply r =>
    show ((x.uncached.resume r).2, s, d) = _
    rw [x.resume_uncached h]
    rfl
  | waited =>
    show ((x.uncached.endWait d).1, s, (x.uncached.endWait d).2) = _
    rw [x.endWait_uncached d h]
    rfl

/-- While an execution waits for an idle cache, it does not get on without it. -/
theorem take_cached (h : x.stage.isCached = true) (t : Turn)
    (hidle : ∀ r, t = .reply r → r.isIdle = true) :
    ∃ y, x.take t config s d = (y, s, d) ∧ y.uncached = x.uncached := by
  obtain ⟨job, timeout, session, stage⟩ := x
  cases stage with
  | looking m =>
    cases t with
    | step => exact ⟨_, rfl, rfl⟩
    | waited => exact ⟨_, rfl, rfl⟩
    | reply r =>
      have hr := hidle r rfl
      cases r with
      | got found =>
        match found, hr with
        | .ok none, _ => exact ⟨_, rfl, rfl⟩
      | _ => exact ⟨_, rfl, rfl⟩
  | storing m response =>
    cases t with
    | step => exact ⟨_, rfl, rfl⟩
    | waited => exact ⟨_, rfl, rfl⟩
    | reply r =>
      have hr := hidle r rfl
      cases r with
      | stored result =>
        match result, hr with
        | .ok (), _ => exact ⟨_, rfl, rfl⟩
      | _ => exact ⟨_, rfl, rfl⟩
  | _ => cases h

end Execution

/-- Whether a job is admitted does not depend on a cache. -/
theorem Statement.start_uncached (s : Statement) (d : Desk) (job : Job) (session : Option String) :
    (s.start d job none).2.1 = (s.start d job session).2.1.map Execution.uncached ∧
      (s.start d job none).2.2 = (s.start d job session).2.2 := by
  cases hc : s.isClosed with
  | true =>
    rw [s.start_closed d job none hc, s.start_closed d job session hc]
    exact ⟨rfl, rfl⟩
  | false =>
    by_cases hp : s.phase = .submitted
    · rw [s.start_busy d job none hc hp, s.start_busy d job session hc hp]
      exact ⟨rfl, rfl⟩
    · cases hf : s.cancelRequested with
      | true =>
        rw [s.start_cancelled d job none hc hp hf, s.start_cancelled d job session hc hp hf]
        exact ⟨rfl, rfl⟩
      | false =>
        rw [s.start_admitted d job none hc hp hf, s.start_admitted d job session hc hp hf]
        exact ⟨rfl, rfl⟩

/-! ### Moves -/

namespace Move

def isCached : Move → Bool
  | turn _ (.reply r) => r.isCached
  | _ => false

def isIdle : Move → Bool
  | turn _ (.reply r) => r.isIdle
  | _ => true

/-- What is done to the statement or around it, and is no turn of an execution. -/
def isOperation : Move → Bool
  | turn _ _ => false
  | _ => true

theorem idle_of_not_cached (m : Move) (h : m.isCached = false) : m.isIdle = true := by
  cases m with
  | turn n t =>
    cases t with
    | reply r =>
      cases r with
      | got found => cases h
      | stored result => cases h
      | _ => rfl
    | _ => rfl
  | _ => rfl

end Move

namespace Scene

variable (s : Scene)

def uncached : Scene :=
  { s with session := none, executions := s.executions.map Execution.uncached }

theorem uncached_new (config : Config) (session : Option String) (desk : Desk) :
    (new config session desk).uncached = new config none desk := rfl

theorem answer?_uncached (n : Nat) : s.uncached.answer? n = s.answer? n := by
  unfold answer? uncached
  rw [List.getElem?_map]
  cases s.executions[n]? with
  | none => rfl
  | some x => exact x.result?_uncached

def waitsFor : Move → Bool
  | .turn n _ => s.isAt n Stage.isCached
  | _ => false

theorem attempt_uncached (job : Job) :
    s.uncached.after (.attempt job) = (s.after (.attempt job)).uncached := by
  obtain ⟨hadmitted, hleft⟩ := s.statement.start_uncached s.desk job s.session
  have hattempted : s.uncached.attempted job = (s.attempted job).uncached := by
    have hstart : (s.uncached.statement.start s.uncached.desk job s.uncached.session).2.1 =
        (s.statement.start s.desk job s.session).2.1.map Execution.uncached := hadmitted
    unfold attempted
    rw [hstart]
    cases (s.statement.start s.desk job s.session).2.1 <;> rfl
  have hsame : (s.uncached.statement.start s.uncached.desk job s.uncached.session).2.2 =
      (s.statement.start s.desk job s.session).2.2 := hleft
  simp only [after, hattempted, hsame]
  unfold uncached
  simp only [List.map_append, List.map_singleton]

theorem uncached_advance (n : Nat) (x : Execution) (statement : Statement) (desk : Desk) :
    (s.advance n x statement desk).uncached = s.uncached.advance n x.uncached statement desk := by
  unfold uncached advance
  simp only [List.map_set]

theorem getElem?_uncached (n : Nat) :
    s.uncached.executions[n]? = s.executions[n]?.map Execution.uncached := List.getElem?_map ..

/-- A move that is no turn of a wait for the cache does the same without one. -/
theorem after_uncached (m : Move) (h : s.waitsFor m = false) :
    (s.after m).uncached = s.uncached.after m := by
  cases m with
  | attempt job => exact (s.attempt_uncached job).symm
  | turn n t =>
    cases hx : s.executions[n]? with
    | none =>
      rw [s.after_turn_none n t hx, after_turn_none _ n t (by rw [getElem?_uncached, hx]; rfl)]
    | some x =>
      have hstage : x.stage.isCached = false := by
        rw [← s.isAt_of n Stage.isCached x hx]
        exact h
      have hx' : s.uncached.executions[n]? = some x.uncached := by
        rw [getElem?_uncached, hx]
        rfl
      rw [s.after_turn_eq n x _ t _ _ hx rfl,
        s.uncached.after_turn_eq n x.uncached _ t _ _ hx'
          (x.take_uncached s.config s.statement s.desk hstage t)]
      exact s.uncached_advance ..
  | setTimeout seconds =>
    cases hset : s.statement.setTimeout seconds with
    | ok statement =>
      have hset' : s.uncached.statement.setTimeout seconds = .ok statement := hset
      simp only [after, hset, hset']
      rfl
    | error e =>
      have hset' : s.uncached.statement.setTimeout seconds = .error e := hset
      simp only [after, hset, hset']
  | _ => rfl

/-- A turn of a wait for an idle cache changes nothing that is left without it. -/
theorem wait_uncached (m : Move) (h : s.waitsFor m = true) (hidle : m.isIdle = true) :
    (s.after m).uncached = s.uncached := by
  cases m with
  | turn n t =>
    obtain ⟨x, hx, hstage⟩ := (s.isAt_iff n Stage.isCached).mp h
    obtain ⟨y, htake, hsame⟩ := x.take_cached s.config s.statement s.desk hstage t (by
      rintro r rfl
      exact hidle)
    rw [s.after_turn_eq n x y t _ _ hx htake, uncached_advance, hsame]
    have hx' : s.uncached.executions[n]? = some x.uncached := by
      rw [getElem?_uncached, hx]
      rfl
    obtain ⟨hlt, hself⟩ := List.getElem?_eq_some_iff.mp hx'
    show { s.uncached with executions := s.uncached.executions.set n x.uncached } = s.uncached
    rw [← hself, List.set_getElem_self hlt]
  | _ => cases h

/-! ### Runs -/

/-- The moves of a run without the turns of waits for the cache. -/
def withoutCache (s : Scene) : List Move → List Move
  | [] => []
  | m :: ms =>
    if s.waitsFor m then (s.after m).withoutCache ms else m :: (s.after m).withoutCache ms

theorem withoutCache_append (ms ns : List Move) :
    s.withoutCache (ms ++ ns) = s.withoutCache ms ++ (s.run ms).withoutCache ns := by
  induction ms generalizing s with
  | nil => rfl
  | cons m ms ih =>
    rw [List.cons_append, withoutCache, withoutCache, ih, run_cons]
    split
    · rfl
    · rfl

theorem operations_withoutCache (ms : List Move) :
    (s.withoutCache ms).filter Move.isOperation = ms.filter Move.isOperation := by
  induction ms generalizing s with
  | nil => rfl
  | cons m ms ih =>
    rw [withoutCache]
    cases h : s.waitsFor m with
    | true =>
      have hturn : m.isOperation = false := by
        cases m with
        | turn n t => rfl
        | _ => cases h
      rw [if_pos rfl, ih, List.filter_cons, hturn]
      rfl
    | false =>
      rw [if_neg Bool.false_ne_true, List.filter_cons, List.filter_cons, ih]

theorem run_uncached (ms : List Move) (hidle : ∀ m ∈ ms, m.isIdle = true) :
    (s.run ms).uncached = s.uncached.run (s.withoutCache ms) := by
  induction ms generalizing s with
  | nil => rfl
  | cons m ms ih =>
    have hrest := ih (s.after m) fun m' hm' => hidle m' (List.mem_cons_of_mem m hm')
    rw [run_cons, hrest, withoutCache]
    cases h : s.waitsFor m with
    | true =>
      rw [if_pos rfl, s.wait_uncached m h (hidle m List.mem_cons_self)]
    | false =>
      rw [if_neg Bool.false_ne_true, run_cons, s.after_uncached m h]

/-! ### Submissions -/

/-- The request that a move has submitted: the transport replies to the execution of a number. -/
def submittedBy (s : Scene) : Move → List (Nat × Message)
  | .turn n (.reply (.submitted _)) =>
    match s.stage? n with
    | some (.submitting m) => [(n, m)]
    | _ => []
  | _ => []

/-- The requests that were submitted along a run, in order. -/
def submissions (s : Scene) : List Move → List (Nat × Message)
  | [] => []
  | m :: ms => s.submittedBy m ++ (s.after m).submissions ms

theorem stage?_uncached (n : Nat) : s.uncached.stage? n = (s.stage? n).map Stage.uncached := by
  unfold stage?
  rw [getElem?_uncached]
  cases s.executions[n]? <;> rfl

theorem submittedBy_uncached (m : Move) : s.uncached.submittedBy m = s.submittedBy m := by
  cases m with
  | turn n t =>
    cases t with
    | reply r =>
      cases r with
      | submitted call =>
        unfold submittedBy
        simp only [stage?_uncached]
        cases s.stage? n with
        | none => rfl
        | some g => cases g <;> rfl
      | _ => rfl
    | _ => rfl
  | _ => rfl

theorem submittedBy_wait (m : Move) (h : s.waitsFor m = true) : s.submittedBy m = [] := by
  cases m with
  | turn n t =>
    obtain ⟨x, hx, hstage⟩ := (s.isAt_iff n Stage.isCached).mp h
    cases t with
    | reply r =>
      cases r with
      | submitted call =>
        have hg : s.stage? n = some x.stage := by
          rw [stage?, hx]
          rfl
        unfold submittedBy
        simp only [hg]
        cases hs : x.stage <;> simp_all [Stage.isCached]
      | _ => rfl
    | _ => rfl
  | _ => cases h

theorem submissions_uncached (ms : List Move) (hidle : ∀ m ∈ ms, m.isIdle = true) :
    s.uncached.submissions (s.withoutCache ms) = s.submissions ms := by
  induction ms generalizing s with
  | nil => rfl
  | cons m ms ih =>
    have hrest := ih (s.after m) fun m' hm' => hidle m' (List.mem_cons_of_mem m hm')
    rw [withoutCache, submissions]
    cases h : s.waitsFor m with
    | true =>
      rw [if_pos rfl, s.submittedBy_wait m h, List.nil_append, ← hrest,
        s.wait_uncached m h (hidle m List.mem_cons_self)]
    | false =>
      rw [if_neg Bool.false_ne_true, submissions, submittedBy_uncached, ← hrest,
        s.after_uncached m h]

end Scene

end OlapClient
