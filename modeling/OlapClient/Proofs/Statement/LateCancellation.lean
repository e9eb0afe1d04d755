import OlapClient.Proofs.Statement.Occupancy

/-!
# Cancellations that come too late

Up to the moment when its response is there, an execution notices every cancellation aimed at it.
From then on it does not look any more: unless the cache fails to store the response, a
cancellation outlives the execution and hits the next one. The main result says exactly when.
-/

namespace OlapClient

namespace Stage

/-- The response is there, and no check for a cancellation follows. -/
def hasResponse : Stage → Bool
  | storing _ _ | reading _ _ | opening _ => true
  | _ => false

/-- The cell set is there, and the statement is to learn of it. -/
def isOpening : Stage → Bool
  | opening _ => true
  | _ => false

/-- Failed, or over: no response is still to come. -/
def isSpent : Stage → Bool
  | failing _ | returned _ => true
  | _ => false

variable (g : Stage)

theorem not_running_of_opening (h : g.isOpening = true) : g.isRunning = false := by
  cases g <;> simp_all [isOpening, isRunning]

theorem not_spent_of_opening (h : g.isOpening = true) : g.isSpent = false := by
  cases g <;> simp_all [isOpening, isSpent]

theorem spent_of_resting (h : g.isRunning = false) (ho : g.isOpening = false) :
    g.isSpent = true := by
  cases g <;> simp_all [isOpening, isRunning, isSpent]

theorem running_of_response (h : g.hasResponse = true) (ho : g.isOpening = false) :
    g.isRunning = true := by
  cases g <;> simp_all [isOpening, isRunning, hasResponse]

theorem pending_of_response (h : g.hasResponse = true) : g.pending? = none := by
  cases g <;> simp_all [pending?, hasResponse]

theorem no_response_of_spent (h : g.isSpent = true) : g.hasResponse = false := by
  cases g <;> simp_all [isSpent, hasResponse]

end Stage

/-! ### Turns -/

namespace Execution.Advance

variable {x : Execution} {config : Config} {s s' : Statement} {d d' : Desk} {t : Turn} {g : Stage}

theorem flag_of_response (h : x.Advance config s d t g s' d')
    (hx : x.stage.hasResponse = true) : s'.cancelRequested = s.cancelRequested := by
  cases h with
  | rest => rfl
  | storeFails => rfl
  | stores => rfl
  | unreadable => rfl
  | readsRows => rfl
  | readsCells => rfl
  | refusesCells => rfl
  | opensCells => rfl
  | _ => simp_all [Stage.hasResponse]

theorem flag_of_entry (h : x.Advance config s d t g s' d')
    (hx : x.stage.hasResponse = false) (hg : g.hasResponse = true) :
    s'.cancelRequested = false := by
  cases h with
  | rest => simp_all
  | foundUsed response hs hf => exact hf
  | recordsForCache => rfl
  | records => rfl
  | _ => simp_all [Stage.hasResponse]

theorem spent (h : x.Advance config s d t g s' d') (hx : x.stage.isSpent = true) :
    g.isSpent = true := by
  cases h with
  | rest => exact hx
  | fails => rfl
  | _ => simp_all [Stage.isSpent]

theorem keeps_response (h : x.Advance config s d t g s' d') (hx : x.stage.hasResponse = true) :
    g.hasResponse = true ∨ g.isSpent = true := by
  cases h with
  | rest => exact .inl hx
  | _ => simp_all [Stage.hasResponse, Stage.isSpent]

theorem flag_of_return (h : x.Advance config s d t g s' d') (hx : x.result? = none)
    {r : Except ClientError Answer} (hg : g = .returned r) :
    x.stage.hasResponse = true ∨ s'.cancelRequested = false := by
  cases h with
  | rest => simp [Execution.result?, hg] at hx
  | fails => exact .inr rfl
  | _ => simp_all [Stage.hasResponse]

end Execution.Advance

/-! ### The flag along a run -/

namespace Scene

/-- A cancellation while an execution has its response. -/
def Late (n : Nat) (s : Scene) (m : Move) : Prop :=
  m = .cancel ∧ s.isAt n Stage.hasResponse = true

/-- Nobody tries to execute while the cell set of an execution is there and not yet returned, as
only a multidimensional one lets them: executions follow one another. -/
def Undisturbed (n : Nat) (s : Scene) (m : Move) : Prop :=
  (∃ job, m = .attempt job) → s.isAt n Stage.isOpening = false

/-- While the cell set of an execution is there and not yet returned, the statement is idle. -/
def Reserved (n : Nat) (s : Scene) : Prop :=
  s.Ordered ∧ (s.isAt n Stage.isOpening = true → s.Idle)

theorem Reserved.after {n : Nat} {s : Scene} (h : s.Reserved n) (m : Move)
    (hm : s.Undisturbed n m) : (s.after m).Reserved n := by
  refine ⟨h.1.after m, ?_⟩
  intro ho
  cases hs : s.isAt n Stage.isOpening with
  | true =>
    refine (h.2 hs).after_move m ?_
    intro job hj
    rw [hm ⟨job, hj⟩] at hs
    cases hs
  | false =>
    obtain ⟨y, hy, hyo⟩ := ((s.after m).isAt_iff n _).mp ho
    obtain hx | ⟨t, x, rfl, hx⟩ | ⟨job, -, -, rfl⟩ := s.getElem?_of_after n y m hy
    · rw [s.isAt_of n _ y hx, hyo] at hs
      cases hs
    · rw [s.isAt_of n _ x hx] at hs
      obtain ⟨g, statement, desk, he, ha⟩ := s.after_turn n x t hx
      have hg : g.isOpening = true := by
        rw [he, getElem?_advance_self s n _ x statement desk hx] at hy
        cases hy
        exact hyo
      cases hxr : x.stage.isRunning with
      | true =>
        rw [he]
        exact (h.1.runs n x hx hxr).leave ha (g.not_running_of_opening hg)
      | false =>
        -- what neither runs nor has its cell set is over, and stays so
        have hp := ha.spent (x.stage.spent_of_resting hxr hs)
        rw [g.not_spent_of_opening hg] at hp
        cases hp
    · obtain ha | ⟨e, ha⟩ := s.attempted_stage job
      · rw [ha] at hyo
        cases hyo
      · rw [ha] at hyo
        cases hyo

theorem new_reserved (config : Config) (session : Option String) (desk : Desk) (n : Nat) :
    (new config session desk).Reserved n := by
  refine ⟨new_ordered config session desk, ?_⟩
  intro ho
  simp [new, isAt, stage?] at ho

namespace Reserved

variable {n : Nat} {s : Scene}

theorem run (h : s.Reserved n) (ms : List Move) (hm : s.Always (Undisturbed n) ms) :
    (s.run ms).Reserved n :=
  run_keeps_of (Reserved n) (Undisturbed n) (fun _ m h hm => h.after m hm) s ms hm h

/-- An execution that has its response runs, or the statement is idle and the cell set is there. -/
theorem runs_or_idle (h : s.Reserved n) (x : Execution) (hx : s.executions[n]? = some x)
    (hr : x.stage.hasResponse = true) :
    s.Runs n x ∨ (s.Idle ∧ x.stage.isOpening = true) := by
  cases ho : x.stage.isOpening with
  | true => exact .inr ⟨h.2 ((s.isAt_of n _ x hx).trans ho), rfl⟩
  | false => exact .inl (h.1.runs n x hx (x.stage.running_of_response hr ho))

/-- While an execution has its response, exactly a cancellation raises the flag. -/
theorem flag_after (h : s.Reserved n) (hr : s.isAt n Stage.hasResponse = true) (m : Move)
    (hm : s.Undisturbed n m) :
    (s.after m).statement.cancelRequested = true ↔
      s.statement.cancelRequested = true ∨ m = .cancel := by
  obtain ⟨x, hx, hxr⟩ := (s.isAt_iff n _).mp hr
  obtain hrun | ⟨hi, ho⟩ := h.runs_or_idle x hx hxr
  · have hp := x.stage.pending_of_response hxr
    obtain ⟨t, g, statement, desk, rfl, he, ha, -⟩ | ⟨hm', -⟩ := s.after_cases n x m hx
    · have hf := ha.flag_of_response hxr
      simp [he, advance, hf]
    · rcases hrun.flag_after m hm' with ⟨hf, hc⟩ | ⟨rfl, -, hf⟩ | ⟨call, hcall, -, -⟩
      · have hne : m ≠ .cancel := fun he => hc he hp
        simp [hf, hne]
      · simp [hf]
      · rw [hp] at hcall
        cases hcall
  · refine hi.flag_after m ?_
    intro job hj
    have hn := hm ⟨job, hj⟩
    rw [s.isAt_of n _ x hx, ho] at hn
    cases hn

end Reserved

theorem flag_at_entry (s : Scene) (n : Nat) (m : Move) (hr : s.isAt n Stage.hasResponse = false)
    (hr' : (s.after m).isAt n Stage.hasResponse = true) :
    (s.after m).statement.cancelRequested = false := by
  obtain ⟨y, hy, hyr⟩ := ((s.after m).isAt_iff n _).mp hr'
  obtain hx | ⟨t, x, rfl, hx⟩ | ⟨job, -, -, rfl⟩ := s.getElem?_of_after n y m hy
  · rw [s.isAt_of n _ y hx, hyr] at hr
    cases hr
  · obtain ⟨g, statement, desk, he, ha⟩ := s.after_turn n x t hx
    rw [s.isAt_of n _ x hx] at hr
    rw [he, getElem?_advance_self s n _ x statement desk hx] at hy
    cases hy
    rw [he]
    exact ha.flag_of_entry hr hyr
  · obtain ha | ⟨e, ha⟩ := s.attempted_stage job
    · rw [ha] at hyr
      cases hyr
    · rw [ha] at hyr
      cases hyr

/-- An execution that has its response later on, and has it now, has it after the next move. -/
theorem response_after (s : Scene) (n : Nat) (m : Move) (ms : List Move)
    (hr : s.isAt n Stage.hasResponse = true)
    (hl : ((s.after m).run ms).isAt n Stage.hasResponse = true) :
    (s.after m).isAt n Stage.hasResponse = true := by
  obtain ⟨x, hx, hxr⟩ := (s.isAt_iff n _).mp hr
  obtain ⟨t, g, statement, desk, -, -, ha, hy⟩ | ⟨-, hk⟩ := s.after_cases n x m hx
  · obtain hg | hg := ha.keeps_response hxr
    · exact (isAt_of _ n _ _ hy).trans hg
    · obtain ⟨z, hz, hzs⟩ := stage_run (·.isSpent = true) Execution.Advance.spent _ n ms
        ⟨_, hy, hg⟩
      rw [isAt_of _ n _ z hz, z.stage.no_response_of_spent hzs] at hl
      cases hl
  · exact (isAt_of _ n _ x hk).trans hxr

/-- While an execution has its response, the flag says whether a cancellation came since. -/
theorem flag_iff (s : Scene) (n : Nat) (ms : List Move) (h : s.Reserved n)
    (hm : s.Always (Undisturbed n) ms) (hr : (s.run ms).isAt n Stage.hasResponse = true) :
    (s.run ms).statement.cancelRequested = true ↔
      (s.isAt n Stage.hasResponse = true ∧ s.statement.cancelRequested = true) ∨
        s.Sometime (Late n) ms := by
  induction ms generalizing s with
  | nil =>
    rw [run_nil] at hr ⊢
    simp [Sometime, hr]
  | cons m ms ih =>
    obtain ⟨hm, hms⟩ := hm
    rw [run_cons] at hr ⊢
    rw [ih (s.after m) (h.after m hm) hms hr]
    cases hs : s.isAt n Stage.hasResponse with
    | true =>
      have hs' := s.response_after n m ms hs hr
      have hf := h.flag_after hs m hm
      simp [Sometime, Late, hs, hs', hf, or_assoc]
    | false =>
      -- the response comes with the flag down, and only what follows counts
      have hf : ((s.after m).isAt n Stage.hasResponse = true ∧
          (s.after m).statement.cancelRequested = true) ↔ False := by
        refine iff_false_intro ?_
        rintro ⟨hs', hf⟩
        rw [s.flag_at_entry n m hs hs'] at hf
        cases hf
      simp [Sometime, Late, hs, hf]

/-! ### The return -/

/-- The attempt of a number is under way, and returns by a move. -/
def Returns (n : Nat) (s : Scene) (m : Move) : Prop :=
  n < s.executions.length ∧ s.answer? n = none ∧ (s.after m).answer? n ≠ none

theorem Returns.turn {n : Nat} {s : Scene} {m : Move} (h : s.Returns n m) :
    ∃ x g statement desk t r, s.executions[n]? = some x ∧ x.result? = none ∧ g = .returned r ∧
      m = .turn n t ∧ s.after m = s.advance n (x.goTo g) statement desk ∧
      x.Advance s.config s.statement s.desk t g statement desk := by
  obtain ⟨hn, hs, hs'⟩ := h
  have hx : s.executions[n]? = some s.executions[n] := List.getElem?_eq_getElem hn
  have hr : s.executions[n].result? = none := by
    simpa [answer?, hx] using hs
  obtain ⟨t, g, statement, desk, hm, he, ha, hy⟩ | ⟨-, hk⟩ := s.after_cases n _ m hx
  · rw [answer?, hy] at hs'
    cases g with
    | returned r => exact ⟨_, _, statement, desk, t, r, hx, hr, rfl, hm, he, ha⟩
    | _ => exact absurd rfl hs'
  · rw [answer?, hk] at hs'
    exact absurd hr hs'

theorem Reserved.after_return {n : Nat} {s : Scene} (h : s.Reserved n) {m : Move}
    (hm : s.Returns n m) : (s.after m).Idle := by
  obtain ⟨x, g, statement, desk, t, r, hx, hr, rfl, rfl, he, ha⟩ := hm.turn
  cases hxr : x.stage.isRunning with
  | true =>
    rw [he]
    exact (h.1.runs n x hx hxr).leave ha rfl
  | false =>
    have ho : x.stage.isOpening = true := by
      cases hg : x.stage <;> simp_all [Stage.isRunning, Stage.isOpening, Execution.result?]
    exact (h.2 ((s.isAt_of n _ x hx).trans ho)).after_turn n t

/-- An attempt on an idle statement finds a cancellation if the flag is up. -/
theorem Idle.cancelled_iff {s : Scene} (h : s.Idle) (job : Job) :
    (s.after (.attempt job)).answer? s.executions.length = some (.error .cancelled) ↔
      s.statement.isClosed = false ∧ s.statement.cancelRequested = true := by
  obtain ⟨g, statement, desk, hx, -, hentry⟩ := s.attempt_entry job
  rw [answer_of_attempt, hx]
  cases hentry with
  | refused e hb he =>
    have hc : s.statement.isClosed = true := hb.resolve_right h.phase
    obtain rfl | rfl := he <;> simp [Execution.result?, hc]
  | entered phase g hc hp hg =>
    obtain ⟨hf, -, rfl⟩ | ⟨hf, -, rfl⟩ := hg
    · simp [Execution.result?, hc, hf]
    · simp [Execution.result?, hf]

variable (config : Config) (session : Option String) (desk : Desk) (ms : List Move) (m : Move)
  (n : Nat)

/-- The flag is up when an execution returns, and its statement refuses the next attempt as
cancelled, exactly if a cancellation came while the response was there and the response was not
given up after that. -/
theorem cancel_outlives_iff (s : Scene) (hs : (new config session desk).run ms = s)
    (hu : (new config session desk).Always (Undisturbed n) ms) (hm : s.Returns n m) :
    ((s.after m).statement.cancelRequested = true ↔
      s.isAt n Stage.hasResponse = true ∧ (new config session desk).Sometime (Late n) ms) ∧
    ∀ job, ((s.after m).after (.attempt job)).answer? (s.after m).executions.length =
        some (.error .cancelled) ↔
      (s.after m).statement.isClosed = false ∧
        s.isAt n Stage.hasResponse = true ∧ (new config session desk).Sometime (Late n) ms := by
  have h0 := new_reserved config session desk n
  have h := h0.run ms hu
  have hflag : (s.after m).statement.cancelRequested = true ↔
      s.isAt n Stage.hasResponse = true ∧ (new config session desk).Sometime (Late n) ms := by
    obtain ⟨x, g, statement, desk', t, r, hx, hr, hg, -, he, ha⟩ := hm.turn
    cases hxr : x.stage.hasResponse with
    | true =>
      have hn := (s.isAt_of n Stage.hasResponse x hx).trans hxr
      have hi := flag_iff _ n ms h0 hu (by rw [hs, hn])
      have hf := ha.flag_of_response hxr
      have hnew : (new config session desk).statement.cancelRequested = false := rfl
      rw [hs, hnew] at hi
      rw [he, hn]
      simpa [advance, hf] using hi
    | false =>
      obtain hxt | hf := ha.flag_of_return hr hg
      · rw [hxr] at hxt
        cases hxt
      · have hn := (s.isAt_of n Stage.hasResponse x hx).trans hxr
        simp [he, advance, hf, hn]
  rw [hs] at h
  refine ⟨hflag, ?_⟩
  intro job
  rw [(h.after_return hm).cancelled_iff job, hflag]

/-- A response with an empty result, `<root/>`. -/
def emptyResult : Bytes := [60, 114, 111, 111, 116, 47, 62]

/-- An execution up to the moment when the cache is to store its response. -/
def untilStoring : List Move :=
  [.attempt (.rows ""), .turn 0 .step, .turn 0 (.reply (.got (.ok none))), .turn 0 .step,
    .turn 0 (.reply (.submitted (.ok 0))), .turn 0 .step,
    .turn 0 (.reply (.waited (.ok emptyResult))), .turn 0 .step]

/-- A cancellation comes before the cache has stored it. -/
def cancelWhileStoring : List Move :=
  untilStoring ++ [.cancel, .turn 0 (.reply (.stored (.ok ())))]

/-- The scene that this leaves. -/
def storedScene : Scene where
  config := {}
  session := some "s"
  statement := { phase := .submitted, cancelRequested := true }
  desk := {}
  executions := [⟨.rows "", none, some "s", .reading emptyResult false⟩]

theorem run_cancelWhileStoring :
    (new {} (some "s") {}).run cancelWhileStoring = storedScene := rfl

theorem payload_emptyResult : Response.payload emptyResult = .ok { name := "root" } := by
  have hd : Markup.readDocument emptyResult = .ok { name := "root" } := rfl
  have hf : Response.fault? { name := "root" } = none := rfl
  simp [Response.payload, hd, hf, Response.root, Response.search]

theorem read_emptyResult : Execution.readStage (.rows "") emptyResult false =
    .ok (.returned (.ok (.rowset ⟨[], [], ⟨false, 7⟩⟩))) := by
  have hr : Rowset.ofRoot { name := "root" } = .ok ⟨[], [], {}⟩ := rfl
  have ho : Rowset.ofResponse emptyResult = .ok ⟨[], [], {}⟩ := by
    rw [Rowset.ofResponse, payload_emptyResult]
    exact hr
  rw [Execution.readStage, ho]
  rfl

theorem after_storedScene : storedScene.after (.turn 0 .step) =
    { storedScene with
      statement := { phase := .completed, cancelRequested := true }
      executions := [⟨.rows "", none, some "s",
        .returned (.ok (.rowset ⟨[], [], ⟨false, 7⟩⟩))⟩] } := by
  simp [storedScene, after, Execution.take, Execution.step, Execution.read, read_emptyResult,
    Execution.goTo]

theorem storing_cancel_outlives :
    (storedScene.after (.turn 0 .step)).statement.cancelRequested = true := by
  have hr : storedScene.Returns 0 (.turn 0 .step) := by
    refine ⟨by decide, rfl, ?_⟩
    rw [after_storedScene]
    exact Option.some_ne_none _
  have hu : (new {} (some "s") {}).Always (Undisturbed 0) cancelWhileStoring := by
    refine ⟨?_, ?_, ?_, ?_, ?_, ?_, ?_, ?_, ?_, ?_, trivial⟩ <;> (intro _; rfl)
  have hl : (new {} (some "s") {}).Sometime (Late 0) cancelWhileStoring := by
    refine (sometime_append _ _ untilStoring _).mpr (.inr (.inl ⟨rfl, ?_⟩))
    rfl
  exact (cancel_outlives_iff {} (some "s") {} cancelWhileStoring (.turn 0 .step) 0 storedScene
    run_cancelWhileStoring hu hr).1.mpr ⟨rfl, hl⟩

/-- The cancellation of one execution hits the next. -/
theorem storing_cancel_hits_next :
    ((new {} (some "s") {}).run (cancelWhileStoring ++
        [.turn 0 .step, .attempt (.rows "")])).answer? 0 =
      some (.ok (.rowset ⟨[], [], ⟨false, 7⟩⟩)) ∧
    ((new {} (some "s") {}).run (cancelWhileStoring ++
        [.turn 0 .step, .attempt (.rows "")])).answer? 1 =
      some (.error .cancelled) := by
  rw [run_append, run_cancelWhileStoring, run_cons, after_storedScene]
  exact ⟨rfl, rfl⟩

end Scene

end OlapClient
