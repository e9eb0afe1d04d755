import OlapClient.Proofs.Statement.Closing

/-!
# What closing a statement does to its executions

A running execution reads nothing of the statement but the flag, and nothing of the desk but the
calls. Unless the closing of the statement cancels its call, it therefore goes on as if the
statement were open, until it hands over a cell set. That is the exact extent to which closing is
final.
-/

namespace OlapClient

/-! ### What a running execution reads -/

theorem cancelCall_local (d d' : Desk) (n : Nat) (h : d'.calls = d.calls) :
    (d'.cancelCall n).2 = (d.cancelCall n).2 ∧
      (d'.cancelCall n).1.calls = (d.cancelCall n).1.calls := by
  simp [Desk.cancelCall, h]

namespace Execution

variable (x : Execution) (config : Config) (s s' : Statement) (d d' : Desk)

/-- Two outcomes of a turn that a running execution cannot tell apart. -/
structure Same (r r' : Execution × Statement × Desk) : Prop where
  execution : r'.1 = r.1
  flag : r'.2.1.cancelRequested = r.2.1.cancelRequested
  calls : r'.2.2.calls = r.2.2.calls

theorem recordWait_local (m : Message) (call : Nat) (result : Except ClientError Bytes)
    (hf : s'.cancelRequested = s.cancelRequested) (hc : d'.calls = d.calls) :
    Same (x.recordWait m call result s d).2 (x.recordWait m call result s' d').2 := by
  have hl := (cancelCall_local d d' call hc).2
  cases hfs : s.cancelRequested with
  | true =>
    rw [hfs] at hf
    constructor <;> simp [recordWait, hfs, hf, hc]
  | false =>
    rw [hfs] at hf
    cases result with
    | ok response => constructor <;> simp [recordWait, hfs, hf, hc]
    | error e => cases e <;> constructor <;> simp [recordWait, hfs, hf, hc, hl]

theorem step_local (hr : x.stage.isRunning = true)
    (hf : s'.cancelRequested = s.cancelRequested) (hc : d'.calls = d.calls) :
    Same (x.step config s d).2 (x.step config s' d').2 := by
  cases hs : x.stage with
  | admitted =>
    cases hb : x.job.request config <;> constructor <;> simp [step, hs, build, hb, hf, hc]
  | found response =>
    cases hfs : s.cancelRequested <;> constructor <;> simp [step, hs, useFound, hf, hfs, hc]
  | checking m =>
    cases hfs : s.cancelRequested <;> constructor <;> simp [step, hs, check, hf, hfs, hc]
  | registering m call =>
    have hl := cancelCall_local d d' call hc
    cases hfs : s.cancelRequested <;> constructor <;>
      simp [step, hs, register, hf, hfs, hc, hl.1, hl.2]
  | recording m call result =>
    simp only [step, hs]
    exact x.recordWait_local s s' d d' m call result hf hc
  | reading response cacheHit =>
    cases hrd : readStage x.job response cacheHit <;> constructor <;>
      simp [step, hs, read, hrd, hf, hc]
  | failing e => constructor <;> simp [step, hs, fail, hc]
  | looking m => constructor <;> simp [step, hs, hf, hc]
  | submitting m => constructor <;> simp [step, hs, hf, hc]
  | waiting m call => constructor <;> simp [step, hs, hf, hc]
  | storing m response => constructor <;> simp [step, hs, hf, hc]
  | opening cells => rw [hs] at hr; cases hr
  | returned r => rw [hs] at hr; cases hr

theorem endWait_local (hc : d'.calls = d.calls) :
    (x.endWait d').1 = (x.endWait d).1 ∧ (x.endWait d').2.calls = (x.endWait d).2.calls := by
  cases hs : x.stage with
  | waiting m call =>
    cases hw : d.calls.wait call x.timeout <;> simp [endWait, hs, hc, hw]
  | _ => simp [endWait, hs, hc]

theorem take_local (t : Turn) (hr : x.stage.isRunning = true)
    (hf : s'.cancelRequested = s.cancelRequested) (hc : d'.calls = d.calls) :
    Same (x.take t config s d) (x.take t config s' d') := by
  cases t with
  | step => exact x.step_local config s s' d d' hr hf hc
  | reply r => exact ⟨rfl, hf, hc⟩
  | waited =>
    obtain ⟨h1, h2⟩ := x.endWait_local d d' hc
    exact ⟨h1, hf, h2⟩

end Execution

def Move.isClose : Move → Bool
  | .close => true
  | _ => false

/-- A run without the closings of the statement. -/
def withoutCloses (ms : List Move) : List Move := ms.filter fun m => !m.isClose

namespace Scene

/-! ### Scenes that a running execution cannot tell apart -/

/-- Two scenes that a running execution cannot tell apart, the second with a closed statement. -/
structure Agree (n : Nat) (x : Execution) (s c : Scene) : Prop where
  left : s.Runs n x
  right : c.Runs n x
  config : c.config = s.config
  flag : c.statement.cancelRequested = s.statement.cancelRequested
  calls : c.desk.calls = s.desk.calls
  closed : c.statement.isClosed = true

/-- Two scenes in which an execution does not run any more; unless it is multidimensional, it has
returned the same. -/
def Parted (n : Nat) (job : Job) (s c : Scene) : Prop :=
  (∃ x, s.executions[n]? = some x ∧ x.stage.isRunning = false) ∧
    (∃ x, c.executions[n]? = some x ∧ x.stage.isRunning = false) ∧
    (job.isMultidimensional = false → ∃ r, s.answer? n = some r ∧ c.answer? n = some r)

theorem config_after (s : Scene) (m : Move) :
    (s.after m).config = match m with
      | .configure config => config
      | _ => s.config := by
  cases m with
  | turn k t =>
    cases hx : s.executions[k]? with
    | none => rw [s.after_turn_none k t hx]
    | some x =>
      obtain ⟨g, statement, desk, he, -⟩ := s.after_turn k x t hx
      rw [he]
      rfl
  | setTimeout seconds =>
    obtain ⟨timeout, he⟩ := s.after_setTimeout_eq seconds
    rw [he]
  | _ => rfl

namespace Agree

variable {n : Nat} {x : Execution} {s c : Scene}

/-- What others do, closing apart, an execution sees the same in both scenes. -/
theorem shared (h : Agree n x s c) (m : Move) (hm : ∀ t, m ≠ .turn n t) (hcl : m ≠ .close) :
    (c.after m).statement.cancelRequested = (s.after m).statement.cancelRequested ∧
      (c.after m).desk.calls = (s.after m).desk.calls := by
  cases m with
  | attempt job =>
    obtain ⟨e, he⟩ := s.after_attempt_busy job h.left.phase
    obtain ⟨e', he'⟩ := c.after_attempt_busy job h.right.phase
    rw [he, he']
    exact ⟨h.flag, h.calls⟩
  | turn k t =>
    have hk : k ≠ n := by
      intro he
      exact hm t (by rw [he])
    obtain ⟨hf, hd⟩ := h.left.kept_by_other k t hk
    obtain ⟨hf', hd'⟩ := h.right.kept_by_other k t hk
    exact ⟨hf'.trans (h.flag.trans hf.symm), hd'.trans (h.calls.trans hd.symm)⟩
  | cancel =>
    cases hp : x.stage.pending? with
    | none =>
      have hs := s.statement.cancel_early s.desk (h.left.pending.trans hp)
      have hc := c.statement.cancel_early c.desk (h.right.pending.trans hp)
      simp [Scene.after, hs, hc, h.calls]
    | some call =>
      by_cases hu : s.desk.calls[call]? = some .unresolved
      · have hs := s.statement.cancel_won s.desk call (h.left.pending.trans hp) hu
        have hc := c.statement.cancel_won c.desk call (h.right.pending.trans hp)
          (by rw [h.calls]; exact hu)
        simp [Scene.after, hs, hc, h.calls]
      · have hs := s.statement.cancel_lost s.desk call (h.left.pending.trans hp) hu
        have hc := c.statement.cancel_lost c.desk call (h.right.pending.trans hp)
          (by rw [h.calls]; exact hu)
        simp [Scene.after, hs, hc, h.calls, h.flag]
  | close => exact absurd rfl hcl
  | setTimeout seconds =>
    obtain ⟨timeout, he⟩ := s.after_setTimeout_eq seconds
    obtain ⟨timeout', he'⟩ := c.after_setTimeout_eq seconds
    rw [he, he']
    exact ⟨h.flag, h.calls⟩
  | configure config => exact ⟨h.flag, h.calls⟩
  | closeCellSet k => exact ⟨h.flag, h.calls⟩
  | addCellSet cells => exact ⟨h.flag, h.calls⟩
  | setCalls calls => exact ⟨h.flag, rfl⟩

theorem turn (h : Agree n x s c) (t : Turn) :
    (∃ g, Agree n (x.goTo g) (s.after (.turn n t)) (c.after (.turn n t))) ∨
      Parted n x.job (s.after (.turn n t)) (c.after (.turn n t)) := by
  have hsame := x.take_local s.config s.statement c.statement s.desk c.desk t h.left.running
    h.flag h.calls
  obtain ⟨g, statement, desk, he, ha⟩ := x.take_listed s.config s.statement s.desk t
  obtain ⟨g', statement', desk', he', ha'⟩ := x.take_listed s.config c.statement c.desk t
  rw [he, he'] at hsame
  have hg : g' = g := congrArg Execution.stage hsame.execution
  subst hg
  have hs := s.after_turn_eq n x _ t statement desk h.left.here he
  have hc := c.after_turn_eq n x _ t statement' desk' h.right.here (by rw [h.config]; exact he')
  have hclosed := c.closed_after (.turn n t) h.closed
  rw [hc] at hclosed
  rw [hs, hc]
  cases hr : g'.isRunning with
  | true =>
    have hac : x.Advance c.config c.statement c.desk t g' statement' desk' := by
      rw [h.config]
      exact ha'
    exact .inl ⟨g', h.left.advance ha hr, h.right.advance hac hr, h.config, hsame.flag,
      hsame.calls, hclosed⟩
  | false =>
    have hl := s.getElem?_advance_self n (x.goTo g') x statement desk h.left.here
    have hl' := c.getElem?_advance_self n (x.goTo g') x statement' desk' h.right.here
    refine .inr ⟨⟨_, hl, hr⟩, ⟨_, hl', hr⟩, ?_⟩
    intro hj
    cases hg : g' with
    | returned r =>
      rw [hg] at hl hl'
      refine ⟨r, ?_, ?_⟩
      · rw [answer?, hl]
        rfl
      · rw [answer?, hl']
        rfl
    | opening cells =>
      rw [hg] at ha
      obtain ho | hj' := ha.opening rfl
      · have hrun := h.left.running
        rw [x.stage.not_running_of_opening ho] at hrun
        cases hrun
      · rw [hj] at hj'
        cases hj'
    | _ => rw [hg] at hr; cases hr

theorem others (h : Agree n x s c) (m : Move) (hm : ∀ t, m ≠ .turn n t) (hcl : m ≠ .close) :
    Agree n x (s.after m) (c.after m) := by
  obtain ⟨hf, hd⟩ := h.shared m hm hcl
  refine ⟨h.left.after_move m hm, h.right.after_move m hm, ?_, hf, hd, c.closed_after m h.closed⟩
  rw [config_after, config_after, h.config]

theorem closing (h : Agree n x s c) : Agree n x s (c.after .close) := by
  have hc := c.statement.close_again c.desk h.closed
  have he : c.after .close = c := by
    simp [Scene.after, hc]
  rw [he]
  exact h

end Agree

theorem settled_run (s : Scene) (n : Nat) (ms : List Move)
    (h : ∃ x, s.executions[n]? = some x ∧ x.stage.isRunning = false) :
    ∃ x, (s.run ms).executions[n]? = some x ∧ x.stage.isRunning = false :=
  stage_run (·.isRunning = false) (fun ha hr => (ha.settled hr).1) s n ms h

theorem Parted.run {n : Nat} {job : Job} {s c : Scene} (h : Parted n job s c)
    (ms ns : List Move) : Parted n job (s.run ms) (c.run ns) := by
  obtain ⟨hs, hc, hr⟩ := h
  refine ⟨s.settled_run n ms hs, c.settled_run n ns hc, ?_⟩
  intro hj
  obtain ⟨r, hr, hr'⟩ := hr hj
  exact ⟨r, s.answer_run n ms r hr, c.answer_run n ns r hr'⟩

/-- Scenes that a running execution cannot tell apart lead to such scenes, or to its end. -/
theorem Agree.run {n : Nat} {job : Job} {s c : Scene} (ms : List Move)
    (h : ∃ x, x.job = job ∧ Agree n x s c) :
    (∃ x, x.job = job ∧ Agree n x (s.run (withoutCloses ms)) (c.run ms)) ∨
      Parted n job (s.run (withoutCloses ms)) (c.run ms) := by
  induction ms generalizing s c with
  | nil => exact .inl h
  | cons m ms ih =>
    obtain ⟨x, rfl, h⟩ := h
    by_cases hcl : m = .close
    · subst hcl
      exact ih ⟨x, rfl, h.closing⟩
    · have hf : withoutCloses (m :: ms) = m :: withoutCloses ms := by
        cases m <;> first | rfl | exact absurd rfl hcl
      rw [hf, run_cons, run_cons]
      -- only a turn of its own can end the execution
      by_cases hm : ∃ t, m = .turn n t
      · obtain ⟨t, rfl⟩ := hm
        obtain ⟨g, hg⟩ | hp := h.turn t
        · exact ih ⟨x.goTo g, rfl, hg⟩
        · exact .inr (hp.run _ _)
      · exact ih ⟨x, rfl, h.others m (fun t ht => hm ⟨t, ht⟩) hcl⟩

/-! ### The closing itself -/

/-- Closing the statement cancels the call of an execution. -/
def Cuts (n : Nat) (s : Scene) : Prop :=
  s.statement.isClosed = false ∧ s.isAt n Stage.isAwaited = true ∧
    ∃ call, s.statement.pending = some call ∧ s.desk.calls[call]? = some .unresolved

theorem cutOff_of_cuts (s : Scene) (n : Nat) (ho : s.Ordered) (h : s.Cuts n) :
    (s.after .close).CutOff n := by
  obtain ⟨hc, hn, call, hp, hu⟩ := h
  obtain ⟨x, hx, ha⟩ := (s.isAt_iff n _).mp hn
  have hw := s.statement.close_won s.desk call hc hp hu
  have hf : (s.after .close).statement.cancelRequested = true := by
    simp [Scene.after, hw]
  refine ⟨ho.after .close, x, hx, ?_⟩
  rw [hf]
  exact x.stage.cutOff_of_awaited ha

theorem agree_of_close (s : Scene) (n : Nat) (x : Execution) (h : s.Runs n x)
    (hcut : ¬ s.Cuts n) : Agree n x s (s.after .close) := by
  have hkeep : (s.after .close).statement.cancelRequested = s.statement.cancelRequested ∧
      (s.after .close).desk.calls = s.desk.calls := by
    cases hc : s.statement.isClosed with
    | true =>
      have he := s.statement.close_again s.desk hc
      simp [Scene.after, he]
    | false =>
      cases hp : x.stage.pending? with
      | none =>
        have he := s.statement.close_idle s.desk hc (h.pending.trans hp)
        simp [Scene.after, he, Statement.shut, closeLeftOpen_calls]
      | some call =>
        have hpen := h.pending.trans hp
        have hn : s.isAt n Stage.isAwaited = true :=
          (s.isAt_of n _ x h.here).trans (x.stage.awaited_of_pending call hp)
        have hu : s.desk.calls[call]? ≠ some .unresolved :=
          fun hu => hcut ⟨hc, hn, call, hpen, hu⟩
        have he := s.statement.close_lost s.desk call hc hpen hu
        simp [Scene.after, he, Statement.shut, closeLeftOpen_calls]
  exact ⟨h, h.after_close, rfl, hkeep.1, hkeep.2, s.closed_after_close⟩

theorem demand_of_past (s : Scene) (n : Nat) (ms : List Move) (h : s.Past n) (m : Message) :
    (s.run ms).demand? n ≠ some (.submit m) :=
  Past.demand (stage_run (·.turnsLeft ≤ 5) (fun ha hk => Nat.le_trans ha.turnsLeft_le hk)
    s n ms h) m

theorem refused_run (s : Scene) (n : Nat) (ms : List Move) (h : s.Refused n) (answer : Answer) :
    (s.run ms).answer? n ≠ some (.ok answer) :=
  (run_keeps (Refused n) (fun _ m h => h.after m) s ms h).no_success answer

theorem cutOff_run (s : Scene) (n : Nat) (ms : List Move) (h : s.CutOff n) (answer : Answer) :
    (s.run ms).answer? n ≠ some (.ok answer) :=
  (run_keeps (CutOff n) (fun _ m h => h.after m) s ms h).no_success answer

theorem refused_of_close (s : Scene) (n : Nat) (x : Execution) (hx : s.executions[n]? = some x)
    (hj : x.job.isMultidimensional = true) (hr : x.result? = none) :
    (s.after .close).Refused n := by
  refine ⟨s.closed_after_close, x, hx, hj, ?_⟩
  intro answer hs
  simp [Execution.result?, hs] at hr

/-- A running execution whose call is not cancelled by the closing ends as without it, unless it
is multidimensional. -/
theorem answer_of_uncut (s : Scene) (n : Nat) (x : Execution) (h : s.Runs n x)
    (hcut : ¬ s.Cuts n) (hj : x.job.isMultidimensional = false) (ms : List Move) :
    ((s.after .close).run ms).answer? n = (s.run (withoutCloses ms)).answer? n := by
  obtain ⟨y, -, ha⟩ | hp := Agree.run ms ⟨x, rfl, s.agree_of_close n x h hcut⟩
  · rw [answer?, answer?, ha.left.here, ha.right.here]
  · obtain ⟨r, hr, hr'⟩ := hp.2.2 hj
    rw [hr, hr']

theorem past_of_resting (s : Scene) (n : Nat)
    (h : ∃ x, s.executions[n]? = some x ∧ x.stage.isRunning = false) : s.Past n := by
  obtain ⟨x, hx, hr⟩ := h
  exact ⟨x, hx, x.stage.turnsLeft_of_resting hr⟩

theorem past_of_close (s : Scene) (n : Nat) (h : s.Past n) : (s.after .close).Past n := by
  obtain ⟨x, hx, hk⟩ := h
  exact ⟨x, hx, hk⟩

/-- Closing the statement keeps no execution from submitting its request. -/
theorem submit_after_close (s : Scene) (n : Nat) (x : Execution) (ho : s.Ordered)
    (hx : s.executions[n]? = some x) (ms : List Move) (m : Message) :
    ((s.after .close).run ms).demand? n = some (.submit m) ↔
      (s.run (withoutCloses ms)).demand? n = some (.submit m) := by
  have hpast : s.Past n → (((s.after .close).run ms).demand? n = some (.submit m) ↔
      (s.run (withoutCloses ms)).demand? n = some (.submit m)) := by
    intro hp
    have h1 := demand_of_past (s.after .close) n ms (past_of_close s n hp) m
    have h2 := s.demand_of_past n (withoutCloses ms) hp m
    simp [h1, h2]
  cases hr : x.stage.isRunning with
  | false => exact hpast (s.past_of_resting n ⟨x, hx, hr⟩)
  | true =>
    have h := ho.runs n x hx hr
    by_cases hcut : s.Cuts n
    · obtain ⟨-, hn, -⟩ := hcut
      rw [s.isAt_of n _ x hx] at hn
      exact hpast ⟨x, hx, x.stage.turnsLeft_of_awaited hn⟩
    · obtain ⟨y, -, ha⟩ | hp := Agree.run ms ⟨x, rfl, s.agree_of_close n x h hcut⟩
      · rw [demand?, demand?, ha.left.here, ha.right.here]
      · have h1 := (past_of_resting _ n hp.2.1).demand m
        have h2 := (past_of_resting _ n hp.1).demand m
        simp [h1, h2]

/-- What a closing stops, in every run: each later attempt, each multidimensional result, and each
execution whose call it cancels. All other executions under way go on as without it. -/
theorem close_stops_iff (config : Config) (session : Option String) (desk : Desk)
    (past : List Move) (s : Scene) (hs : (new config session desk).run past = s)
    (ms : List Move) (n : Nat) :
    (s.executions.length ≤ n → n < ((s.after .close).run ms).executions.length →
      ((s.after .close).run ms).answer? n = some (.error (.closed .statement)) ∧
        ((s.after .close).run ms).demand? n = none) ∧
    ∀ x, s.executions[n]? = some x →
      (x.result? = none →
        ((∃ answer, ((s.after .close).run ms).answer? n = some (.ok answer)) ↔
          x.job.isMultidimensional = false ∧ ¬ s.Cuts n ∧
            ∃ answer, (s.run (withoutCloses ms)).answer? n = some (.ok answer))) ∧
      ∀ m, ((s.after .close).run ms).demand? n = some (.submit m) ↔
        (s.run (withoutCloses ms)).demand? n = some (.submit m) := by
  have ho : s.Ordered := by
    rw [← hs]
    exact (new_ordered config session desk).run past
  have ht : s.Typed := by
    rw [← hs]
    exact run_keeps Typed (fun _ m h => h.after m) _ past (new_typed config session desk)
  refine ⟨?_, ?_⟩
  · intro hn hn'
    have hlen := s.length_after .close (by simp)
    have ha := (s.after .close).answer_of_later n ms s.closed_after_close (by omega) hn'
    exact ⟨ha, demand_of_answer _ n _ ha⟩
  · intro x hx
    refine ⟨?_, fun m => s.submit_after_close n x ho hx ms m⟩
    intro hres
    cases hj : x.job.isMultidimensional with
    | true =>
      have hno := refused_run _ n ms (s.refused_of_close n x hx hj hres)
      simp [hno]
    | false =>
      by_cases hcut : s.Cuts n
      · have hno := cutOff_run _ n ms (s.cutOff_of_cuts n ho hcut)
        simp [hno, hcut]
      · have hr : x.stage.isRunning = true := by
          cases hs : x.stage with
          | opening cells =>
            have hm := ht n x hx (by rw [hs]; rfl)
            rw [hj] at hm
            cases hm
          | returned r => simp [Execution.result?, hs] at hres
          | _ => rfl
        have he := s.answer_of_uncut n x (ho.runs n x hx hr) hcut hj ms
        simp [he, hcut]

/-- An execution up to the lookup of its request, which the cache does not know. -/
def untilLookup : List Move := [.attempt (.rows ""), .turn 0 .step]

/-- From there to the submission. -/
def untilSubmission : List Move := [.turn 0 (.reply (.got (.ok none))), .turn 0 .step]

/-- From there to the response. -/
def untilReading : List Move :=
  [.turn 0 (.reply (.submitted (.ok 0))), .turn 0 .step,
    .turn 0 (.reply (.waited (.ok emptyResult))), .turn 0 .step,
    .turn 0 (.reply (.stored (.ok ())))]

/-- The scene in which the response is about to be read. -/
def readingScene (isClosed : Bool) : Scene where
  config := {}
  session := some "s"
  statement := { phase := .submitted, isClosed := isClosed }
  desk := {}
  executions := [⟨.rows "", none, some "s", .reading emptyResult false⟩]

theorem answer_readingScene (isClosed : Bool) :
    ((readingScene isClosed).after (.turn 0 .step)).answer? 0 =
      some (.ok (.rowset ⟨[], [], ⟨false, 7⟩⟩)) := by
  simp [readingScene, after, Execution.take, Execution.step, Execution.read, read_emptyResult,
    Execution.goTo, answer?, Execution.result?]

theorem lookup_survives_close :
    ∃ answer, ((((new {} (some "s") {}).run untilLookup).after .close).run
      (untilSubmission ++ untilReading ++ [.turn 0 .step])).answer? 0 = some (.ok answer) := by
  have hx : ((new {} (some "s") {}).run untilLookup).executions[0]? = some
      ⟨.rows "", none, some "s", .looking ⟨"", Request.execute "" {} .tabular⟩⟩ := rfl
  have hopen : ((new {} (some "s") {}).run untilLookup).run (untilSubmission ++ untilReading) =
      readingScene false := rfl
  have hcut : ¬ ((new {} (some "s") {}).run untilLookup).Cuts 0 := by
    rintro ⟨-, hn, -⟩
    cases hn
  have hok : (((new {} (some "s") {}).run untilLookup).run (withoutCloses
      (untilSubmission ++ untilReading ++ [.turn 0 .step]))).answer? 0 =
        some (.ok (.rowset ⟨[], [], ⟨false, 7⟩⟩)) := by
    have hw : withoutCloses (untilSubmission ++ untilReading ++ [.turn 0 .step]) =
        untilSubmission ++ untilReading ++ [.turn 0 .step] := rfl
    rw [hw, run_append, hopen]
    exact answer_readingScene false
  have h := (close_stops_iff {} (some "s") {} untilLookup _ rfl
    (untilSubmission ++ untilReading ++ [.turn 0 .step]) 0).2 _ hx
  exact (h.1 rfl).mpr ⟨rfl, hcut, _, hok⟩

/-- After the closing the request is submitted, and the execution succeeds. -/
theorem closed_and_successful :
    (((new {} (some "s") {}).run (untilLookup ++ [.close])).statement.isClosed = true) ∧
    (∃ m, ((new {} (some "s") {}).run
      (untilLookup ++ [.close] ++ untilSubmission)).demand? 0 = some (.submit m)) ∧
    ((new {} (some "s") {}).run (untilLookup ++ [.close] ++ untilSubmission ++ untilReading ++
      [.turn 0 .step])).answer? 0 = some (.ok (.rowset ⟨[], [], ⟨false, 7⟩⟩)) := by
  have hr : (new {} (some "s") {}).run
      (untilLookup ++ [.close] ++ untilSubmission ++ untilReading) = readingScene true := rfl
  refine ⟨rfl, ⟨_, rfl⟩, ?_⟩
  rw [run_append, hr]
  exact answer_readingScene true

end Scene

end OlapClient
