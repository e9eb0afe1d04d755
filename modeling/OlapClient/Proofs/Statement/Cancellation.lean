import OlapClient.Proofs.Statement.LateCancellation

/-!
# Cancellations in time

An execution looks at the flag before it uses a response from the cache, before it submits, after
it has submitted, and when its wait is over. A cancellation that raises the flag before one of
these looks dooms the execution: whatever happens next, it ends as cancelled, and nothing keeps it
from ending.
-/

namespace OlapClient

namespace Stage

/-- Before the last look at the flag that precedes the submission, or the use of a response from
the cache. -/
def isEarly : Stage → Bool
  | admitted | looking _ | found _ | checking _ => true
  | _ => false

/-- From the last look before the submission until the statement knows the call. -/
def isUnregistered : Stage → Bool
  | submitting _ | registering _ _ => true
  | _ => false

/-- The statement knows the call. -/
def isAwaited : Stage → Bool
  | waiting _ _ | recording _ _ _ => true
  | _ => false

/-- The outcome of the wait is not recorded, and no failure before the wait either. -/
def isUndecided (g : Stage) : Bool := g.isEarly || g.isUnregistered || g.isAwaited

/-- Not submitted, and to be submitted at an early stage only. -/
def isUnsent : Stage → Bool
  | admitted | looking _ | found _ | checking _ | failing _ | returned _ => true
  | _ => false

/-- What an execution at a stage returns is settled: it is cancelled. A wait needs a cancelled
call for that, or it might not end. -/
def Doomed (flag : Bool) (calls : Calls) : Stage → Prop
  | admitted | looking _ | found _ | checking _ | recording _ _ _ => flag = true
  | waiting _ call => flag = true ∧ calls[call]? = some .cancelled
  | failing e => e = .cancelled
  | returned r => r = .error .cancelled
  | _ => False

theorem doomed_of_early (g : Stage) (calls : Calls) (h : g.isEarly = true) :
    g.Doomed true calls := by
  cases g <;> simp_all [isEarly, Doomed]

theorem unsent_of_early (g : Stage) (h : g.isEarly = true) : g.isUnsent = true := by
  cases g <;> simp_all [isEarly, isUnsent]

theorem doomed_of_awaited (g : Stage) (h : g.isAwaited = true) (call : Nat)
    (hp : g.pending? = some call) (flag : Bool) (calls : Calls) (hf : flag = true)
    (hc : calls[call]? = some .cancelled) : g.Doomed flag calls := by
  cases g with
  | waiting m k =>
    cases hp
    exact ⟨hf, hc⟩
  | recording m k result => exact hf
  | _ => cases h

/-- Neither more cancellations nor more cancelled calls save an execution. -/
theorem doomed_mono (g : Stage) {flag flag' : Bool} {calls calls' : Calls}
    (hf : flag = true → flag' = true)
    (hc : ∀ call : Nat, calls[call]? = some Call.cancelled → calls'[call]? = some Call.cancelled)
    (h : g.Doomed flag calls) : g.Doomed flag' calls' := by
  cases g with
  | waiting m call => exact ⟨hf h.1, hc call h.2⟩
  | failing e => exact h
  | returned r => exact h
  | _ => first | exact hf h | exact h

theorem doomed_of_resting (g : Stage) {flag flag' : Bool} {calls calls' : Calls}
    (hg : g.isRunning = false) (h : g.Doomed flag calls) : g.Doomed flag' calls' := by
  cases g with
  | returned r => exact h
  | opening cells => exact h
  | _ => cases hg

theorem running_of_early (g : Stage) (h : g.isEarly = true) : g.isRunning = true := by
  cases g <;> simp_all [isEarly, isRunning]

theorem running_of_awaited (g : Stage) (h : g.isAwaited = true) : g.isRunning = true := by
  cases g <;> simp_all [isAwaited, isRunning]

theorem running_of_unregistered (g : Stage) (h : g.isUnregistered = true) :
    g.isRunning = true := by
  cases g <;> simp_all [isUnregistered, isRunning]

theorem running_of_undecided (g : Stage) (h : g.isUndecided = true) : g.isRunning = true := by
  cases g <;> simp_all [isUndecided, isEarly, isUnregistered, isAwaited, isRunning]

theorem pending_of_decided (g : Stage) (h : g.isUndecided = false) : g.pending? = none := by
  cases g <;> simp_all [isUndecided, isEarly, isUnregistered, isAwaited, pending?]

theorem pending_of_early (g : Stage) (h : g.isEarly = true) : g.pending? = none := by
  cases g <;> simp_all [isEarly, pending?]

theorem pending_of_unregistered (g : Stage) (h : g.isUnregistered = true) :
    g.pending? = none := by
  cases g <;> simp_all [isUnregistered, pending?]

theorem decided_of_response (g : Stage) (h : g.hasResponse = true) : g.isUndecided = false := by
  cases g <;> simp_all [isUndecided, isEarly, isUnregistered, isAwaited, hasResponse]

theorem no_response_of_undecided (g : Stage) (h : g.isUndecided = true) :
    g.hasResponse = false := by
  cases g <;> simp_all [isUndecided, isEarly, isUnregistered, isAwaited, hasResponse]

theorem not_opening_of_undecided (g : Stage) (h : g.isUndecided = true) :
    g.isOpening = false := by
  cases g <;> simp_all [isUndecided, isEarly, isUnregistered, isAwaited, isOpening]

theorem pending_of_awaited (g : Stage) (h : g.isAwaited = true) :
    ∃ call, g.pending? = some call := by
  cases g <;> simp_all [isAwaited, pending?]

end Stage

/-- Whether a request can be built depends on the job alone. -/
theorem Job.request_ok (job : Job) (config config' : Config)
    (h : ∃ body, job.request config = .ok body) : ∃ body, job.request config' = .ok body := by
  cases job with
  | rows mdx => exact ⟨_, rfl⟩
  | cells mdx => exact ⟨_, rfl⟩
  | discover type restrictions =>
    obtain ⟨body, h⟩ := h
    simp only [Job.request, Request.discover, Request.discoverText] at h ⊢
    cases hn : Request.checkName type with
    | error e => simp [hn, bind, Except.bind, Except.map] at h
    | ok u =>
      cases hr : restrictions.forM fun entry => Request.checkName entry.1 with
      | error e => simp [hn, hr, bind, Except.bind, Except.map] at h
      | ok u => simp [bind, Except.bind, Except.map, pure, Except.pure]

/-! ### Turns -/

namespace Execution.Advance

variable {x : Execution} {config : Config} {s s' : Statement} {d d' : Desk} {t : Turn} {g : Stage}

/-- A doomed execution stays doomed, given that the cache does not fail. -/
theorem doomed (h : x.Advance config s d t g s' d')
    (hb : ∃ body, x.job.request config = .ok body) (ht : ∀ e, t ≠ .reply (.got (.error e)))
    (hx : x.stage.Doomed s.cancelRequested d.calls) : g.Doomed s'.cancelRequested d'.calls := by
  cases h with
  | rest => exact hx
  | unbuilt hs e he =>
    obtain ⟨body, hb⟩ := hb
    rw [hb] at he
    cases he
  | lookFails m hs e => exact absurd rfl (ht e)
  | looks hs => rw [hs] at hx; exact hx
  | skips hs => rw [hs] at hx; exact hx
  | hits m hs => rw [hs] at hx; exact hx
  | misses m hs => rw [hs] at hx; exact hx
  | foundCancelled => rfl
  | checkCancelled => rfl
  | waitReturns m call hs => rw [hs] at hx; exact hx.1
  | waitEnds m call hs => rw [hs] at hx; exact hx.1
  | recordsCancelled => rfl
  | fails e hs =>
    rw [hs] at hx
    exact congrArg Except.error hx
  | _ => simp_all [Stage.Doomed]

theorem early (h : x.Advance config s d t g s' d') (hg : g.isEarly = true) :
    x.stage.isEarly = true := by
  cases h with
  | rest => exact hg
  | looks hs => rw [hs]; rfl
  | skips hs => rw [hs]; rfl
  | hits m hs => rw [hs]; rfl
  | misses m hs => rw [hs]; rfl
  | _ => cases hg

theorem unsent (h : x.Advance config s d t g s' d') (hd : x.stage.Doomed s.cancelRequested d.calls)
    (hx : x.stage.isUnsent = true) : g.isUnsent = true := by
  cases h with
  | rest => exact hx
  | foundUsed response hs hf =>
    rw [hs, hf] at hd
    cases hd
  | submits m hs hf =>
    rw [hs, hf] at hd
    cases hd
  | _ => first | rfl | simp_all [Stage.isUnsent]

/-- When the outcome is there the flag is down, and no failure raises it. -/
theorem flag_of_decision (h : x.Advance config s d t g s' d')
    (hb : ∃ body, x.job.request config = .ok body) (ht : ∀ e, t ≠ .reply (.got (.error e)))
    (ht' : ∀ e, t ≠ .reply (.submitted (.error e))) (hx : x.stage.isRunning = true)
    (hf : x.stage.isUndecided = false → s.cancelRequested = false)
    (hg : g.isUndecided = false) : s'.cancelRequested = false := by
  cases h with
  | rest => exact hf hg
  | unbuilt hs e he =>
    obtain ⟨body, hb⟩ := hb
    rw [hb] at he
    cases he
  | lookFails m hs e => exact absurd rfl (ht e)
  | submitFails m hs e => exact absurd rfl (ht' e)
  | foundCancelled => rfl
  | foundUsed response hs hf => exact hf
  | checkCancelled => rfl
  | recordsCancelled => rfl
  | recordsFailure => rfl
  | recordsForCache => rfl
  | records => rfl
  | storeFails m response hs => exact hf (by rw [hs]; rfl)
  | stores m response hs => exact hf (by rw [hs]; rfl)
  | unreadable response cacheHit hs => exact hf (by rw [hs]; rfl)
  | readsRows response cacheHit hs => exact hf (by rw [hs]; rfl)
  | readsCells response cacheHit hs => exact hf (by rw [hs]; rfl)
  | fails => rfl
  | refusesCells cells hs => rw [hs] at hx; cases hx
  | opensCells cells hs => rw [hs] at hx; cases hx
  | _ => cases hg

end Execution.Advance

/-- What an execution can rely on: its own steps, waits for its call, and lookups that succeed. -/
def Turn.isRegular : Turn → Bool
  | .step | .waited | .reply (.got (.ok _)) => true
  | _ => false

theorem Execution.gets_on (x : Execution) (config : Config) (s : Statement) (d : Desk)
    (hb : ∃ body, x.job.request config = .ok body)
    (hd : x.stage.Doomed s.cancelRequested d.calls) (hr : x.result? = none) :
    ∃ t : Turn, t.isRegular = true ∧
      (x.take t config s d).1.stage.turnsLeft < x.stage.turnsLeft := by
  cases hs : x.stage with
  | admitted =>
    obtain ⟨body, hb⟩ := hb
    refine ⟨.step, rfl, ?_⟩
    cases hse : x.session.isSome <;> simp [take, step, hs, build, hb, hse, Stage.turnsLeft]
  | looking m =>
    refine ⟨.reply (.got (.ok none)), rfl, ?_⟩
    simp [take, resume, hs, Stage.turnsLeft]
  | found response =>
    rw [hs] at hd
    have hf : s.cancelRequested = true := hd
    refine ⟨.step, rfl, ?_⟩
    simp [take, step, hs, useFound, hf, Stage.turnsLeft]
  | checking m =>
    rw [hs] at hd
    have hf : s.cancelRequested = true := hd
    refine ⟨.step, rfl, ?_⟩
    simp [take, step, hs, check, hf, Stage.turnsLeft]
  | waiting m call =>
    rw [hs] at hd
    have hw : d.calls.wait call x.timeout =
        some (.error .cancelled, d.calls.set call .cancelled) := by
      simp [Calls.wait, hd.2, Call.wait, Call.take?]
    refine ⟨.waited, rfl, ?_⟩
    simp [take, endWait, hs, hw, resume, Stage.turnsLeft]
  | recording m call result =>
    rw [hs] at hd
    have hf : s.cancelRequested = true := hd
    refine ⟨.step, rfl, ?_⟩
    simp [take, step, hs, recordWait, hf, Stage.turnsLeft]
  | failing e =>
    refine ⟨.step, rfl, ?_⟩
    simp [take, step, hs, fail, Stage.turnsLeft]
  | returned r => simp [result?, hs] at hr
  | submitting m => rw [hs] at hd; exact hd.elim
  | registering m call => rw [hs] at hd; exact hd.elim
  | storing m response => rw [hs] at hd; exact hd.elim
  | reading response cacheHit => rw [hs] at hd; exact hd.elim
  | opening cells => rw [hs] at hd; exact hd.elim

theorem Execution.demand_of_unsent (x : Execution) (h : x.stage.isUnsent = true) :
    x.demand? = none ∨ ∃ session m, x.demand? = some (.get session m) := by
  cases hs : x.stage with
  | looking m => cases hse : x.session <;> simp [demand?, hs, hse]
  | submitting m => rw [hs] at h; cases h
  | waiting m call => rw [hs] at h; cases h
  | storing m response => rw [hs] at h; cases h
  | _ => simp [demand?, hs]

/-! ### Moves -/

namespace Scene

/-- What may happen around an execution whose cache lookup and submission succeed: cancellations
come before its outcome is recorded, and whoever acts on calls leaves cancelled ones cancelled. -/
structure Proper (n : Nat) (s : Scene) (m : Move) : Prop where
  got : ∀ e, m ≠ .turn n (.reply (.got (.error e)))
  submitted : ∀ e, m ≠ .turn n (.reply (.submitted (.error e)))
  timely : m = .cancel → s.isAt n Stage.isUndecided = true
  lawful : ∀ calls, m = .setCalls calls →
    ∀ k : Nat, s.desk.calls[k]? = some Call.cancelled → calls[k]? = some Call.cancelled

/-- A cancellation before the last look that precedes the submission. -/
def Early (n : Nat) (s : Scene) (m : Move) : Prop :=
  m = .cancel ∧ s.isAt n Stage.isEarly = true

/-- A cancellation that finds the call unresolved, or the look after the submission, which does so
for a cancellation that came during the submission. -/
inductive Hit (n : Nat) (s : Scene) : Move → Prop where
  | cancelled (call : Nat) (hp : s.statement.pending = some call)
      (hc : s.desk.calls[call]? = some .unresolved) (hn : s.isAt n Stage.isAwaited = true) :
      Hit n s .cancel
  | noticed (x : Execution) (m : Message) (call : Nat) (hx : s.executions[n]? = some x)
      (hs : x.stage = .registering m call) (hf : s.statement.cancelRequested = true)
      (hc : s.desk.calls[call]? = some .unresolved) : Hit n s (.turn n .step)

/-- The execution of a number ends as cancelled, whatever happens. -/
def Doomed (n : Nat) (s : Scene) : Prop :=
  ∃ x, s.executions[n]? = some x ∧ x.stage.Doomed s.statement.cancelRequested s.desk.calls

/-- The execution of a number asks neither for a submission nor for a response to be stored. -/
def Unsent (n : Nat) (s : Scene) : Prop :=
  (∀ m, s.demand? n ≠ some (.submit m)) ∧
    ∀ session m response, s.demand? n ≠ some (.put session m response)

/-! ### Doom -/

/-- How a scene stands for the execution of a number that is under way or over. -/
def Concerns (n : Nat) (s : Scene) (job : Job) : Prop :=
  s.Ordered ∧ ∃ x, s.executions[n]? = some x ∧ x.job = job

theorem Concerns.after {n : Nat} {s : Scene} {job : Job} (h : s.Concerns n job) (m : Move) :
    (s.after m).Concerns n job := by
  obtain ⟨ho, x, hx, hj⟩ := h
  obtain ⟨t, g, statement, desk, -, -, -, hg⟩ | ⟨-, hk⟩ := s.after_cases n x m hx
  · exact ⟨ho.after m, _, hg, hj⟩
  · exact ⟨ho.after m, x, hk, hj⟩

theorem Concerns.run {n : Nat} {s : Scene} {job : Job} (h : s.Concerns n job) (ms : List Move) :
    (s.run ms).Concerns n job :=
  run_keeps (Concerns n · job) (fun _ m h => h.after m) s ms h

theorem concerns_attempt (s : Scene) (job : Job) (h : s.Ordered) :
    (s.after (.attempt job)).Concerns s.executions.length job := by
  refine ⟨h.after _, s.attempted job, ?_, (s.attempted_fields job).1⟩
  simp [Scene.after]

theorem Doomed.after {n : Nat} {s : Scene} {job : Job} (h : s.Doomed n) (hc : s.Concerns n job)
    (hb : ∀ config, ∃ body, job.request config = .ok body) (m : Move) (hp : s.Proper n m) :
    (s.after m).Doomed n := by
  obtain ⟨x, hx, hd⟩ := h
  obtain ⟨ho, y, hy, hj⟩ := hc
  have hxy := Option.some.inj (hx.symm.trans hy)
  subst hxy
  obtain ⟨t, g, statement, desk, rfl, he, ha, hg⟩ | ⟨hm, hk⟩ := s.after_cases n x m hx
  · refine ⟨_, hg, ?_⟩
    rw [he]
    refine ha.doomed (by rw [hj]; exact hb s.config) ?_ hd
    intro e ht
    exact hp.got e (by rw [ht])
  · refine ⟨x, hk, ?_⟩
    cases hr : x.stage.isRunning with
    | false => exact x.stage.doomed_of_resting hr hd
    | true =>
      have hrun := ho.runs n x hx hr
      -- what others do only raises the flag and settles calls
      refine x.stage.doomed_mono ?_ ?_ hd
      · intro hf
        rcases hrun.flag_after m hm with ⟨he, -⟩ | ⟨-, -, he⟩ | ⟨call, -, -, he⟩
        · exact he.trans hf
        · exact he
        · exact he
      · intro call hcall
        by_cases hs : ∃ calls, m = .setCalls calls
        · obtain ⟨calls, rfl⟩ := hs
          exact hp.lawful calls rfl call hcall
        · exact hrun.call_after m hm (fun calls he => hs ⟨calls, he⟩) call hcall

theorem Doomed.run {n : Nat} {s : Scene} {job : Job} (h : s.Doomed n) (hc : s.Concerns n job)
    (hb : ∀ config, ∃ body, job.request config = .ok body) (ms : List Move)
    (hp : s.Always (Proper n) ms) : (s.run ms).Doomed n := by
  have hboth : (s.run ms).Doomed n ∧ (s.run ms).Concerns n job :=
    run_keeps_of (fun s => s.Doomed n ∧ s.Concerns n job) (Proper n)
      (fun _ m h hm => ⟨h.1.after h.2 hb m hm, h.2.after m⟩) s ms hp ⟨h, hc⟩
  exact hboth.1

theorem doomed_of_early (s : Scene) (n : Nat) (m : Move) (ho : s.Ordered) (h : s.Early n m) :
    (s.after m).Doomed n := by
  obtain ⟨rfl, hn⟩ := h
  obtain ⟨x, hx, hxe⟩ := (s.isAt_iff n _).mp hn
  have hrun := ho.runs n x hx (x.stage.running_of_early hxe)
  have hp := hrun.pending.trans (x.stage.pending_of_early hxe)
  have hc := s.statement.cancel_early s.desk hp
  have hf : (s.after .cancel).statement.cancelRequested = true := by
    simp [Scene.after, hc]
  refine ⟨x, hx, ?_⟩
  rw [hf]
  exact x.stage.doomed_of_early _ hxe

theorem doomed_of_hit (s : Scene) (n : Nat) (m : Move) (ho : s.Ordered) (h : s.Hit n m) :
    (s.after m).Doomed n := by
  cases h with
  | cancelled call hp hc hn =>
    obtain ⟨x, hx, hxa⟩ := (s.isAt_iff n _).mp hn
    have hrun := ho.runs n x hx (x.stage.running_of_awaited hxa)
    have hq := hrun.pending.symm.trans hp
    have hw := s.statement.cancel_won s.desk call hp hc
    have hf : (s.after .cancel).statement.cancelRequested = true := by
      simp [Scene.after, hw]
    have hcall : (s.after .cancel).desk.calls[call]? = some .cancelled := by
      obtain ⟨hl, -⟩ := List.getElem?_eq_some_iff.mp hc
      simp [Scene.after, hw, hl]
    exact ⟨x, hx, x.stage.doomed_of_awaited hxa call hq _ _ hf hcall⟩
  | noticed x m call hx hs hf hc =>
    have hw : s.desk.cancelCall call =
        ({ s.desk with calls := s.desk.calls.set call .cancelled }, true) :=
      cancelCall_won s.desk call hc
    have he : x.take .step s.config s.statement s.desk = (x.goTo (.waiting m call),
        { s.statement with pending := some call, cancelRequested := true },
        { s.desk with calls := s.desk.calls.set call .cancelled }) := by
      simp [Execution.take, Execution.step, hs, Execution.register, hf, hw]
    obtain ⟨hl, -⟩ := List.getElem?_eq_some_iff.mp hc
    rw [s.after_turn_eq n x _ .step _ _ hx he]
    refine ⟨_, s.getElem?_advance_self n _ x _ _ hx, rfl, ?_⟩
    simp [advance, hl]

/-- What dooms an execution at one move of a run settles how it ends. -/
theorem doomed_of_sometime (P : Scene → Move → Prop) (n : Nat)
    (hP : ∀ s m, s.Ordered → P s m → (s.after m).Doomed n) (s : Scene) (job : Job)
    (hc : s.Concerns n job) (hb : ∀ config, ∃ body, job.request config = .ok body)
    (ms : List Move) (hp : s.Always (Proper n) ms) (h : s.Sometime P ms) :
    (s.run ms).Doomed n := by
  induction ms generalizing s with
  | nil => exact h.elim
  | cons m ms ih =>
    obtain ⟨-, hps⟩ := hp
    have hc' := hc.after m
    obtain hm | hms := h
    · exact (hP s m hc.1 hm).run hc' hb ms hps
    · exact ih (s.after m) hc' hps hms

/-- The execution of a number can return by its own turns, and returns nothing but that it is
cancelled. -/
def EndsCancelled (n : Nat) (s : Scene) : Prop :=
  (∀ r, s.answer? n = some r → r = .error .cancelled) ∧
    ∃ ts : List Turn, ts.all Turn.isRegular = true ∧
      (s.run (ts.map (.turn n))).answer? n = some (.error .cancelled)

theorem Doomed.answer {n : Nat} {s : Scene} (h : s.Doomed n) (r : Except ClientError Answer)
    (hr : s.answer? n = some r) : r = .error .cancelled := by
  obtain ⟨x, hx, hd⟩ := h
  have hxr : x.result? = some r := by
    simpa [answer?, hx] using hr
  cases hs : x.stage with
  | returned r' =>
    simp only [Execution.result?, hs, Option.some.injEq] at hxr
    rw [hs] at hd
    rw [← hxr]
    exact hd
  | _ => simp [Execution.result?, hs] at hxr

theorem proper_of_regular (s : Scene) (n : Nat) (t : Turn) (h : t.isRegular = true) :
    s.Proper n (.turn n t) := by
  refine ⟨?_, ?_, ?_, ?_⟩
  · rintro e he
    cases he
    cases h
  · rintro e he
    cases he
    cases h
  · rintro ⟨⟩
  · rintro calls ⟨⟩

theorem Doomed.ends {n : Nat} {s : Scene} {job : Job} (h : s.Doomed n) (hc : s.Concerns n job)
    (hb : ∀ config, ∃ body, job.request config = .ok body) : s.EndsCancelled n := by
  refine ⟨h.answer, ?_⟩
  obtain ⟨x, hx⟩ : ∃ x, s.executions[n]? = some x := ⟨h.choose, h.choose_spec.1⟩
  -- the turns left go down with every turn
  induction hk : x.stage.turnsLeft using Nat.strongRecOn generalizing s x with
  | ind k ih =>
    cases hr : x.result? with
    | some r =>
      have ha : s.answer? n = some r := by
        simp [answer?, hx, hr]
      have he := h.answer r ha
      exact ⟨[], rfl, by rw [← he]; exact ha⟩
    | none =>
      obtain ⟨ho, y, hy, hj⟩ := hc
      have hxy := Option.some.inj (hx.symm.trans hy)
      subst hxy
      obtain ⟨z, hz, hd⟩ := h
      have hxz := Option.some.inj (hx.symm.trans hz)
      subst hxz
      obtain ⟨t, ht, hlt⟩ := x.gets_on s.config s.statement s.desk (by rw [hj]; exact hb _) hd hr
      have hm := s.proper_of_regular n t ht
      have hd' : (s.after (.turn n t)).Doomed n :=
        Doomed.after ⟨x, hx, hd⟩ ⟨ho, x, hx, hj⟩ hb _ hm
      have hc' : (s.after (.turn n t)).Concerns n job := Concerns.after ⟨ho, x, hx, hj⟩ _
      have hx' : (s.after (.turn n t)).executions[n]? =
          some (x.take t s.config s.statement s.desk).1 := by
        rw [s.after_turn_eq n x _ t _ _ hx rfl]
        exact s.getElem?_advance_self n _ x _ _ hx
      obtain ⟨ts, hts, hta⟩ := ih _ (hk ▸ hlt) hd' hc' _ hx' rfl
      refine ⟨t :: ts, ?_, hta⟩
      simp [ht, hts]

/-! ### Nothing is sent -/

theorem always_prefix (P : Scene → Move → Prop) (s : Scene) (ms ns : List Move)
    (h : s.Always P ms) (hn : ns <+: ms) : s.Always P ns := by
  obtain ⟨l, rfl⟩ := hn
  exact ((s.always_append P ns l).mp h).1

theorem unsent_of_stage (s : Scene) (n : Nat) (h : s.isAt n Stage.isUnsent = true) :
    s.Unsent n := by
  obtain ⟨x, hx, hu⟩ := (s.isAt_iff n _).mp h
  have hd : s.demand? n = x.demand? := by
    simp [demand?, hx]
  rw [Unsent, hd]
  obtain hn | ⟨session, m, hg⟩ := x.demand_of_unsent hu
  · simp [hn]
  · simp [hg]

theorem early_before (s : Scene) (n : Nat) (m : Move) (hn : n < s.executions.length)
    (h : (s.after m).isAt n Stage.isEarly = true) : s.isAt n Stage.isEarly = true := by
  obtain ⟨y, hy, hye⟩ := ((s.after m).isAt_iff n _).mp h
  obtain hx | ⟨t, x, rfl, hx⟩ | ⟨job, -, hl, -⟩ := s.getElem?_of_after n y m hy
  · exact (s.isAt_of n _ y hx).trans hye
  · obtain ⟨g, statement, desk, he, ha⟩ := s.after_turn n x t hx
    rw [he, getElem?_advance_self s n _ x statement desk hx] at hy
    cases hy
    exact (s.isAt_of n _ x hx).trans (ha.early hye)
  · omega

theorem Concerns.lt {n : Nat} {s : Scene} {job : Job} (h : s.Concerns n job) :
    n < s.executions.length := by
  obtain ⟨-, x, hx, -⟩ := h
  obtain ⟨hn, -⟩ := List.getElem?_eq_some_iff.mp hx
  exact hn

theorem early_of_sometime (s : Scene) (n : Nat) (job : Job) (hc : s.Concerns n job)
    (ms : List Move) (h : s.Sometime (Early n) ms) : s.isAt n Stage.isEarly = true := by
  induction ms generalizing s with
  | nil => exact h.elim
  | cons m ms ih =>
    obtain ⟨-, hm⟩ | hms := h
    · exact hm
    · exact s.early_before n m hc.lt (ih (s.after m) (hc.after m) hms)

theorem unsent_after (s : Scene) (n : Nat) (m : Move) (hd : s.Doomed n)
    (h : s.isAt n Stage.isUnsent = true) : (s.after m).isAt n Stage.isUnsent = true := by
  obtain ⟨x, hx, hxd⟩ := hd
  rw [s.isAt_of n _ x hx] at h
  obtain ⟨t, g, statement, desk, -, -, ha, hg⟩ | ⟨-, hk⟩ := s.after_cases n x m hx
  · exact (isAt_of _ n _ _ hg).trans (ha.unsent hxd h)
  · exact (isAt_of _ n _ x hk).trans h

theorem unsent_run (s : Scene) (n : Nat) (job : Job) (hc : s.Concerns n job)
    (hb : ∀ config, ∃ body, job.request config = .ok body) (ms : List Move)
    (hp : s.Always (Proper n) ms) (hd : s.Doomed n) (h : s.isAt n Stage.isUnsent = true) :
    (s.run ms).isAt n Stage.isUnsent = true := by
  have hall : (s.run ms).isAt n Stage.isUnsent = true ∧ (s.run ms).Doomed n ∧
      (s.run ms).Concerns n job :=
    run_keeps_of (fun s => s.isAt n Stage.isUnsent = true ∧ s.Doomed n ∧ s.Concerns n job)
      (Proper n) (fun s m h hm => ⟨s.unsent_after n m h.2.1 h.1, h.2.1.after h.2.2 hb m hm,
        h.2.2.after m⟩) s ms hp ⟨h, hd, hc⟩
  exact hall.1

/-- With an early cancellation, neither a submission nor a store is ever asked for. -/
theorem unsent_of_sometime (s : Scene) (n : Nat) (job : Job) (hc : s.Concerns n job)
    (hb : ∀ config, ∃ body, job.request config = .ok body) (ms : List Move)
    (hp : s.Always (Proper n) ms) (h : s.Sometime (Early n) ms) (ns : List Move)
    (hn : ns <+: ms) : (s.run ns).Unsent n := by
  induction ms generalizing s ns with
  | nil => exact h.elim
  | cons m ms ih =>
    obtain ⟨hm, hms⟩ := hp
    have he := s.early_of_sometime n job hc (m :: ms) h
    obtain ⟨x, hx, hxe⟩ := (s.isAt_iff n _).mp he
    have hu : s.isAt n Stage.isUnsent = true :=
      (s.isAt_of n _ x hx).trans (x.stage.unsent_of_early hxe)
    cases ns with
    | nil => exact s.unsent_of_stage n hu
    | cons m' ns =>
      obtain ⟨rfl, hns⟩ := List.cons_prefix_cons.mp hn
      obtain hnow | hlater := h
      · have hd := s.doomed_of_early n m' hc.1 hnow
        obtain ⟨rfl, -⟩ := hnow
        have hu' : (s.after .cancel).isAt n Stage.isUnsent = true := by
          rw [isAt_of _ n _ x (s.getElem?_after n x .cancel hx (by simp))]
          exact x.stage.unsent_of_early hxe
        have hps := always_prefix _ _ ms ns hms hns
        exact unsent_of_stage _ n (unsent_run _ n job (hc.after _) hb ns hps hd hu')
      · exact ih (s.after m') (hc.after m') hms hlater ns hns

/-! ### The flag once the outcome is there -/

/-- The flag is down as long as an execution runs whose outcome is there. -/
def Calm (n : Nat) (s : Scene) : Prop :=
  ∀ x, s.executions[n]? = some x → x.stage.isRunning = true → x.stage.isUndecided = false →
    s.statement.cancelRequested = false

/-- When the outcome of an execution is recorded, and after that as long as it runs, no call is
pending and the flag is down. -/
theorem Calm.decided {n : Nat} {s : Scene} {job : Job} (h : s.Calm n) (hc : s.Concerns n job)
    (hb : ∀ config, ∃ body, job.request config = .ok body) (m : Move) (hp : s.Proper n m)
    (hr : s.isAt n Stage.isRunning = true) (hd : (s.after m).isAt n Stage.isUndecided = false) :
    (s.after m).statement.pending = none ∧ (s.after m).statement.cancelRequested = false := by
  obtain ⟨ho, x, hx, hj⟩ := hc
  rw [s.isAt_of n _ x hx] at hr
  have hrun := ho.runs n x hx hr
  obtain ⟨t, g, statement, desk, rfl, he, ha, hg⟩ | ⟨hm, hk⟩ := s.after_cases n x m hx
  · rw [isAt_of _ n _ _ hg] at hd
    rw [he]
    refine ⟨?_, ha.flag_of_decision (by rw [hj]; exact hb _) ?_ ?_ hr (h x hx hr) hd⟩
    · cases hgr : g.isRunning with
      | true => exact (ha.stays hrun.pending hgr).2.trans (g.pending_of_decided hd)
      | false => exact (ha.leaves hr hrun.pending hgr).2
    · intro e ht
      exact hp.got e (by rw [ht])
    · intro e ht
      exact hp.submitted e (by rw [ht])
  · rw [isAt_of _ n _ x hk] at hd
    have hq := x.stage.pending_of_decided hd
    refine ⟨(hrun.after_move m hm).pending.trans hq, ?_⟩
    rcases hrun.flag_after m hm with ⟨hf, -⟩ | ⟨hf, -, -⟩ | ⟨call, hcall, -, -⟩
    · exact hf.trans (h x hx hr hd)
    · have hu := hp.timely hf
      rw [s.isAt_of n _ x hx, hd] at hu
      cases hu
    · rw [hq] at hcall
      cases hcall

theorem running_before (s : Scene) (n : Nat) (m : Move) (hn : n < s.executions.length)
    (h : (s.after m).isAt n Stage.isRunning = true) : s.isAt n Stage.isRunning = true := by
  obtain ⟨y, hy, hyr⟩ := ((s.after m).isAt_iff n _).mp h
  obtain hx | ⟨t, x, rfl, hx⟩ | ⟨job, -, hl, -⟩ := s.getElem?_of_after n y m hy
  · exact (s.isAt_of n _ y hx).trans hyr
  · obtain ⟨g, statement, desk, he, ha⟩ := s.after_turn n x t hx
    rw [he, getElem?_advance_self s n _ x statement desk hx] at hy
    cases hy
    rw [s.isAt_of n _ x hx]
    cases hxr : x.stage.isRunning with
    | true => rfl
    | false =>
      rw [Execution.goTo_stage, (ha.settled hxr).1] at hyr
      cases hyr
  · omega

theorem Calm.after {n : Nat} {s : Scene} {job : Job} (h : s.Calm n) (hc : s.Concerns n job)
    (hb : ∀ config, ∃ body, job.request config = .ok body) (m : Move) (hp : s.Proper n m) :
    (s.after m).Calm n := by
  intro y hy hr hd
  have hr' := s.running_before n m hc.lt ((isAt_of _ n _ y hy).trans hr)
  exact (h.decided hc hb m hp hr' ((isAt_of _ n _ y hy).trans hd)).2

theorem Calm.run {n : Nat} {s : Scene} {job : Job} (h : s.Calm n) (hc : s.Concerns n job)
    (hb : ∀ config, ∃ body, job.request config = .ok body) (ms : List Move)
    (hp : s.Always (Proper n) ms) : (s.run ms).Calm n := by
  have hboth : (s.run ms).Calm n ∧ (s.run ms).Concerns n job :=
    run_keeps_of (fun s => s.Calm n ∧ s.Concerns n job) (Proper n)
      (fun _ m h hm => ⟨h.1.after h.2 hb m hm, h.2.after m⟩) s ms hp ⟨h, hc⟩
  exact hboth.1

end Scene

end OlapClient
