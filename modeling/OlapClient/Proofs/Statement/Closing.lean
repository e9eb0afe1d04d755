import OlapClient.Proofs.Statement.Cancellation

/-!
# Closed statements

A closed statement stays closed and refuses every attempt. Of the executions under way when it is
closed, those with a multidimensional result and those whose call the closing cancels do not
succeed any more.
-/

namespace OlapClient

namespace Stage

/-- Past the submission, with a cancellation noticed if the wait is not recorded. -/
def CutOff (flag : Bool) : Stage → Prop
  | waiting _ _ | recording _ _ _ => flag = true
  | failing e => e = .cancelled
  | returned r => r = .error .cancelled
  | _ => False

theorem cutOff_of_awaited (g : Stage) (h : g.isAwaited = true) : g.CutOff true := by
  cases g <;> simp_all [isAwaited, CutOff]

theorem cutOff_mono (g : Stage) {flag flag' : Bool} (hf : flag = true → flag' = true)
    (h : g.CutOff flag) : g.CutOff flag' := by
  cases g with
  | waiting m call => exact hf h
  | recording m call result => exact hf h
  | failing e => exact h
  | returned r => exact h
  | _ => exact h.elim

theorem cutOff_of_resting (g : Stage) {flag flag' : Bool} (hg : g.isRunning = false)
    (h : g.CutOff flag) : g.CutOff flag' := by
  cases g with
  | returned r => exact h
  | opening cells => exact h.elim
  | _ => cases hg

theorem awaited_of_pending (g : Stage) (call : Nat) (h : g.pending? = some call) :
    g.isAwaited = true := by
  cases g <;> simp_all [pending?, isAwaited]

theorem turnsLeft_of_awaited (g : Stage) (h : g.isAwaited = true) : g.turnsLeft ≤ 5 := by
  cases g <;> simp_all [isAwaited, turnsLeft]

theorem turnsLeft_of_resting (g : Stage) (h : g.isRunning = false) : g.turnsLeft ≤ 5 := by
  cases g <;> simp_all [isRunning, turnsLeft]

end Stage

namespace Execution.Advance

variable {x : Execution} {config : Config} {s s' : Statement} {d d' : Desk} {t : Turn} {g : Stage}

theorem isClosed (h : x.Advance config s d t g s' d') : s'.isClosed = s.isClosed := by
  cases hr : x.stage.isRunning with
  | true => exact (h.frame hr).1
  | false => exact (h.settled hr).2.1.isClosed

theorem cutOff (h : x.Advance config s d t g s' d') (hx : x.stage.CutOff s.cancelRequested) :
    g.CutOff s'.cancelRequested := by
  cases h with
  | rest => exact hx
  | waitReturns m call hs => rw [hs] at hx; exact hx
  | waitEnds m call hs => rw [hs] at hx; exact hx
  | recordsCancelled => rfl
  | fails e hs =>
    rw [hs] at hx
    exact congrArg Except.error hx
  | _ => simp_all [Stage.CutOff]

/-- With the statement closed, no turn is the success of a multidimensional job. -/
theorem refused (h : x.Advance config s d t g s' d') (hc : s.isClosed = true)
    (hj : x.job.isMultidimensional = true) (answer : Answer) (hg : g = .returned (.ok answer)) :
    x.stage = .returned (.ok answer) := by
  cases h with
  | rest => exact hg
  | readsRows response cacheHit hs hr =>
    rw [hj] at hr
    cases hr
  | opensCells cells hs ho =>
    rw [hc] at ho
    cases ho
  | unreadable => cases hg
  | fails => cases hg
  | refusesCells => cases hg
  | _ => cases hg

theorem returned (h : x.Advance config s d t g s' d') (r : Except ClientError Answer)
    (hx : x.stage = .returned r) : g = .returned r := by
  cases h with
  | rest => exact hx
  | _ => simp_all

theorem opening (h : x.Advance config s d t g s' d') (hg : g.isOpening = true) :
    x.stage.isOpening = true ∨ x.job.isMultidimensional = true := by
  cases h with
  | rest => exact .inl hg
  | readsCells response cacheHit hs hj => exact .inr hj
  | _ => cases hg

theorem turnsLeft_le (h : x.Advance config s d t g s' d') :
    g.turnsLeft ≤ x.stage.turnsLeft := by
  cases h with
  | rest => exact Nat.le_refl _
  | _ => simp_all [Stage.turnsLeft]

end Execution.Advance

namespace Scene

/-! ### A closed statement -/

theorem closed_after (s : Scene) (m : Move) (h : s.statement.isClosed = true) :
    (s.after m).statement.isClosed = true := by
  cases m with
  | attempt job =>
    rw [s.after_attempt_refused job _ (s.statement.start_closed s.desk job s.session h)]
    exact h
  | turn k t =>
    cases hx : s.executions[k]? with
    | none =>
      rw [s.after_turn_none k t hx]
      exact h
    | some x =>
      obtain ⟨g, statement, desk, he, ha⟩ := s.after_turn k x t hx
      rw [he]
      exact ha.isClosed.trans h
  | cancel =>
    obtain ⟨-, -, -, hc, -⟩ := s.statement.cancel_keeps s.desk
    exact hc.trans h
  | close =>
    have hc := s.statement.close_again s.desk h
    simpa [Scene.after, hc] using h
  | setTimeout seconds =>
    obtain ⟨timeout, he⟩ := s.after_setTimeout_eq seconds
    rw [he]
    exact h
  | configure config => exact h
  | closeCellSet k => exact h
  | addCellSet cells => exact h
  | setCalls calls => exact h

theorem closed_after_close (s : Scene) : (s.after .close).statement.isClosed = true := by
  cases hc : s.statement.isClosed with
  | true => exact s.closed_after .close hc
  | false =>
    obtain hp | ⟨call, hp⟩ := Option.eq_none_or_eq_some s.statement.pending
    · have he := s.statement.close_idle s.desk hc hp
      simp [Scene.after, he, Statement.shut]
    · by_cases hu : s.desk.calls[call]? = some .unresolved
      · have he := s.statement.close_won s.desk call hc hp hu
        simp [Scene.after, he, Statement.shut]
      · have he := s.statement.close_lost s.desk call hc hp hu
        simp [Scene.after, he, Statement.shut]

/-! ### What has returned -/

theorem answer_after (s : Scene) (n : Nat) (m : Move) (r : Except ClientError Answer)
    (h : s.answer? n = some r) : (s.after m).answer? n = some r := by
  cases hx : s.executions[n]? with
  | none => simp [answer?, hx] at h
  | some x =>
    have hxr : x.stage = .returned r := by
      rw [answer?, hx] at h
      cases hs : x.stage <;> simp_all [Execution.result?]
    obtain ⟨t, g, statement, desk, -, -, ha, hg⟩ | ⟨-, hk⟩ := s.after_cases n x m hx
    · rw [answer?, hg, ha.returned r hxr]
      rfl
    · rw [answer?, hk]
      simp [Execution.result?, hxr]

theorem answer_run (s : Scene) (n : Nat) (ms : List Move) (r : Except ClientError Answer)
    (h : s.answer? n = some r) : (s.run ms).answer? n = some r :=
  run_keeps (·.answer? n = some r) (fun s m => s.answer_after n m r) s ms h

/-- What is attempted on a closed statement is refused. -/
theorem answer_of_later (s : Scene) (n : Nat) (ms : List Move)
    (hc : s.statement.isClosed = true) (hn : s.executions.length ≤ n)
    (hn' : n < (s.run ms).executions.length) :
    (s.run ms).answer? n = some (.error (.closed .statement)) := by
  induction ms generalizing s with
  | nil =>
    have hn' : n < s.executions.length := hn'
    omega
  | cons m ms ih =>
    have hc' := s.closed_after m hc
    by_cases hl : (s.after m).executions.length ≤ n
    · exact ih (s.after m) hc' hl hn'
    · by_cases hm : ∃ job, m = .attempt job
      · obtain ⟨job, rfl⟩ := hm
        have hr := s.after_attempt_refused job _ (s.statement.start_closed s.desk job s.session hc)
        have hlen : (s.after (.attempt job)).executions.length = s.executions.length + 1 := by
          simp [Scene.after]
        have hnl : n = s.executions.length := by omega
        refine answer_run _ n ms _ ?_
        rw [hr, hnl]
        simp [answer?, Execution.result?]
      · have hlen := s.length_after m (fun job hj => hm ⟨job, hj⟩)
        omega

theorem demand_of_answer (s : Scene) (n : Nat) (r : Except ClientError Answer)
    (h : s.answer? n = some r) : s.demand? n = none := by
  cases hx : s.executions[n]? with
  | none => simp [demand?, hx]
  | some x =>
    rw [answer?, hx] at h
    rw [demand?, hx]
    cases hs : x.stage with
    | returned r' => simp [Execution.demand?, hs]
    | _ => simp [Execution.result?, hs] at h

/-! ### What cannot succeed any more -/

/-- A multidimensional job that has not succeeded, on a closed statement. -/
def Refused (n : Nat) (s : Scene) : Prop :=
  s.statement.isClosed = true ∧ ∃ x, s.executions[n]? = some x ∧
    x.job.isMultidimensional = true ∧ ∀ answer, x.stage ≠ .returned (.ok answer)

theorem Refused.after {n : Nat} {s : Scene} (h : s.Refused n) (m : Move) :
    (s.after m).Refused n := by
  obtain ⟨hc, x, hx, hj, hr⟩ := h
  refine ⟨s.closed_after m hc, ?_⟩
  obtain ⟨t, g, statement, desk, -, -, ha, hg⟩ | ⟨-, hk⟩ := s.after_cases n x m hx
  · refine ⟨_, hg, hj, ?_⟩
    intro answer hgr
    exact hr answer (ha.refused hc hj answer hgr)
  · exact ⟨x, hk, hj, hr⟩

/-- An execution whose call was cancelled, up to its end. -/
def CutOff (n : Nat) (s : Scene) : Prop :=
  s.Ordered ∧ ∃ x, s.executions[n]? = some x ∧ x.stage.CutOff s.statement.cancelRequested

theorem CutOff.after {n : Nat} {s : Scene} (h : s.CutOff n) (m : Move) :
    (s.after m).CutOff n := by
  obtain ⟨ho, x, hx, hcut⟩ := h
  refine ⟨ho.after m, ?_⟩
  obtain ⟨t, g, statement, desk, -, he, ha, hg⟩ | ⟨hm, hk⟩ := s.after_cases n x m hx
  · refine ⟨_, hg, ?_⟩
    rw [he]
    exact ha.cutOff hcut
  · refine ⟨x, hk, ?_⟩
    cases hr : x.stage.isRunning with
    | false => exact x.stage.cutOff_of_resting hr hcut
    | true =>
      have hrun := ho.runs n x hx hr
      refine x.stage.cutOff_mono ?_ hcut
      intro hf
      rcases hrun.flag_after m hm with ⟨he, -⟩ | ⟨-, -, he⟩ | ⟨call, -, -, he⟩
      · exact he.trans hf
      · exact he
      · exact he

theorem no_success_of_stage (s : Scene) (n : Nat) (x : Execution)
    (hx : s.executions[n]? = some x) (h : ∀ answer, x.stage ≠ .returned (.ok answer))
    (answer : Answer) : s.answer? n ≠ some (.ok answer) := by
  intro ha
  rw [answer?, hx] at ha
  cases hs : x.stage with
  | returned r =>
    simp only [Option.bind_some, Execution.result?, hs, Option.some.injEq] at ha
    exact h answer (by rw [hs, ha])
  | _ => simp [Execution.result?, hs] at ha

theorem Refused.no_success {n : Nat} {s : Scene} (h : s.Refused n) (answer : Answer) :
    s.answer? n ≠ some (.ok answer) := by
  obtain ⟨-, x, hx, -, hr⟩ := h
  exact s.no_success_of_stage n x hx hr answer

theorem CutOff.no_success {n : Nat} {s : Scene} (h : s.CutOff n) (answer : Answer) :
    s.answer? n ≠ some (.ok answer) := by
  obtain ⟨-, x, hx, hcut⟩ := h
  refine s.no_success_of_stage n x hx ?_ answer
  intro a hs
  rw [hs] at hcut
  cases hcut

/-- Only multidimensional jobs have a cell set to hand over. -/
def Typed (s : Scene) : Prop :=
  ∀ (n : Nat) (x : Execution), s.executions[n]? = some x → x.stage.isOpening = true →
    x.job.isMultidimensional = true

theorem Typed.after {s : Scene} (h : s.Typed) (m : Move) : (s.after m).Typed := by
  intro n y hy ho
  obtain hx | ⟨t, x, rfl, hx⟩ | ⟨job, -, -, rfl⟩ := s.getElem?_of_after n y m hy
  · exact h n y hx ho
  · obtain ⟨g, statement, desk, he, ha⟩ := s.after_turn n x t hx
    rw [he, getElem?_advance_self s n _ x statement desk hx] at hy
    cases hy
    obtain hxo | hj := ha.opening ho
    · exact h n x hx hxo
    · exact hj
  · obtain ha | ⟨e, ha⟩ := s.attempted_stage job
    · rw [ha] at ho
      cases ho
    · rw [ha] at ho
      cases ho

theorem new_typed (config : Config) (session : Option String) (desk : Desk) :
    (new config session desk).Typed := by
  intro n x hx
  simp [new] at hx

/-! ### Past the submission -/

/-- An execution that is past its submission. -/
def Past (n : Nat) (s : Scene) : Prop :=
  ∃ x, s.executions[n]? = some x ∧ x.stage.turnsLeft ≤ 5

theorem Past.demand {n : Nat} {s : Scene} (h : s.Past n) (m : Message) :
    s.demand? n ≠ some (.submit m) := by
  obtain ⟨x, hx, hk⟩ := h
  rw [demand?, hx]
  cases hs : x.stage with
  | submitting m' =>
    rw [hs] at hk
    have h7 : (Stage.submitting m').turnsLeft = 7 := rfl
    omega
  | looking m' => cases hse : x.session <;> simp [Execution.demand?, hs, hse]
  | storing m' response => cases hse : x.session <;> simp [Execution.demand?, hs, hse]
  | _ => simp [Execution.demand?, hs]

end Scene

end OlapClient
