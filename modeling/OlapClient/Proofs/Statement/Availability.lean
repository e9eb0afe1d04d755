import OlapClient.Proofs.Statement.CloseOutcome
import OlapClient.Proofs.Statement.Errand

/-!
# A statement is available again

However an execution ends, the statement is idle when its phase is recorded: no call is pending, and
the next attempt is not turned away as one too many. An attempt that is turned away, because the
statement is closed or busy, leaves everything as it was and calls nobody.
-/

namespace OlapClient.Scene

theorem after_attempt_barred (s : Scene) (job : Job)
    (h : s.statement.isClosed = true ∨ s.statement.phase = .submitted) :
    ∃ e, (e = .closed .statement ∨ e = .request .alreadyExecuting) ∧
      s.after (.attempt job) = { s with executions := s.executions ++
        [⟨job, s.statement.timeout, s.session, .returned (.error e)⟩] } := by
  obtain ⟨g, statement, desk, -, hafter, hentry⟩ := s.attempt_entry job
  cases hentry with
  | refused e _ he => exact ⟨e, he, hafter⟩
  | entered phase g hc hp =>
    obtain h | h := h
    · rw [hc] at h
      cases h
    · exact absurd h hp

theorem demand_of_barred (s : Scene) (job : Job)
    (h : s.statement.isClosed = true ∨ s.statement.phase = .submitted) (ns : List Move) :
    ((s.after (.attempt job)).run ns).demand? s.executions.length = none := by
  obtain ⟨e, -, he⟩ := s.after_attempt_barred job h
  have ha : (s.after (.attempt job)).answer? s.executions.length = some (.error e) := by
    simp [he, answer?, Execution.result?]
  exact demand_of_answer _ _ _ (answer_run _ _ ns _ ha)

theorem answer_of_entered (s : Scene) (job : Job) (hc : s.statement.isClosed = false)
    (hp : s.statement.phase ≠ .submitted) :
    (s.after (.attempt job)).answer? s.executions.length =
      if s.statement.cancelRequested then some (.error .cancelled) else none := by
  obtain ⟨phase, g, ⟨hf, -, rfl⟩ | ⟨hf, -, rfl⟩, hx, -, -⟩ := s.entry_of_entered job hc hp
  · rw [answer_of_attempt, hx, hf]
    rfl
  · rw [answer_of_attempt, hx, hf]
    rfl

theorem Ordered.pending {s : Scene} (h : s.Ordered) (hp : s.statement.pending ≠ none) :
    s.statement.phase = .submitted := by
  obtain ⟨n, x, h⟩ | h := h
  · exact h.phase
  · exact absurd h.pending hp

theorem Ordered.alone {s : Scene} (h : s.Ordered) (k k' : Nat)
    (hk : s.isAt k Stage.isRunning = true) (hk' : s.isAt k' Stage.isRunning = true) : k = k' := by
  obtain ⟨x, hx, hr⟩ := (s.isAt_iff k _).mp hk
  obtain ⟨y, hy, hr'⟩ := (s.isAt_iff k' _).mp hk'
  exact (h.runs k' y hy hr').alone k x hx hr

theorem Ordered.idle {s : Scene} (h : s.Ordered) (hr : ∀ k, s.isAt k Stage.isRunning = false) :
    s.Idle := by
  obtain ⟨n, x, h⟩ | h := h
  · have hn := hr n
    rw [s.isAt_of n _ x h.here, h.running] at hn
    cases hn
  · exact h

theorem Ordered.idle_after {s : Scene} (h : s.Ordered) (n : Nat) (m : Move)
    (hr : s.isAt n Stage.isRunning = true) (hr' : (s.after m).isAt n Stage.isRunning = false) :
    (s.after m).Idle := by
  obtain ⟨x, hx, hxr⟩ := (s.isAt_iff n _).mp hr
  have hrun := h.runs n x hx hxr
  obtain ⟨t, g, statement, desk, rfl, he, ha, hg⟩ | ⟨-, hk⟩ := s.after_cases n x m hx
  · rw [isAt_of _ n _ _ hg] at hr'
    rw [he]
    exact hrun.leave ha hr'
  · rw [isAt_of _ n _ x hk, hxr] at hr'
    cases hr'

/-- In every scene: a call is pending only while an execution runs, at most one runs, and when it
stops, however it ends, the statement lets the next one in. What is turned away leaves no trace
but its answer. And an execution that is not over has a turn that is due, of which it needs ten at
most. -/
theorem statement_available (config : Config) (session : Option String) (desk : Desk)
    (ms : List Move) (s : Scene) (hs : (new config session desk).run ms = s) :
    (s.statement.pending ≠ none → s.statement.phase = .submitted) ∧
    (∀ k k', s.isAt k Stage.isRunning = true → s.isAt k' Stage.isRunning = true → k = k') ∧
    ((∀ k, s.isAt k Stage.isRunning = false) →
      s.statement.phase ≠ .submitted ∧ s.statement.pending = none ∧
        ∀ job, s.statement.isClosed = false →
          (s.after (.attempt job)).answer? s.executions.length =
            if s.statement.cancelRequested then some (.error .cancelled) else none) ∧
    (∀ n m, s.isAt n Stage.isRunning = true → (s.after m).isAt n Stage.isRunning = false →
      (s.after m).statement.phase ≠ .submitted ∧ (s.after m).statement.pending = none) ∧
    (∀ job, s.statement.isClosed = true ∨ s.statement.phase = .submitted →
      (∃ e, (e = .closed .statement ∨ e = .request .alreadyExecuting) ∧
        s.after (.attempt job) = { s with executions := s.executions ++
          [⟨job, s.statement.timeout, s.session, .returned (.error e)⟩] }) ∧
      ∀ ns, ((s.after (.attempt job)).run ns).demand? s.executions.length = none) ∧
    ∀ n, n < s.executions.length →
      (s.answer? n = none → ∃ t, s.isDue n (.turn n t) = true) ∧
        ∀ ns, s.dueTurns n ns ≤ 10 := by
  have ho : s.Ordered := by
    rw [← hs]
    exact (new_ordered config session desk).run ms
  have heq : s.Equipped := by
    rw [← hs]
    exact (new_equipped config session desk).run ms
  refine ⟨ho.pending, ho.alone, ?_, ?_, ?_, ?_⟩
  · intro hr
    have hi := ho.idle hr
    exact ⟨hi.phase, hi.pending, fun job hc => s.answer_of_entered job hc hi.phase⟩
  · intro n m hr hr'
    have hi := ho.idle_after n m hr hr'
    exact ⟨hi.phase, hi.pending⟩
  · intro job hb
    exact ⟨s.after_attempt_barred job hb, s.demand_of_barred job hb⟩
  · intro n hn
    have hx : s.executions[n]? = some s.executions[n] := List.getElem?_eq_getElem hn
    refine ⟨?_, ?_⟩
    · intro ha
      have hr : s.executions[n].result? = none := by simpa [answer?, hx] using ha
      obtain ⟨t, ht⟩ := s.executions[n].exists_due s.desk hr
      exact ⟨t, by simp [isDue, hx, ht]⟩
    · intro ns
      exact Nat.le_trans (s.dueTurns_le heq n _ hx ns) (Stage.turnsLeft_le_ten _)

/-- While an execution looks its request up, another one is turned away; when the lookup has failed
and the first is over, the statement is idle. -/
theorem lookup_bars_attempt :
    (((new {} (some "s") {}).run untilLookup).after (.attempt (.cells ""))).statement =
        ((new {} (some "s") {}).run untilLookup).statement ∧
      (((new {} (some "s") {}).run untilLookup).after (.attempt (.cells ""))).answer? 1 =
        some (.error (.request .alreadyExecuting)) ∧
      (((new {} (some "s") {}).run
        (untilLookup ++ [.turn 0 (.reply (.got (.error .cancelled)))])).after
          (.turn 0 .step)).statement.phase ≠ .submitted := by
  obtain ⟨-, -, -, -, hbar, -⟩ := statement_available {} (some "s") {} untilLookup _ rfl
  obtain ⟨⟨e, -, he⟩, -⟩ := hbar (.cells "") (.inr rfl)
  obtain ⟨-, -, -, hidle, -⟩ := statement_available {} (some "s") {}
    (untilLookup ++ [.turn 0 (.reply (.got (.error .cancelled)))]) _ rfl
  refine ⟨?_, rfl, ?_⟩
  · rw [he]
  · exact (hidle 0 (.turn 0 .step) rfl rfl).1

end OlapClient.Scene
