import OlapClient.Proofs.Transport.Submission

/-!
# One exchange and one answer

What comes of a submission depends on the first thing that decides its call. If that is a
cancellation, all who wait are told so, and a worker that has not looked yet makes no exchange. If
it is the worker, one of those who wait has its answer.
-/

namespace OlapClient

namespace Submission

variable {exchange : Exchange} {s : Submission} {url : String} {request : Bytes}

/-! ### A cancellation that is accepted -/

theorem act_cancelled (exchange : Exchange) (hc : s.worker.call = .cancelled) (m : Move) :
    (s.act exchange m).2.worker.call = .cancelled := by
  have hrun := (s.shared.run_cancelled (s.effect m) hc).1
  rw [← (s.act_effect exchange m).1] at hrun
  exact hrun

theorem run_cancelled (exchange : Exchange) (hc : s.worker.call = .cancelled) (ms : List Move) :
    (s.run exchange ms).worker.call = .cancelled ∧
    ∀ result ∈ s.returns exchange ms, result = .error .cancelled := by
  obtain ⟨hrun, hall⟩ := s.shared.run_cancelled (s.effects exchange ms) hc
  rw [← shared_run] at hrun
  rw [← returns_run] at hall
  exact ⟨hrun, hall⟩

theorem cancel_accepted (h : (s.act exchange .cancel).1 = some (.accepted true)) :
    (s.act exchange .cancel).2 = { s with worker := { s.worker with call := .cancelled } } := by
  obtain ⟨⟨url, request, stage, call⟩, waiters, journal⟩ := s
  cases call with
  | unresolved => rfl
  | _ => cases h

/-- A submission that was cancelled before its worker looked. -/
inductive Idle : Submission → Prop where
  | ready (url : String) (request : Bytes) (waiters : List Waiter) :
      Idle ⟨⟨url, request, .ready, .cancelled⟩, waiters, []⟩
  | finished (url : String) (request : Bytes) (waiters : List Waiter) :
      Idle ⟨⟨url, request, .finished, .cancelled⟩, waiters, []⟩

theorem Idle.withShared (h : Idle s) (c : SharedCall) (hc : c.call = .cancelled) :
    Idle (s.withShared c) := by
  obtain ⟨call, waiters'⟩ := c
  cases hc
  cases h with
  | ready url request waiters => exact .ready url request waiters'
  | finished url request waiters => exact .finished url request waiters'

theorem Idle.journal_eq (h : Idle s) : s.journal = [] := by
  cases h <;> rfl

theorem Idle.act (h : Idle s) (m : Move) : Idle (s.act exchange m).2 := by
  cases ho : m.operation? with
  | none =>
    rw [Submission.act, ho]
    cases h with
    | ready url request waiters => exact .finished url request waiters
    | finished url request waiters => exact .finished url request waiters
  | some o =>
    have hc : s.worker.call = .cancelled := by cases h <;> rfl
    have hnext := act_cancelled exchange hc m
    rw [act_operation exchange s m o ho] at hnext ⊢
    exact h.withShared _ hnext

theorem Idle.run (h : Idle s) (ms : List Move) : Idle (s.run exchange ms) := by
  induction ms generalizing s with
  | nil => exact h
  | cons m ms ih => exact ih (h.act m)

theorem ready_of_no_work (hs : s.worker.stage = .ready) (ms : List Move) (hm : .work ∉ ms) :
    (s.run exchange ms).worker.stage = .ready := by
  induction ms generalizing s with
  | nil => exact hs
  | cons m ms ih =>
    have hne : Move.work ≠ m := List.ne_of_not_mem_cons hm
    have hms : Move.work ∉ ms := List.not_mem_of_not_mem_cons hm
    have hnext : (s.act exchange m).2.worker.stage = .ready := by
      cases m with
      | work => exact absurd rfl hne
      | _ => exact hs
    exact ih hnext hms

/-- The worker of a call that is cancelled before it looks makes no exchange. -/
theorem no_exchange (h : Sound exchange url request s) (hs : s.worker.stage = .ready)
    (before after : List Move) (hm : .work ∉ before)
    (hc : ((s.run exchange before).act exchange .cancel).1 = some (.accepted true)) :
    (s.run exchange (before ++ .cancel :: after)).journal = [] := by
  have hready : (s.run exchange before).worker.stage = .ready := ready_of_no_work hs before hm
  have hbefore := h.run before
  rw [run_append, run_cons, cancel_accepted hc]
  have hidle : Idle { s.run exchange before with
      worker := { (s.run exchange before).worker with call := .cancelled } } := by
    generalize s.run exchange before = t at hready hbefore ⊢
    cases hbefore with
    | before stage call waiters =>
      cases hready
      exact .ready url request waiters
    | _ => cases hready
  exact (hidle.run after).journal_eq

/-- Who waits for a cancelled call learns of it at the next look. -/
theorem waits_cancelled (exchange : Exchange) (hc : s.worker.call = .cancelled) :
    (∀ bound, (s.act exchange (.wait bound)).1 = some (.returned (.error .cancelled))) ∧
    ∀ n late bound, s.waiters[n]? = some ⟨bound, none⟩ →
      (s.act exchange (.wake n late)).1 = some (.returned (.error .cancelled)) := by
  have hr : s.worker.call.isResolved = true := by
    rw [hc]
    rfl
  obtain ⟨hwait, hwake⟩ := s.waits_return exchange hr
  -- What returns at this look is among the returns of a run, all of which are cancelled.
  have hall (m : Move) (result : Except ClientError Bytes)
      (h : (s.act exchange m).1 = some (.returned result)) : result = .error .cancelled := by
    apply (run_cancelled exchange hc [m]).2
    simp [returns, h, SharedCall.Outcome.result?]
  refine ⟨?_, ?_⟩
  · intro bound
    obtain ⟨result, h⟩ := hwait bound
    rw [h, hall _ _ h]
  · intro n late bound hw
    obtain ⟨result, h⟩ := hwake n late bound hw
    rw [h, hall _ _ h]

/-! ### No cancellation that is accepted -/

theorem refuses_cons (m : Move) (ms : List Move) : s.Refuses exchange (m :: ms) ↔
    (m = .cancel → (s.act exchange .cancel).1 = some (.accepted false)) ∧
    (s.act exchange m).2.Refuses exchange ms := by
  constructor
  · intro h
    refine ⟨?_, ?_⟩
    · rintro rfl
      exact h [] ms rfl
    · intro before after hms
      exact h (m :: before) after (congrArg (m :: ·) hms)
  · rintro ⟨hm, hms⟩ before after h
    cases before with
    | nil =>
      cases h
      exact hm rfl
    | cons m' before =>
      cases h
      exact hms before after rfl

theorem refuses_nil : s.Refuses exchange [] := by
  intro before after h
  cases before <;> cases h

theorem Refuses.tail {m : Move} {ms : List Move} (h : s.Refuses exchange (m :: ms)) :
    (s.act exchange m).2.Refuses exchange ms := ((refuses_cons m ms).mp h).2

theorem Refuses.head {ms : List Move} (h : s.Refuses exchange (.cancel :: ms)) :
    s.worker.call ≠ .unresolved := by
  intro hu
  have hrefused : some (SharedCall.Outcome.accepted s.worker.cancel.2) = some (.accepted false) :=
    ((refuses_cons .cancel ms).mp h).1 rfl
  rw [Worker.cancel, hu] at hrefused
  cases hrefused

/-- The worker leaves an unresolved call as it is or answers it with what the exchange gave. -/
theorem Sound.work_unresolved (h : Sound exchange url request s)
    (hu : s.worker.call = .unresolved) :
    (s.work exchange).worker.call = .unresolved ∨
    (s.work exchange).worker.call = .answered (Worker.report url (exchange url request)) := by
  cases h with
  | before stage call waiters hs hc =>
    cases hu
    obtain rfl | rfl := hs <;> exact .inl rfl
  | skipped => cases hu
  | exchanged call waiters hc =>
    cases hu
    exact .inr rfl
  | finished call waiters hr ha =>
    cases hu
    cases hr

/-- A wait for an unresolved call goes on or has timed out. -/
theorem wait_unresolved (exchange : Exchange) (hu : s.worker.call = .unresolved) (m : Move)
    (o : SharedCall.Operation) (hm : m.operation? = some o) (ho : o.decides = false) :
    (s.act exchange m).2.worker.call = .unresolved ∧
    ((s.act exchange m).1.bind SharedCall.Outcome.result? = none ∨
      ∃ d, (s.act exchange m).1.bind SharedCall.Outcome.result? =
        some (.error (.timedOut d))) := by
  have hs : s.shared.call.isResolved = false := by
    rw [show s.shared.call = .unresolved from hu]
    rfl
  rw [act_operation exchange s m o hm]
  obtain ⟨result, -, ht⟩ | ⟨-, d, -, -, -, hd, hc⟩ | ⟨hw, hc⟩ := s.shared.act_undecided o ho
  · rw [(SharedCall.take_eq_none _).mpr hs] at ht
    cases ht
  · exact ⟨hc.trans hu, .inr ⟨d, by rw [hd]; rfl⟩⟩
  · exact ⟨hc.trans hu, .inl (by rw [hw]; rfl)⟩

/-- As long as no cancellation is accepted, waits time out; one has what the exchange gave, and
those after it find it taken. -/
theorem returns_refused (h : Sound exchange url request s) (hu : s.worker.call = .unresolved)
    (ms : List Move) (hr : s.Refuses exchange ms) :
    ∃ (bounds : List Duration) (rest : List (Except ClientError Bytes)),
      s.returns exchange ms = (bounds.map fun d => .error (.timedOut d)) ++ rest ∧
      (rest = [] ∨ ∃ k, rest =
        Worker.report url (exchange url request) :: List.replicate k SharedCall.takenBefore) := by
  induction ms generalizing s with
  | nil => exact ⟨[], [], rfl, .inl rfl⟩
  | cons m ms ih =>
    cases hm : m.operation? with
    | none =>
      have hwork : s.act exchange m = (none, s.work exchange) := by rw [act, hm]
      have hrest := hr.tail
      rw [hwork] at hrest
      rw [returns, hwork]
      obtain hnext | hnext := h.work_unresolved hu
      · exact ih h.work hnext hrest
      · refine ⟨[], (s.work exchange).returns exchange ms, rfl, ?_⟩
        rw [returns_run]
        exact (SharedCall.run_answered _ _ _ hnext).imp And.right And.right
    | some o =>
      have ho : o.decides = false := by
        cases m with
        | work => cases hm
        | cancel => exact absurd hu hr.head
        | _ =>
          cases hm
          rfl
      -- A wait leaves the call unresolved, so that the others are as if nobody had waited.
      obtain ⟨hnext, hresult⟩ := wait_unresolved exchange hu m o hm ho
      obtain ⟨bounds, rest, hreturns, hrest⟩ := ih (h.act m) hnext hr.tail
      rw [returns, hreturns]
      obtain hnone | ⟨d, hd⟩ := hresult
      · rw [hnone]
        exact ⟨bounds, rest, rfl, hrest⟩
      · rw [hd]
        exact ⟨d :: bounds, rest, rfl, hrest⟩

theorem report_ne_timedOut (url : String) (result : Except String Bytes) (d : Duration) :
    Worker.report url result ≠ .error (.timedOut d) := by
  intro h
  cases result <;> cases h

/-- No call holds the end of a bound. -/
theorem Sound.take_ne_timedOut (h : Sound exchange url request s) (d : Duration) (c : Call) :
    s.worker.call.take? ≠ some (.error (.timedOut d), c) := by
  intro ht
  cases hc : s.worker.call with
  | answered result =>
    rw [hc] at ht
    cases ht
    exact report_ne_timedOut url (exchange url request) d (h.answer_eq _ hc).symm
  | _ =>
    rw [hc] at ht
    cases ht

/-- A wait times out at the end of its own bound only. -/
theorem Sound.timedOut (h : Sound exchange url request s) (m : Move) (d : Duration)
    (hr : (s.act exchange m).1 = some (.returned (.error (.timedOut d)))) :
    ∃ n, m = .wake n true ∧ s.waiters[n]? = some ⟨some d, none⟩ := by
  cases hm : m.operation? with
  | none =>
    rw [Submission.act, hm] at hr
    cases hr
  | some o =>
    rw [act_operation exchange s m o hm] at hr
    have hreturned : (s.shared.act o).1 = .returned (.error (.timedOut d)) := Option.some.inj hr
    have ho : o.decides = false := by
      cases o <;> first | rfl | cases hreturned
    obtain ⟨result, hresult, ht⟩ | ⟨n, d', hw, hn, -, hd, -⟩ | ⟨hw, -⟩ :=
      s.shared.act_undecided o ho
    · rw [hreturned] at hresult
      cases hresult
      exact absurd ht (h.take_ne_timedOut d _)
    · rw [hreturned] at hd
      cases hd
      refine ⟨n, ?_, hn⟩
      cases m <;> cases hm <;> cases hw
      rfl
    · rw [hreturned] at hw
      cases hw

/-! ### Progress -/

/-- How many steps a worker that makes the exchange has behind it. -/
def steps : WorkerStage → Nat
  | .ready => 0
  | .started => 1
  | .exchanged _ => 2
  | .finished => 3

theorem steps_work (exchange : Exchange) (s : Submission) :
    min 3 (steps s.worker.stage + 1) ≤ steps (s.work exchange).worker.stage := by
  obtain ⟨⟨url, request, stage, call⟩, waiters, journal⟩ := s
  cases stage with
  | ready =>
    cases call with
    | cancelled => exact (by decide : 1 ≤ 3)
    | _ => exact Nat.le_refl 1
  | started | exchanged result | finished => exact Nat.le_refl _

theorem steps_run (exchange : Exchange) (s : Submission) (ms : List Move) :
    min 3 (steps s.worker.stage + ms.count .work) ≤
      steps (s.run exchange ms).worker.stage := by
  induction ms generalizing s with
  | nil => exact Nat.min_le_right 3 _
  | cons m ms ih =>
    have hrest := ih (s.act exchange m).2
    rw [run_cons]
    cases m with
    | work =>
      have hfirst := steps_work exchange s
      rw [List.count_cons_self]
      have hact : (s.act exchange .work).2 = s.work exchange := rfl
      rw [hact] at hrest ⊢
      omega
    | _ =>
      rw [List.count_cons_of_ne (by simp)]
      exact hrest

theorem uncancelled_work (hc : s.worker.call ≠ .cancelled) :
    (s.work exchange).worker.call ≠ .cancelled := by
  obtain ⟨⟨url, request, stage, call⟩, waiters, journal⟩ := s
  cases stage with
  | exchanged result =>
    cases call with
    | cancelled => exact absurd rfl hc
    | _ =>
      intro h
      cases h
  | _ => exact hc

/-- None but a cancellation that is accepted cancels a submission. -/
theorem uncancelled_run (hc : s.worker.call ≠ .cancelled) (ms : List Move)
    (hr : s.Refuses exchange ms) : (s.run exchange ms).worker.call ≠ .cancelled := by
  induction ms generalizing s with
  | nil => exact hc
  | cons m ms ih =>
    rw [run_cons]
    refine ih ?_ hr.tail
    cases hm : m.operation? with
    | none =>
      rw [act, hm]
      exact uncancelled_work hc
    | some o =>
      rw [act_operation exchange s m o hm]
      intro hcancelled
      have hhandled := s.handled m o hm
      rw [show (s.shared.act o).2.call = .cancelled from hcancelled] at hhandled
      generalize hcall : s.worker.call = c at hhandled
      cases hhandled with
      | kept => exact hc hcall
      | cancelled => exact hr.head hcall

/-- A worker that has made all its steps leaves a resolved call. -/
theorem Sound.resolved (h : Sound exchange url request s) (hs : 3 ≤ steps s.worker.stage) :
    s.worker.call.isResolved = true := by
  cases h with
  | before stage call waiters hstage hc => obtain rfl | rfl := hstage <;> simp [steps] at hs
  | skipped => rfl
  | exchanged => simp [steps] at hs
  | finished call waiters hc ha => exact hc

theorem Sound.exchange_made (h : Sound exchange url request s)
    (hs : 2 ≤ steps s.worker.stage) (hc : s.worker.call ≠ .cancelled) :
    s.journal = [(url, request)] := by
  cases h with
  | before stage call waiters hstage => obtain rfl | rfl := hstage <;> simp [steps] at hs
  | skipped => exact absurd rfl hc
  | exchanged => rfl
  | finished => rfl

/-! ### From the submission on -/

theorem submit_worker (t : WorkerTransport) (url : String) (request : Bytes) :
    (t.submit url request).1.workers[(t.submit url request).2]? =
      some { url := url, request := request } :=
  List.getElem?_concat_length

/-- However the steps of the worker of a submission and what is done by its handle follow each
other, the exchange is made at most once and for what was submitted. If a cancellation is accepted,
all waits that return from then on are cancelled, and if it was accepted before the worker looked
the exchange is not made at all. If none is accepted, the waits time out until one of them has what
the exchange gave, and those after it find it taken. A worker that is let to make its steps makes
the exchange, and leaves nobody waiting. -/
theorem one_exchange_one_answer (t : WorkerTransport) (url : String) (request : Bytes) (w : Worker)
    (hw : (t.submit url request).1.workers[(t.submit url request).2]? = some w)
    (exchange : Exchange) (ms : List Move) (s u : Submission) (hs : s = ⟨w, [], []⟩)
    (hu : s.run exchange ms = u) :
    (u.journal = [] ∨ u.journal = [(url, request)]) ∧
    (∀ before after, ms = before ++ .cancel :: after →
      ((s.run exchange before).act exchange .cancel).1 = some (.accepted true) →
      (.work ∉ before → u.journal = []) ∧
      (∀ result ∈ ((s.run exchange before).act exchange .cancel).2.returns exchange after,
        result = .error .cancelled) ∧
      (∀ bound, (u.act exchange (.wait bound)).1 = some (.returned (.error .cancelled))) ∧
      ∀ n late bound, u.waiters[n]? = some ⟨bound, none⟩ →
        (u.act exchange (.wake n late)).1 = some (.returned (.error .cancelled))) ∧
    (s.Refuses exchange ms →
      (∃ (bounds : List Duration) (rest : List (Except ClientError Bytes)),
        s.returns exchange ms = (bounds.map fun d => .error (.timedOut d)) ++ rest ∧
        (rest = [] ∨ ∃ k, rest =
          ((exchange url request).mapError fun cause =>
            .transport ("exchange with " ++ url ++ " failed") (some cause)) ::
          List.replicate k SharedCall.takenBefore)) ∧
      (2 ≤ ms.count .work → u.journal = [(url, request)])) ∧
    (∀ before m after d, ms = before ++ m :: after →
      ((s.run exchange before).act exchange m).1 = some (.returned (.error (.timedOut d))) →
      ∃ n, m = .wake n true ∧ (s.run exchange before).waiters[n]? = some ⟨some d, none⟩) ∧
    (3 ≤ ms.count .work →
      (∀ bound, ∃ result, (u.act exchange (.wait bound)).1 = some (.returned result)) ∧
      ∀ n late bound, u.waiters[n]? = some ⟨bound, none⟩ →
        ∃ result, (u.act exchange (.wake n late)).1 = some (.returned result)) := by
  rw [submit_worker] at hw
  obtain rfl : { url := url, request := request } = w := Option.some.inj hw
  have hready : s.worker.stage = .ready := by rw [hs]
  have hcall : s.worker.call = .unresolved := by rw [hs]
  have hstart : Sound exchange url request s := by
    rw [hs]
    exact .before .ready .unresolved [] (.inl rfl) (.inl rfl)
  have hend : Sound exchange url request u := by
    rw [← hu]
    exact hstart.run ms
  have hsteps : min 3 (0 + ms.count .work) ≤ steps u.worker.stage := by
    rw [← hu, ← show steps s.worker.stage = 0 by rw [hready]; rfl]
    exact steps_run exchange s ms
  refine ⟨hend.journal_eq, ?_, ?_, ?_, ?_⟩
  · intro before after hms hc
    have hu' : ((s.run exchange before).act exchange .cancel).2.run exchange after = u := by
      rw [← hu, hms, run_append, run_cons]
    have hcancelled :
        ((s.run exchange before).act exchange .cancel).2.worker.call = .cancelled := by
      rw [cancel_accepted hc]
    obtain ⟨hcall, hreturns⟩ := run_cancelled exchange hcancelled after
    rw [hu'] at hcall
    obtain ⟨hwait, hwake⟩ := waits_cancelled exchange hcall
    refine ⟨?_, hreturns, hwait, hwake⟩
    intro hm
    rw [← hu, hms]
    exact no_exchange hstart hready before after hm hc
  · intro hr
    refine ⟨returns_refused hstart hcall ms hr, ?_⟩
    intro hcount
    have huncancelled : u.worker.call ≠ .cancelled := by
      rw [← hu]
      refine uncancelled_run ?_ ms hr
      rw [hcall]
      intro h
      cases h
    exact hend.exchange_made (by omega) huncancelled
  · intro before m after d _ hd
    exact (hstart.run before).timedOut m d hd
  · intro hcount
    exact u.waits_return exchange (hend.resolved (by omega))

/-- One wait times out, one begins before the answer and one after it; a cancellation is late. -/
def patient : List Move :=
  [.wait (some ⟨0⟩), .wait none, .work, .wake 0 true, .work, .work, .cancel, .wake 1 false,
    .wait none]

/-- Somebody waits, and somebody else cancels before the worker looks. -/
def hasty : List Move := [.wait none, .cancel, .work, .work, .wake 0 false]

def refusing : Exchange := fun _ _ => .error "refused"

def unstarted : Submission := { worker := { url := "u", request := [7] } }

/-- The failure of the exchange reaches one wait, with its cause; a submission cancelled at once is
not exchanged. -/
theorem failure_reaches_one_wait :
    unstarted.Refuses refusing patient ∧
    (unstarted.run refusing patient).journal = [("u", [7])] ∧
    unstarted.returns refusing patient =
      [.error (.timedOut ⟨0⟩), .error (.transport "exchange with u failed" (some "refused")),
        SharedCall.takenBefore] ∧
    (unstarted.run refusing hasty).journal = [] ∧
    unstarted.returns refusing hasty = [.error .cancelled] := by
  have hw : ((WorkerTransport.mk []).submit "u" [7]).1.workers[
      ((WorkerTransport.mk []).submit "u" [7]).2]? = some unstarted.worker := rfl
  have hrefuses : unstarted.Refuses refusing patient := by
    simp only [patient, refuses_cons, refuses_nil, reduceCtorEq, false_implies, true_implies,
      true_and, and_true]
    rfl
  obtain ⟨-, -, hpatient, -⟩ :=
    one_exchange_one_answer ⟨[]⟩ "u" [7] _ hw refusing patient unstarted _ rfl rfl
  obtain ⟨-, hhasty, -⟩ :=
    one_exchange_one_answer ⟨[]⟩ "u" [7] _ hw refusing hasty unstarted _ rfl rfl
  refine ⟨hrefuses, (hpatient hrefuses).2 (by decide), rfl, ?_, rfl⟩
  exact (hhasty [.wait none] [.work, .work, .wake 0 false] rfl rfl).1 (by decide)

end Submission

end OlapClient
