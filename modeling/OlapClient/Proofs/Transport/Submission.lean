import OlapClient.Proofs.Transport.SharedCall
import OlapClient.Transport.Worker

/-!
# A submission in motion

The worker of a submission looks at the call, makes the exchange and answers, each step at a time of
its own; in between, those who hold the handle cancel and wait as they like. The exchange keeps a
journal, so that it can be said how often it was made and with what.
-/

namespace OlapClient

/-- An exchange that writes down every call made of it. -/
def Exchange.journaled (exchange : Exchange) (url : String) (request : Bytes) :
    StateM (List (String × Bytes)) (Except String Bytes) := do
  modify fun journal => journal ++ [(url, request)]
  return exchange url request

/-- A submission: its worker and the call they share, all who have waited by the handle, and the
exchanges made for it. -/
structure Submission where
  worker : Worker
  waiters : List Waiter := []
  journal : List (String × Bytes) := []

namespace Submission

/-- What happens to a submission without interruption. -/
inductive Move where
  /-- The worker makes its next step. -/
  | work
  | cancel
  | wait (bound : Option Duration)
  /-- The waiter of a number looks again; `late` if its bound has passed. -/
  | wake (n : Nat) (late : Bool)
  deriving DecidableEq

/-- What is done by the handle; the worker does not use it. -/
def Move.operation? : Move → Option SharedCall.Operation
  | work => none
  | cancel => some .cancel
  | wait bound => some (.wait bound)
  | wake n late => some (.wake n late)

variable (exchange : Exchange) (s : Submission)

/-- The call with those who wait for it. -/
def shared : SharedCall := ⟨s.worker.call, s.waiters⟩

/-- The submission with its call in another state. -/
def withShared (c : SharedCall) : Submission :=
  { s with worker := { s.worker with call := c.call }, waiters := c.waiters }

/-- The worker makes its next step, and the journal goes on with it. -/
def work : Submission :=
  { s with
    worker := ((s.worker.stepIn exchange.journaled).run s.journal).1
    journal := ((s.worker.stepIn exchange.journaled).run s.journal).2 }

/-- A move, and what those who hold the handle see of it. -/
def act (m : Move) : Option SharedCall.Outcome × Submission :=
  match m.operation? with
  | some o => (some (s.shared.act o).1, s.withShared (s.shared.act o).2)
  | none => (none, s.work exchange)

/-- The submission after a sequence of moves. -/
def run (ms : List Move) : Submission := ms.foldl (fun s m => (s.act exchange m).2) s

/-- What the waits return in the course of a sequence of moves, in this order. -/
def returns (s : Submission) : List Move → List (Except ClientError Bytes)
  | [] => []
  | m :: ms =>
    ((s.act exchange m).1.bind SharedCall.Outcome.result?).toList ++
      (s.act exchange m).2.returns ms

/-- Every cancellation among the moves comes too late. -/
def Refuses (ms : List Move) : Prop :=
  ∀ before after, ms = before ++ .cancel :: after →
    ((s.run exchange before).act exchange .cancel).1 = some (.accepted false)

/-! ### What a move does to the call -/

/-- What a move does to the call: the worker answers it when the exchange is made. -/
def effect : Move → List SharedCall.Operation
  | .work =>
    match s.worker.stage with
    | .exchanged result => [.complete result]
    | _ => []
  | m => m.operation?.toList

/-- What a sequence of moves does to the call. -/
def effects (s : Submission) : List Move → List SharedCall.Operation
  | [] => []
  | m :: ms => s.effect m ++ (s.act exchange m).2.effects ms

theorem act_effect (m : Move) :
    (s.act exchange m).2.shared = s.shared.run (s.effect m) ∧
    ((s.act exchange m).1.bind SharedCall.Outcome.result?).toList =
      s.shared.returns (s.effect m) := by
  cases m with
  | work =>
    obtain ⟨⟨url, request, stage, call⟩, waiters, journal⟩ := s
    cases stage <;> exact ⟨rfl, rfl⟩
  | cancel => exact ⟨rfl, rfl⟩
  | wait bound => exact ⟨rfl, (List.append_nil _).symm⟩
  | wake n late => exact ⟨rfl, (List.append_nil _).symm⟩

theorem act_operation (m : Move) (o : SharedCall.Operation) (ho : m.operation? = some o) :
    s.act exchange m = (some (s.shared.act o).1, s.withShared (s.shared.act o).2) := by
  rw [act, ho]

/-- Who waits for a resolved call has the wait over at the next look. -/
theorem waits_return (hr : s.worker.call.isResolved = true) :
    (∀ bound, ∃ result, (s.act exchange (.wait bound)).1 = some (.returned result)) ∧
    ∀ n late bound, s.waiters[n]? = some ⟨bound, none⟩ →
      ∃ result, (s.act exchange (.wake n late)).1 = some (.returned result) := by
  obtain ⟨hwait, hwake⟩ := s.shared.act_returns hr
  refine ⟨?_, ?_⟩
  · intro bound
    obtain ⟨result, h⟩ := hwait bound
    exact ⟨result, congrArg some h⟩
  · intro n late bound hw
    obtain ⟨result, h⟩ := hwake n late bound hw
    exact ⟨result, congrArg some h⟩

theorem run_cons (m : Move) (ms : List Move) :
    s.run exchange (m :: ms) = (s.act exchange m).2.run exchange ms := rfl

theorem run_append (ms ms' : List Move) :
    s.run exchange (ms ++ ms') = (s.run exchange ms).run exchange ms' := List.foldl_append

theorem shared_run (ms : List Move) :
    (s.run exchange ms).shared = s.shared.run (s.effects exchange ms) := by
  induction ms generalizing s with
  | nil => rfl
  | cons m ms ih =>
    rw [run_cons, ih, (s.act_effect exchange m).1, effects]
    exact List.foldl_append.symm

theorem returns_run (ms : List Move) :
    s.returns exchange ms = s.shared.returns (s.effects exchange ms) := by
  induction ms generalizing s with
  | nil => rfl
  | cons m ms ih =>
    obtain ⟨hs, hr⟩ := s.act_effect exchange m
    rw [returns, ih, hs, hr, effects, SharedCall.returns_append]

/-- Who waits while nobody else moves looks once at the beginning and once when the bound has
passed. -/
theorem wait_alone (bound : Option Duration) (result : Except ClientError Bytes) (w : Worker)
    (h : s.worker.wait bound = some (result, w)) :
    (s.run exchange [.wait bound, .wake s.waiters.length true]).worker = w ∧
    s.returns exchange [.wait bound, .wake s.waiters.length true] = [result] := by
  obtain ⟨⟨result', call⟩, ht, hw⟩ := Option.map_eq_some_iff.mp h
  cases hw
  obtain ⟨hrun, hreturns⟩ := s.shared.wait_alone bound result call ht
  refine ⟨?_, ?_⟩
  · rw [← hrun]
    rfl
  · rw [returns_run]
    exact hreturns

/-! ### What is true of every submission -/

theorem taken_call (c c' : Call) (result : Except ClientError Bytes)
    (h : c.take? = some (result, c')) : c' = c ∨ c = .answered result ∧ c' = .consumed := by
  cases c with
  | unresolved => cases h
  | answered answer =>
    cases h
    exact .inr ⟨rfl, rfl⟩
  | _ =>
    cases h
    exact .inl rfl

/-- What is done by the handle leaves the call as it is, cancels it while it is unresolved, or takes
the answer. -/
inductive Handled : Move → Call → Call → Prop where
  | kept (m : Move) (c : Call) : Handled m c c
  | cancelled : Handled .cancel .unresolved .cancelled
  | taken (m : Move) (result : Except ClientError Bytes) :
      Handled m (.answered result) .consumed

theorem handled (m : Move) (o : SharedCall.Operation) (ho : m.operation? = some o) :
    Handled m s.worker.call (s.shared.act o).2.call := by
  cases hd : o.decides with
  | true =>
    cases m with
    | cancel =>
      cases ho
      obtain ⟨⟨url, request, stage, call⟩, waiters, journal⟩ := s
      cases call with
      | unresolved => exact .cancelled
      | _ => exact .kept _ _
    | work => cases ho
    | _ =>
      cases ho
      cases hd
  | false =>
    obtain ⟨result, -, ht⟩ | ⟨-, -, -, -, -, -, hc⟩ | ⟨-, hc⟩ := s.shared.act_undecided o hd
    · obtain hc | ⟨ha, hc⟩ := taken_call _ _ _ ht
      · rw [hc]
        exact .kept _ _
      · rw [hc, show s.worker.call = .answered result from ha]
        exact .taken m result
    · rw [hc]
      exact .kept _ _
    · rw [hc]
      exact .kept _ _

/-- How far a worker has come with what was submitted: it makes the exchange once, unless it finds
the call cancelled, and what it answers is what the exchange gave. -/
inductive Sound (url : String) (request : Bytes) : Submission → Prop where
  | before (stage : WorkerStage) (call : Call) (waiters : List Waiter)
      (hs : stage = .ready ∨ stage = .started) (hc : call = .unresolved ∨ call = .cancelled) :
      Sound url request ⟨⟨url, request, stage, call⟩, waiters, []⟩
  | skipped (waiters : List Waiter) :
      Sound url request ⟨⟨url, request, .finished, .cancelled⟩, waiters, []⟩
  | exchanged (call : Call) (waiters : List Waiter) (hc : call = .unresolved ∨ call = .cancelled) :
      Sound url request
        ⟨⟨url, request, .exchanged (Worker.report url (exchange url request)), call⟩,
          waiters, [(url, request)]⟩
  | finished (call : Call) (waiters : List Waiter) (hc : call.isResolved = true)
      (ha : ∀ result, call = .answered result →
        result = Worker.report url (exchange url request)) :
      Sound url request ⟨⟨url, request, .finished, call⟩, waiters, [(url, request)]⟩

variable {exchange s} {url : String} {request : Bytes}

theorem Handled.unanswered {m : Move} {c c' : Call} (h : Handled m c c')
    (hc : c = .unresolved ∨ c = .cancelled) : c' = .unresolved ∨ c' = .cancelled := by
  cases h with
  | kept => exact hc
  | cancelled => exact .inr rfl
  | taken result => obtain h | h := hc <;> cases h

theorem Sound.withShared (h : Sound exchange url request s) (c : SharedCall) (m : Move)
    (hc : Handled m s.worker.call c.call) : Sound exchange url request (s.withShared c) := by
  cases h with
  | before stage call waiters hs hopen => exact .before stage c.call _ hs (hc.unanswered hopen)
  | skipped waiters =>
    obtain ⟨call, waiters'⟩ := c
    cases hc
    exact .skipped waiters'
  | exchanged call waiters hopen => exact .exchanged c.call _ (hc.unanswered hopen)
  | finished call waiters hr ha =>
    obtain ⟨call', waiters'⟩ := c
    cases hc with
    | kept => exact .finished call waiters' hr ha
    | cancelled => cases hr
    | taken result =>
      refine .finished .consumed waiters' rfl ?_
      intro result' h
      cases h

theorem Sound.work (h : Sound exchange url request s) :
    Sound exchange url request (s.work exchange) := by
  cases h with
  | before stage call waiters hs hc =>
    obtain rfl | rfl := hs
    · obtain rfl | rfl := hc
      · exact .before .started .unresolved waiters (.inr rfl) (.inl rfl)
      · exact .skipped waiters
    · exact .exchanged call waiters hc
  | skipped waiters => exact .skipped waiters
  | exchanged call waiters hc =>
    obtain rfl | rfl := hc
    · refine .finished (.answered _) waiters rfl ?_
      intro result h
      cases h
      rfl
    · refine .finished .cancelled waiters rfl ?_
      intro result h
      cases h
  | finished call waiters hr ha => exact .finished call waiters hr ha

theorem Sound.act (h : Sound exchange url request s) (m : Move) :
    Sound exchange url request (s.act exchange m).2 := by
  cases ho : m.operation? with
  | none =>
    rw [Submission.act, ho]
    exact h.work
  | some o =>
    rw [act_operation exchange s m o ho]
    exact h.withShared _ m (s.handled m o ho)

theorem Sound.run (h : Sound exchange url request s) (ms : List Move) :
    Sound exchange url request (s.run exchange ms) := by
  induction ms generalizing s with
  | nil => exact h
  | cons m ms ih => exact ih (h.act m)

theorem Sound.journal_eq (h : Sound exchange url request s) :
    s.journal = [] ∨ s.journal = [(url, request)] := by
  cases h with
  | before | skipped => exact .inl rfl
  | exchanged | finished => exact .inr rfl

theorem Sound.answer_eq (h : Sound exchange url request s) (result : Except ClientError Bytes)
    (hr : s.worker.call = .answered result) :
    result = Worker.report url (exchange url request) := by
  cases h with
  | before stage call waiters hs hc | exchanged call waiters hc =>
    obtain rfl | rfl := hc <;> cases hr
  | skipped => cases hr
  | finished call waiters hc ha => exact ha result hr

end Submission

end OlapClient
