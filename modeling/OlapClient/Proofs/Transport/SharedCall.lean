import OlapClient.Transport.Call

/-!
# A call in many hands

Any number of parties answer a call, cancel it and wait for it. Each of them takes the lock of the
call before it does anything, so that what happens is a sequence of operations, in any order. A wait
is several of them: it begins with a look at the call, and as long as the call is unresolved it
looks again whenever it is woken, be it by the resolution, by the end of its bound or for no reason
at all.
-/

namespace OlapClient

/-- One who has begun to wait for a call, and what the wait has returned if it is over. -/
structure Waiter where
  bound : Option Duration
  result? : Option (Except ClientError Bytes)

/-- A call and all who have waited for it, in the order in which they began. -/
structure SharedCall where
  call : Call := .unresolved
  waiters : List Waiter := []

namespace SharedCall

/-- What somebody does to a call without interruption. -/
inductive Operation where
  | complete (result : Except ClientError Bytes)
  | cancel
  | wait (bound : Option Duration)
  /-- The waiter of a number looks again; `late` if its bound has passed. -/
  | wake (n : Nat) (late : Bool)

/-- What comes of it. -/
inductive Outcome where
  /-- An answer or a cancellation was accepted, or not. -/
  | accepted (won : Bool)
  /-- A wait is over. -/
  | returned (result : Except ClientError Bytes)
  | waiting

/-- Answers and cancellations. -/
def Operation.decides : Operation → Bool
  | complete _ | cancel => true
  | wait _ | wake _ _ => false

def Outcome.result? : Outcome → Option (Except ClientError Bytes)
  | returned result => some result
  | accepted _ | waiting => none

/-- The waiter of a number looks at the call; one whose wait is over does not look any more. -/
def look (s : SharedCall) (n : Nat) (late : Bool) : Outcome × SharedCall :=
  match s.waiters[n]? with
  | some ⟨bound, none⟩ =>
    match (if late then s.call.wait bound else s.call.take?) with
    | some (result, call) => (.returned result, ⟨call, s.waiters.set n ⟨bound, some result⟩⟩)
    | none => (.waiting, s)
  | _ => (.waiting, s)

def act (s : SharedCall) : Operation → Outcome × SharedCall
  | .complete result =>
    (.accepted (s.call.complete result).2, { s with call := (s.call.complete result).1 })
  | .cancel => (.accepted s.call.cancel.2, { s with call := s.call.cancel.1 })
  | .wait bound => look ⟨s.call, s.waiters ++ [⟨bound, none⟩]⟩ s.waiters.length false
  | .wake n late => s.look n late

/-- The call after a sequence of operations. -/
def run (s : SharedCall) (os : List Operation) : SharedCall := os.foldl (fun s o => (s.act o).2) s

/-- What the waits return in the course of a sequence of operations, in this order. -/
def returns (s : SharedCall) : List Operation → List (Except ClientError Bytes)
  | [] => []
  | o :: os => (s.act o).1.result?.toList ++ (s.act o).2.returns os

/-! ### One operation -/

variable (s : SharedCall)

theorem take_eq_none (c : Call) : c.take? = none ↔ c.isResolved = false := by
  cases c <;> simp [Call.take?, Call.isResolved]

theorem look_ends (n : Nat) (late : Bool) (bound : Option Duration)
    (result : Except ClientError Bytes) (call : Call)
    (hw : s.waiters[n]? = some ⟨bound, none⟩)
    (ht : (if late then s.call.wait bound else s.call.take?) = some (result, call)) :
    s.look n late = (.returned result, ⟨call, s.waiters.set n ⟨bound, some result⟩⟩) := by
  simp [look, hw, ht]

theorem look_goes_on (n : Nat) (late : Bool) (bound : Option Duration)
    (hw : s.waiters[n]? = some ⟨bound, none⟩)
    (ht : (if late then s.call.wait bound else s.call.take?) = none) :
    s.look n late = (.waiting, s) := by
  simp [look, hw, ht]

/-- Whoever waits for a resolved call has its wait over at the next look. -/
theorem look_resolved (n : Nat) (late : Bool) (bound : Option Duration)
    (hw : s.waiters[n]? = some ⟨bound, none⟩) (hr : s.call.isResolved = true) :
    ∃ result call, s.call.take? = some (result, call) ∧
      s.look n late = (.returned result, ⟨call, s.waiters.set n ⟨bound, some result⟩⟩) := by
  cases ht : s.call.take? with
  | none =>
    rw [take_eq_none, hr] at ht
    cases ht
  | some taken =>
    have hl : (if late then s.call.wait bound else s.call.take?) = some taken := by
      cases late <;> simp [Call.wait, ht]
    exact ⟨taken.1, taken.2, rfl, s.look_ends n late bound _ _ hw hl⟩

/-- A look takes what the call has, times out, or leaves everything as it is. -/
theorem look_cases (n : Nat) (late : Bool) :
    (∃ result, (s.look n late).1 = .returned result ∧
      s.call.take? = some (result, (s.look n late).2.call)) ∨
    (∃ d, late = true ∧ s.waiters[n]? = some ⟨some d, none⟩ ∧ s.call.isResolved = false ∧
      (s.look n late).1 = .returned (.error (.timedOut d)) ∧
      (s.look n late).2.call = s.call) ∨
    (s.look n late).1 = .waiting ∧ (s.look n late).2.call = s.call := by
  rcases hw : s.waiters[n]? with - | ⟨bound, - | done⟩
  · right; right
    simp [look, hw]
  · cases hr : s.call.isResolved with
    | true =>
      obtain ⟨result, call, ht, hl⟩ := s.look_resolved n late bound hw hr
      left
      rw [hl]
      exact ⟨result, rfl, ht⟩
    | false =>
      have ht : s.call.take? = none := (take_eq_none s.call).mpr hr
      right
      cases late with
      | false =>
        right
        rw [s.look_goes_on n false bound hw ht]
        exact ⟨rfl, rfl⟩
      | true =>
        cases bound with
        | none =>
          right
          have hl : s.call.wait none = none := by simp [Call.wait, ht]
          rw [s.look_goes_on n true none hw hl]
          exact ⟨rfl, rfl⟩
        | some d =>
          left
          have hl : s.call.wait (some d) = some (.error (.timedOut d), s.call) := by
            simp [Call.wait, ht]
          rw [s.look_ends n true (some d) _ _ hw hl]
          exact ⟨d, rfl, rfl, rfl, rfl, rfl⟩
  · right; right
    simp [look, hw]

theorem act_decided (o : Operation) (ho : o.decides = true) (hr : s.call.isResolved = true) :
    s.act o = (.accepted false, s) := by
  obtain ⟨call, waiters⟩ := s
  cases call with
  | unresolved => cases hr
  | _ =>
    cases o with
    | complete result => rfl
    | cancel => rfl
    | _ => cases ho

/-- What decides nothing takes what the call has, times out, or leaves the call as it is. -/
theorem act_undecided (o : Operation) (ho : o.decides = false) :
    (∃ result, (s.act o).1 = .returned result ∧
      s.call.take? = some (result, (s.act o).2.call)) ∨
    (∃ n d, o = .wake n true ∧ s.waiters[n]? = some ⟨some d, none⟩ ∧
      s.call.isResolved = false ∧ (s.act o).1 = .returned (.error (.timedOut d)) ∧
      (s.act o).2.call = s.call) ∨
    (s.act o).1 = .waiting ∧ (s.act o).2.call = s.call := by
  cases o with
  | complete result => cases ho
  | cancel => cases ho
  | wait bound =>
    obtain h | ⟨d, hlate, -⟩ | h :=
      look_cases ⟨s.call, s.waiters ++ [⟨bound, none⟩]⟩ s.waiters.length false
    · exact .inl h
    · cases hlate
    · exact .inr (.inr h)
  | wake n late =>
    obtain h | ⟨d, rfl, h⟩ | h := s.look_cases n late
    · exact .inl h
    · exact .inr (.inl ⟨n, d, rfl, h⟩)
    · exact .inr (.inr h)

/-- One who waits while nobody else does anything looks at the beginning and when the bound has
passed. -/
theorem wait_alone (bound : Option Duration) (result : Except ClientError Bytes) (call : Call)
    (h : s.call.wait bound = some (result, call)) :
    (s.run [.wait bound, .wake s.waiters.length true]).call = call ∧
    s.returns [.wait bound, .wake s.waiters.length true] = [result] := by
  have hw : (s.waiters ++ [⟨bound, none⟩])[s.waiters.length]? = some ⟨bound, none⟩ :=
    List.getElem?_concat_length
  have hrun : s.run [.wait bound, .wake s.waiters.length true] =
      ((s.act (.wait bound)).2.look s.waiters.length true).2 := rfl
  have hreturns : s.returns [.wait bound, .wake s.waiters.length true] =
      (s.act (.wait bound)).1.result?.toList ++
        (((s.act (.wait bound)).2.look s.waiters.length true).1.result?.toList ++ []) := rfl
  rw [hrun, hreturns]
  cases ht : s.call.take? with
  | some taken =>
    have hfirst := look_ends ⟨s.call, s.waiters ++ [⟨bound, none⟩]⟩ s.waiters.length false bound
      taken.1 taken.2 hw ht
    have htaken : some taken = some (result, call) := by
      rw [← h, Call.wait, ht]
    cases htaken
    rw [act, hfirst]
    simp [look, Outcome.result?]
  | none =>
    have hfirst := look_goes_on ⟨s.call, s.waiters ++ [⟨bound, none⟩]⟩ s.waiters.length false bound
      hw ht
    have hlate := look_ends ⟨s.call, s.waiters ++ [⟨bound, none⟩]⟩ s.waiters.length true bound
      result call hw h
    rw [act, hfirst, hlate]
    exact ⟨rfl, rfl⟩

/-! ### Before the decision -/

theorem unresolved_after (o : Operation) (ho : o.decides = false)
    (hs : s.call.isResolved = false) : (s.act o).2.call.isResolved = false := by
  obtain ⟨result, -, ht⟩ | ⟨n, d, -, -, -, -, hc⟩ | ⟨-, hc⟩ := s.act_undecided o ho
  · rw [(take_eq_none s.call).mpr hs] at ht
    cases ht
  · rw [hc, hs]
  · rw [hc, hs]

theorem unresolved_run (os : List Operation) (ho : ∀ o ∈ os, o.decides = false)
    (hs : s.call.isResolved = false) : (s.run os).call.isResolved = false := by
  induction os generalizing s with
  | nil => exact hs
  | cons o os ih =>
    have hos : ∀ o' ∈ os, o'.decides = false := fun o' h => ho o' (List.mem_cons_of_mem _ h)
    have hnext := s.unresolved_after o (ho o List.mem_cons_self) hs
    exact ih (s.act o).2 hos hnext

/-- Nothing but the end of its own bound ends a wait for an unresolved call. -/
theorem timedOut_of_unresolved (hs : s.call.isResolved = false) (o : Operation)
    (result : Except ClientError Bytes) (hr : (s.act o).1 = .returned result) :
    ∃ n d, o = .wake n true ∧ s.waiters[n]? = some ⟨some d, none⟩ ∧
      result = .error (.timedOut d) ∧ (s.act o).2.call.isResolved = false := by
  have ho : o.decides = false := by
    cases o <;> first | rfl | cases hr
  obtain ⟨result', -, ht⟩ | ⟨n, d, hw, hn, -, hd, hc⟩ | ⟨hwait, -⟩ := s.act_undecided o ho
  · rw [(take_eq_none s.call).mpr hs] at ht
    cases ht
  · rw [hd] at hr
    cases hr
    exact ⟨n, d, hw, hn, rfl, by rw [hc, hs]⟩
  · rw [hwait] at hr
    cases hr

/-! ### After the decision -/

/-- What a wait reports whose answer was taken before. -/
def takenBefore : Except ClientError Bytes :=
  .error (.transport "response already consumed" none)

theorem returns_cons (o : Operation) (os : List Operation) :
    s.returns (o :: os) = (s.act o).1.result?.toList ++ (s.act o).2.returns os := rfl

theorem run_cons (o : Operation) (os : List Operation) :
    s.run (o :: os) = (s.act o).2.run os := rfl

theorem returns_append (os os' : List Operation) :
    s.returns (os ++ os') = s.returns os ++ (s.run os).returns os' := by
  induction os generalizing s with
  | nil => rfl
  | cons o os ih =>
    rw [List.cons_append, returns_cons, ih, returns_cons, run_cons, List.append_assoc]

/-- A resolved call changes only by having its answer taken. -/
theorem act_resolved (o : Operation) (hs : s.call.isResolved = true) :
    ((s.act o).1.result? = none ∧ (s.act o).2.call = s.call) ∨
    ∃ result, (s.act o).1.result? = some result ∧
      s.call.take? = some (result, (s.act o).2.call) := by
  cases ho : o.decides with
  | true =>
    left
    rw [s.act_decided o ho hs]
    exact ⟨rfl, rfl⟩
  | false =>
    obtain ⟨result, hr, ht⟩ | ⟨n, d, -, -, hu, -, -⟩ | ⟨hw, hc⟩ := s.act_undecided o ho
    · exact .inr ⟨result, by rw [hr]; rfl, ht⟩
    · rw [hs] at hu
      cases hu
    · exact .inl ⟨by rw [hw]; rfl, hc⟩

theorem run_cancelled (os : List Operation) (hs : s.call = .cancelled) :
    (s.run os).call = .cancelled ∧ ∀ result ∈ s.returns os, result = .error .cancelled := by
  induction os generalizing s with
  | nil => exact ⟨hs, fun result h => by cases h⟩
  | cons o os ih =>
    have hres : s.call.isResolved = true := by rw [hs]; rfl
    rw [run_cons, returns_cons]
    obtain ⟨hr, hc⟩ | ⟨result, hr, ht⟩ := s.act_resolved o hres
    · rw [hr]
      exact ih (s.act o).2 (hc.trans hs)
    · rw [hs] at ht
      obtain ⟨rfl, hc⟩ := Prod.mk.inj (Option.some.inj ht)
      obtain ⟨hrun, hall⟩ := ih (s.act o).2 hc.symm
      refine ⟨hrun, ?_⟩
      intro result hm
      rw [hr] at hm
      obtain rfl | hm := List.mem_cons.mp hm
      · rfl
      · exact hall result hm

theorem run_consumed (os : List Operation) (hs : s.call = .consumed) :
    (s.run os).call = .consumed ∧ ∃ k, s.returns os = List.replicate k takenBefore := by
  induction os generalizing s with
  | nil => exact ⟨hs, 0, rfl⟩
  | cons o os ih =>
    have hres : s.call.isResolved = true := by rw [hs]; rfl
    rw [run_cons, returns_cons]
    obtain ⟨hr, hc⟩ | ⟨result, hr, ht⟩ := s.act_resolved o hres
    · rw [hr]
      exact ih (s.act o).2 (hc.trans hs)
    · rw [hs] at ht
      obtain ⟨rfl, hc⟩ := Prod.mk.inj (Option.some.inj ht)
      obtain ⟨hrun, k, hk⟩ := ih (s.act o).2 hc.symm
      refine ⟨hrun, k + 1, ?_⟩
      rw [hr, hk]
      rfl

theorem run_answered (os : List Operation) (result : Except ClientError Bytes)
    (hs : s.call = .answered result) :
    ((s.run os).call = .answered result ∧ s.returns os = []) ∨
    ((s.run os).call = .consumed ∧
      ∃ k, s.returns os = result :: List.replicate k takenBefore) := by
  induction os generalizing s with
  | nil => exact .inl ⟨hs, rfl⟩
  | cons o os ih =>
    have hres : s.call.isResolved = true := by rw [hs]; rfl
    rw [run_cons, returns_cons]
    obtain ⟨hr, hc⟩ | ⟨result', hr, ht⟩ := s.act_resolved o hres
    · rw [hr]
      exact ih (s.act o).2 (hc.trans hs)
    · rw [hs] at ht
      obtain ⟨rfl, hc⟩ := Prod.mk.inj (Option.some.inj ht)
      obtain ⟨hrun, k, hk⟩ := run_consumed (s.act o).2 os hc.symm
      right
      refine ⟨hrun, k, ?_⟩
      rw [hr, hk]
      rfl

/-- A wait for a resolved call is over as soon as it looks. -/
theorem act_returns (hs : s.call.isResolved = true) :
    (∀ bound, ∃ result, (s.act (.wait bound)).1 = .returned result) ∧
    ∀ n late bound, s.waiters[n]? = some ⟨bound, none⟩ →
      ∃ result, (s.act (.wake n late)).1 = .returned result := by
  refine ⟨?_, ?_⟩
  · intro bound
    have hw : (s.waiters ++ [⟨bound, none⟩])[s.waiters.length]? = some ⟨bound, none⟩ :=
      List.getElem?_concat_length
    obtain ⟨result, call, -, hl⟩ :=
      look_resolved ⟨s.call, s.waiters ++ [⟨bound, none⟩]⟩ s.waiters.length false bound hw hs
    exact ⟨result, by rw [act, hl]⟩
  · intro n late bound hw
    obtain ⟨result, call, -, hl⟩ := s.look_resolved n late bound hw hs
    exact ⟨result, by rw [act, hl]⟩

/-- In every sequence of operations on a new call, the first answer or cancellation is accepted,
and no other. Until then a wait ends at its own bound only and leaves the call unresolved; from then
on the call stays resolved, no wait goes on, and the waits return as the decision has it: all are
cancelled, or the first has the answer and the others find it taken. -/
theorem first_decision_wins (before later : List Operation) (decision : Operation)
    (hb : ∀ o ∈ before, o.decides = false) (hd : decision.decides = true)
    (s t u : SharedCall) (hs : run {} before = s) (ht : (s.act decision).2 = t)
    (hu : t.run later = u) :
    s.call.isResolved = false ∧ s.call.isCancelled = false ∧
    (∀ o result, (s.act o).1 = .returned result →
      ∃ n d, o = .wake n true ∧ s.waiters[n]? = some ⟨some d, none⟩ ∧
        result = .error (.timedOut d) ∧ (s.act o).2.call.isResolved = false) ∧
    (s.act decision).1 = .accepted true ∧
    (∀ o, o.decides = true → u.act o = (.accepted false, u)) ∧
    u.call.isResolved = true ∧ (u.call.isCancelled = true ↔ decision = .cancel) ∧
    (∀ bound, ∃ result, (u.act (.wait bound)).1 = .returned result) ∧
    (∀ n late bound, u.waiters[n]? = some ⟨bound, none⟩ →
      ∃ result, (u.act (.wake n late)).1 = .returned result) ∧
    (decision = .cancel → ∀ result ∈ t.returns later, result = .error .cancelled) ∧
    ∀ result, decision = .complete result → t.returns later = [] ∨
      ∃ k, t.returns later = result :: List.replicate k takenBefore := by
  have hun : s.call.isResolved = false := by
    rw [← hs]
    exact unresolved_run {} before hb rfl
  have hcall : s.call = .unresolved := by
    cases hc : s.call <;> first | rfl | rw [hc] at hun; cases hun
  have hnot : s.call.isCancelled = false := by
    rw [hcall]
    rfl
  refine ⟨hun, hnot, s.timedOut_of_unresolved hun, ?_⟩
  -- The two decisions lead to the two ends that the lemmas on runs describe.
  cases decision with
  | complete answer =>
    have hwon : (s.act (.complete answer)).1 = .accepted true := by
      rw [act, hcall]
      rfl
    have hanswered : t.call = .answered answer := by
      rw [← ht, act, hcall]
      rfl
    have hrun := t.run_answered later answer hanswered
    rw [hu] at hrun
    have hend : u.call.isResolved = true ∧ u.call.isCancelled = false := by
      obtain ⟨h, -⟩ | ⟨h, -⟩ := hrun
      · rw [h]
        exact ⟨rfl, rfl⟩
      · rw [h]
        exact ⟨rfl, rfl⟩
    have hreturns := u.act_returns hend.1
    refine ⟨hwon, fun o ho => u.act_decided o ho hend.1, hend.1, ?_, hreturns.1, hreturns.2, ?_, ?_⟩
    · simp [hend.2]
    · intro h
      cases h
    · intro result h
      cases h
      exact hrun.imp And.right And.right
  | cancel =>
    have hwon : (s.act .cancel).1 = .accepted true := by
      rw [act, hcall]
      rfl
    have hcancelled : t.call = .cancelled := by
      rw [← ht, act, hcall]
      rfl
    obtain ⟨hrun, hall⟩ := t.run_cancelled later hcancelled
    rw [hu] at hrun
    have hres : u.call.isResolved = true := by
      rw [hrun]
      rfl
    have hreturns := u.act_returns hres
    refine ⟨hwon, fun o ho => u.act_decided o ho hres, hres, ?_, hreturns.1, hreturns.2,
      fun _ => hall, ?_⟩
    · rw [hrun]
      exact ⟨fun _ => rfl, fun _ => rfl⟩
    · intro result h
      cases h
  | _ => cases hd

/-- One wait times out and another goes on. -/
def twoWaits : List Operation := [.wait (some ⟨0⟩), .wait none, .wake 0 true, .wake 1 false]

/-- The second wait returns, then somebody cancels and a third one waits. -/
def afterwards : List Operation := [.wake 1 false, .cancel, .wait none]

/-- After a wait that timed out the answer is still accepted; of the two waits that are left the
first has it. -/
theorem answered_after_timeout : (∀ o ∈ twoWaits, o.decides = false) ∧
    ((run {} twoWaits).act (.complete (.ok [7]))).1 = .accepted true ∧
    ((run {} twoWaits).act (.complete (.ok [7]))).2.returns afterwards = [.ok [7], takenBefore] ∧
    (((run {} twoWaits).act (.complete (.ok [7]))).2.run afterwards).act .cancel =
      (.accepted false, ((run {} twoWaits).act (.complete (.ok [7]))).2.run afterwards) := by
  have hb : ∀ o ∈ twoWaits, o.decides = false := by
    intro o ho
    simp only [twoWaits, List.mem_cons, List.not_mem_nil, or_false] at ho
    rcases ho with rfl | rfl | rfl | rfl <;> rfl
  obtain ⟨-, -, -, hwon, hlost, -⟩ :=
    first_decision_wins twoWaits afterwards (.complete (.ok [7])) hb rfl _ _ _ rfl rfl rfl
  exact ⟨hb, hwon, rfl, hlost .cancel rfl⟩

end SharedCall

end OlapClient
