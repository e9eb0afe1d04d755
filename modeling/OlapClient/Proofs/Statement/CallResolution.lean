import OlapClient.Proofs.Statement.Closing
import OlapClient.Proofs.Statement.Traffic

/-!
# Calls are resolved when executions return

The call that a submission hands out is resolved by the time its execution returns: answered, or
cancelled by the statement, by its closing or by the execution itself when the wait takes too long.
From then on it takes no answer, so that a late response reaches neither the caller nor the cache.
-/

namespace OlapClient

namespace Calls

/-- What those who hold calls can do: make another one, answer, cancel, wait. -/
inductive Acts (calls : Calls) : Calls → Prop where
  | add : Acts calls (calls ++ [.unresolved])
  | complete (n : Nat) (result : Except ClientError Bytes) :
      Acts calls (calls.complete n result).1
  | cancel (n : Nat) : Acts calls (calls.cancel n).1
  | wait (n : Nat) (bound : Option Duration) (result : Except ClientError Bytes) (calls' : Calls)
      (h : calls.wait n bound = some (result, calls')) : Acts calls calls'

/-- Calls at a later time: none is gone, and what is resolved stays resolved. -/
structure Onward (calls calls' : Calls) : Prop where
  length : calls.length ≤ calls'.length
  resolved : ∀ n, calls.isResolved n = true → calls'.isResolved n = true

theorem Onward.refl (calls : Calls) : calls.Onward calls := ⟨Nat.le_refl _, fun _ h => h⟩

theorem Onward.trans {calls calls' calls'' : Calls} (h : calls.Onward calls')
    (h' : calls'.Onward calls'') : calls.Onward calls'' :=
  ⟨Nat.le_trans h.length h'.length, fun n hn => h'.resolved n (h.resolved n hn)⟩

variable (calls : Calls) (n : Nat)

theorem isResolved_set (c : Call) (hn : n < calls.length) (k : Nat) :
    Calls.isResolved (calls.set n c) k = if n = k then c.isResolved else calls.isResolved k := by
  by_cases hk : n = k
  · subst hk
    simp [isResolved, hn]
  · simp [isResolved, hk]

theorem onward_set (c c' : Call) (hc : calls[n]? = some c)
    (hr : c.isResolved = true → c'.isResolved = true) : calls.Onward (calls.set n c') := by
  obtain ⟨hn, -⟩ := List.getElem?_eq_some_iff.mp hc
  refine ⟨by simp, ?_⟩
  intro k hk
  rw [isResolved_set calls n c' hn]
  split
  · subst_vars
    apply hr
    simpa [isResolved, hc] using hk
  · exact hk

theorem onward_complete (result : Except ClientError Bytes) :
    calls.Onward (calls.complete n result).1 := by
  cases hc : calls[n]? with
  | none => simpa [complete, hc] using Onward.refl calls
  | some c =>
    have ho := calls.onward_set n c (c.complete result).1 hc
      (by cases c <;> simp [Call.complete, Call.isResolved])
    simpa [complete, hc] using ho

theorem onward_cancel : calls.Onward (calls.cancel n).1 := by
  cases hc : calls[n]? with
  | none => simpa [cancel, hc] using Onward.refl calls
  | some c =>
    have ho := calls.onward_set n c c.cancel.1 hc
      (by cases c <;> simp [Call.cancel, Call.isResolved])
    simpa [cancel, hc] using ho

theorem cancel_resolves (hn : n < calls.length) : Calls.isResolved (calls.cancel n).1 n = true := by
  have hc : calls[n]? = some calls[n] := List.getElem?_eq_getElem hn
  have hr : calls[n].cancel.1.isResolved = true := by cases calls[n] <;> rfl
  rw [cancel, hc]
  simpa [isResolved_set calls n _ hn] using hr

theorem complete_resolved (h : calls.isResolved n = true) (result : Except ClientError Bytes) :
    calls.complete n result = (calls, false) := by
  cases hc : calls[n]? with
  | none => simp [isResolved, hc] at h
  | some c =>
    have hs : calls.set n c = calls := by
      obtain ⟨hn, he⟩ := List.getElem?_eq_some_iff.mp hc
      rw [← he]
      exact List.set_getElem_self hn
    have hr : c.isResolved = true := by simpa [isResolved, hc] using h
    cases c with
    | unresolved => cases hr
    | _ => simp [complete, hc, Call.complete, hs]

/-- A wait ends because its call is resolved, or because it took too long. -/
theorem wait_ends (bound : Option Duration) (result : Except ClientError Bytes) (calls' : Calls)
    (h : calls.wait n bound = some (result, calls')) : calls.Onward calls' ∧
      ((∃ d, result = .error (.timedOut d)) ∨ calls'.isResolved n = true) := by
  obtain ⟨c, hc, h⟩ := Option.bind_eq_some_iff.mp h
  obtain ⟨⟨result', c'⟩, hw, h⟩ := Option.bind_eq_some_iff.mp h
  cases h
  obtain ⟨hn, -⟩ := List.getElem?_eq_some_iff.mp hc
  have hr : c'.isResolved = true ∨ (c' = c ∧ ∃ d, result = .error (.timedOut d)) := by
    cases c with
    | unresolved =>
      obtain ⟨d, -, hd⟩ := Option.map_eq_some_iff.mp hw
      cases hd
      exact .inr ⟨rfl, d, rfl⟩
    | _ =>
      cases hw
      exact .inl rfl
  refine ⟨calls.onward_set n c c' hc ?_, ?_⟩
  · obtain hr | ⟨rfl, -⟩ := hr
    · exact fun _ => hr
    · exact id
  · obtain hr | ⟨-, hd⟩ := hr
    · right
      rw [isResolved_set calls n c' hn, if_pos rfl]
      exact hr
    · exact .inl hd

theorem Acts.onward {calls calls' : Calls} (h : calls.Acts calls') : calls.Onward calls' := by
  cases h with
  | add =>
    refine ⟨by simp, ?_⟩
    intro n hn
    cases hc : calls[n]? with
    | none => simp [isResolved, hc] at hn
    | some c =>
      obtain ⟨hl, -⟩ := List.getElem?_eq_some_iff.mp hc
      rw [isResolved, List.getElem?_append_left hl]
      exact hn
  | complete n result => exact calls.onward_complete n result
  | cancel n => exact calls.onward_cancel n
  | wait n bound result calls' h => exact (calls.wait_ends n bound result _ h).1

end Calls

/-! ### Turns -/

/-- Between its submission and its return, an execution owes the resolution of its call. -/
def Stage.Settles (call : Nat) (flag : Bool) (calls : Calls) : Stage → Prop
  | registering _ k => k = call ∧ call < calls.length
  | waiting _ k => k = call ∧ call < calls.length ∧ (flag = true → calls.isResolved call = true)
  | recording _ k result => k = call ∧ call < calls.length ∧
      (flag = true → calls.isResolved call = true) ∧
      ((∃ d, result = .error (.timedOut d)) ∨ calls.isResolved call = true)
  | storing _ _ | reading _ _ | opening _ | failing _ | returned _ => calls.isResolved call = true
  | _ => False

theorem Stage.Settles.mono {g : Stage} {call : Nat} {flag flag' : Bool} {calls calls' : Calls}
    (h : g.Settles call flag calls) (ho : calls.Onward calls')
    (hf : g.pending? = some call → flag' = true → flag = true ∨ calls'.isResolved call = true) :
    g.Settles call flag' calls' := by
  cases g with
  | registering m k => exact ⟨h.1, Nat.lt_of_lt_of_le h.2 ho.length⟩
  | waiting m k =>
    obtain ⟨rfl, hl, hr⟩ := h
    refine ⟨rfl, Nat.lt_of_lt_of_le hl ho.length, ?_⟩
    intro hflag
    obtain hold | hnew := hf rfl hflag
    · exact ho.resolved k (hr hold)
    · exact hnew
  | recording m k result =>
    obtain ⟨rfl, hl, hr, hres⟩ := h
    refine ⟨rfl, Nat.lt_of_lt_of_le hl ho.length, ?_, hres.imp_right (ho.resolved k)⟩
    intro hflag
    obtain hold | hnew := hf rfl hflag
    · exact ho.resolved k (hr hold)
    · exact hnew
  | storing m response => exact ho.resolved call h
  | reading response hit => exact ho.resolved call h
  | opening cells => exact ho.resolved call h
  | failing e => exact ho.resolved call h
  | returned r => exact ho.resolved call h
  | _ => exact h.elim

namespace Execution.Advance

variable {x : Execution} {config : Config} {s s' : Statement} {d d' : Desk} {t : Turn} {g : Stage}

theorem onward (h : x.Advance config s d t g s' d') : d.calls.Onward d'.calls := by
  cases h with
  | waitEnds m call hs result calls hw => exact (d.calls.wait_ends call _ result calls hw).1
  | registersCancelled m call => exact d.calls.onward_cancel call
  | recordsFailure m call e =>
    cases e with
    | timedOut bound => exact d.calls.onward_cancel call
    | _ => exact .refl _
  | opensCells =>
    have hc := closeLeftOpen_calls d s.openCellSet
    rw [show ((d.closeLeftOpen s.openCellSet).addCellSet _).1.calls = d.calls from hc]
    exact .refl _
  | _ => exact .refl _

/-- A turn keeps what an execution owes, if the wait ends as the call has it. -/
theorem settles (h : x.Advance config s d t g s' d') (call : Nat)
    (hx : x.stage.Settles call s.cancelRequested d.calls)
    (ht : ∀ result, t ≠ .reply (.waited result)) :
    g.Settles call s'.cancelRequested d'.calls := by
  have hon := h.onward
  cases h with
  | rest => exact hx
  | registers m k hs hf =>
    rw [hs] at hx
    refine ⟨hx.1, hx.2, ?_⟩
    intro hflag
    rw [show s.cancelRequested = true from hflag] at hf
    cases hf
  | registersCancelled m k hs =>
    rw [hs] at hx
    obtain ⟨rfl, hl⟩ := hx
    exact ⟨rfl, Nat.lt_of_lt_of_le hl hon.length, fun _ => d.calls.cancel_resolves k hl⟩
  | waitReturns m k hs result => exact absurd rfl (ht result)
  | waitEnds m k hs result calls hw =>
    rw [hs] at hx
    obtain ⟨rfl, hl, hr⟩ := hx
    have hends := (d.calls.wait_ends k _ result calls hw).2
    exact ⟨rfl, Nat.lt_of_lt_of_le hl hon.length, fun hf => hon.resolved k (hr hf), hends⟩
  | recordsCancelled m k result hs hf =>
    rw [hs] at hx
    exact hx.2.2.1 hf
  | recordsFailure m k e hs =>
    rw [hs] at hx
    obtain ⟨rfl, hl, -, ⟨bound, he⟩ | hr⟩ := hx
    · cases he
      exact d.calls.cancel_resolves k hl
    · exact hon.resolved k hr
  | recordsForCache m k response hs =>
    rw [hs] at hx
    obtain ⟨-, -, -, ⟨bound, he⟩ | hr⟩ := hx
    · cases he
    · exact hr
  | records m k response hs =>
    rw [hs] at hx
    obtain ⟨-, -, -, ⟨bound, he⟩ | hr⟩ := hx
    · cases he
    · exact hr
  | storeFails m response hs => rw [hs] at hx; exact hx
  | stores m response hs => rw [hs] at hx; exact hx
  | unreadable response hit hs => rw [hs] at hx; exact hx
  | readsRows response hit hs => rw [hs] at hx; exact hx
  | readsCells response hit hs => rw [hs] at hx; exact hx
  | fails e hs => rw [hs] at hx; exact hx
  | refusesCells cells hs => rw [hs] at hx; exact hx
  | opensCells cells hs =>
    rw [hs] at hx
    exact hon.resolved call hx
  | _ => simp_all [Stage.Settles]

end Execution.Advance

theorem Execution.turn_of_accepted (x : Execution) (t : Turn) (d : Desk) (m : Message) (call : Nat)
    (h : x.errand? t d = some ⟨.submit m, .submitted (.ok call)⟩) :
    t = .reply (.submitted (.ok call)) := by
  have hr : x.reply? t d = some (.submitted (.ok call)) := by
    unfold errand? at h
    split at h
    · rename_i demand reply hd hr
      split at h
      · cases h
        exact hr
      · cases h
    · cases h
  cases t with
  | step => cases hr
  | reply r =>
    cases hr
    rfl
  | waited =>
    unfold reply? at hr
    cases hs : x.stage with
    | waiting m' k =>
      rw [hs] at hr
      obtain ⟨taken, -, ht⟩ := Option.map_eq_some_iff.mp hr
      cases ht
    | _ => simp [hs] at hr

namespace Scene

/-! ### Moves -/

theorem turn_of_errand (s : Scene) (n : Nat) (m : Move) (e : Errand) (h : s.errand? n m = some e) :
    ∃ t x, m = .turn n t ∧ s.executions[n]? = some x ∧ x.errand? t s.desk = some e := by
  cases m with
  | turn k t =>
    by_cases hk : k = n
    · rw [errand?, if_pos hk] at h
      obtain ⟨x, hx, he⟩ := Option.bind_eq_some_iff.mp h
      exact ⟨t, x, by rw [hk], hx, he⟩
    · rw [errand?, if_neg hk] at h
      cases h
  | _ => cases h

/-- The submission of an execution hands out a call in flight, its wait ends as that call has it,
and others touch calls only as their holders can. -/
def Genuine (n : Nat) (s : Scene) : Move → Prop
  | .turn k (.reply (.submitted (.ok call))) => k = n → call < s.desk.calls.length
  | .turn k (.reply (.waited _)) => k ≠ n
  | .setCalls calls => s.desk.calls.Acts calls
  | _ => True

theorem calls_after_attempt (s : Scene) (job : Job) :
    (s.after (.attempt job)).desk.calls = s.desk.calls := by
  obtain ⟨g, statement, desk, -, he, hentry⟩ := s.attempt_entry job
  rw [he]
  cases hentry with
  | refused => rfl
  | entered =>
    unfold Desk.makeWay
    split
    · exact closeLeftOpen_calls _ _
    · rfl

theorem onward_after (n : Nat) (s : Scene) (m : Move) (hg : s.Genuine n m) :
    s.desk.calls.Onward (s.after m).desk.calls := by
  by_cases ha : ∃ job, m = .attempt job
  · obtain ⟨job, rfl⟩ := ha
    rw [calls_after_attempt]
    exact .refl _
  by_cases ht : ∃ k t, m = .turn k t
  · obtain ⟨k, t, rfl⟩ := ht
    cases hx : s.executions[k]? with
    | none =>
      rw [s.after_turn_none k t hx]
      exact .refl _
    | some x =>
      obtain ⟨g, statement, desk, he, hadv⟩ := s.after_turn k x t hx
      rw [he]
      exact hadv.onward
  by_cases hc : ∃ calls, m = .setCalls calls
  · obtain ⟨calls, rfl⟩ := hc
    exact hg.onward
  rcases s.flag_cases m (fun job e => ha ⟨job, e⟩) (fun k t e => ht ⟨k, t, e⟩)
    (fun calls e => hc ⟨calls, e⟩) with ⟨-, hd, -⟩ | ⟨-, -, -, hd⟩ | ⟨call, -, hu, -, hd⟩
  · rw [hd]
    exact .refl _
  · rw [hd]
    exact .refl _
  · rw [hd]
    exact s.desk.calls.onward_set call _ _ hu fun _ => rfl

theorem onward_run (n : Nat) (s : Scene) (ms : List Move) (hg : s.Always (Genuine n) ms) :
    s.desk.calls.Onward (s.run ms).desk.calls := by
  induction ms generalizing s with
  | nil => exact .refl _
  | cons m ms ih => exact (s.onward_after n m hg.1).trans (ih (s.after m) hg.2)

/-- Others raise the flag of a waiting execution only by cancelling its call. -/
theorem Runs.flag_or_resolved {s : Scene} {n : Nat} {x : Execution} (h : s.Runs n x) (m : Move)
    (hm : ∀ t, m ≠ .turn n t) (call : Nat) (hp : x.stage.pending? = some call)
    (hf : (s.after m).statement.cancelRequested = true) :
    s.statement.cancelRequested = true ∨ (s.after m).desk.calls.isResolved call = true := by
  rcases h.others_cases m hm with ⟨he, -, -⟩ | ⟨-, hno, -, -⟩ | ⟨k, hk, hu, -, hd⟩
  · exact .inl (he.symm.trans hf)
  · rw [hp] at hno
    cases hno
  · rw [hp] at hk
    cases hk
    obtain ⟨hl, -⟩ := List.getElem?_eq_some_iff.mp hu
    right
    rw [hd, Calls.isResolved_set _ call _ hl, if_pos rfl]
    rfl

/-! ### From the submission on -/

/-- The execution of a number owes the resolution of its call, or has seen to it. -/
def Settling (n call : Nat) (s : Scene) : Prop :=
  s.Ordered ∧ ∃ x, s.executions[n]? = some x ∧
    x.stage.Settles call s.statement.cancelRequested s.desk.calls

theorem Settling.after {n call : Nat} {s : Scene} (h : s.Settling n call) (m : Move)
    (hg : s.Genuine n m) : (s.after m).Settling n call := by
  obtain ⟨ho, x, hx, hset⟩ := h
  refine ⟨ho.after m, ?_⟩
  obtain ⟨t, g, statement, desk, rfl, he, ha, hy⟩ | ⟨hm, hk⟩ := s.after_cases n x m hx
  · refine ⟨_, hy, ?_⟩
    have ht : ∀ result, t ≠ .reply (.waited result) := by
      rintro result rfl
      exact hg rfl
    rw [he]
    exact ha.settles call hset ht
  · refine ⟨x, hk, hset.mono (s.onward_after n m hg) ?_⟩
    intro hp hf
    have hr : x.stage.isRunning = true := by
      cases hs : x.stage <;> simp_all [Stage.pending?, Stage.isRunning]
    exact (ho.runs n x hx hr).flag_or_resolved m hm call hp hf

theorem settling_of_accepted (s : Scene) (ho : s.Ordered) (hq : s.Equipped) (n : Nat) (m : Move)
    (hg : s.Genuine n m) (message : Message) (call : Nat)
    (he : s.errand? n m = some ⟨.submit message, .submitted (.ok call)⟩) :
    (s.after m).Settling n call := by
  obtain ⟨t, x, rfl, hx, hxe⟩ := s.turn_of_errand n m _ he
  obtain rfl := x.turn_of_accepted t s.desk message call hxe
  have hl : call < (s.after (.turn n (.reply (.submitted (.ok call))))).desk.calls.length :=
    Nat.lt_of_lt_of_le (hg rfl) (s.onward_after n _ hg).length
  obtain ⟨e, g, he', hc, -, hy⟩ | ⟨g, statement, desk, he', -⟩ := s.traffic_cases hq n x hx _
  · rw [he] at he'
    cases he'
    cases hc
    exact ⟨ho.after _, _, hy, rfl, hl⟩
  · rw [he] at he'
    cases he'

theorem settling_run (s : Scene) (ho : s.Ordered) (hq : s.Equipped) (n : Nat) (ms : List Move)
    (hg : s.Always (Genuine n) ms) (message : Message) (call : Nat)
    (he : (⟨.submit message, .submitted (.ok call)⟩ : Errand) ∈ s.errands n ms) :
    (s.run ms).Settling n call := by
  induction ms generalizing s with
  | nil => cases he
  | cons m ms ih =>
    obtain he | he := List.mem_append.mp he
    · have hset := s.settling_of_accepted ho hq n m hg.1 message call (Option.mem_toList.mp he)
      exact run_keeps_of (Settling n call) (Genuine n) (fun _ m h hm => h.after m hm) _ ms hg.2 hset
    · exact ih (s.after m) (ho.after m) (hq.after m) hg.2 he

theorem Settling.resolved {n call : Nat} {s : Scene} (h : s.Settling n call)
    (r : Except ClientError Answer) (ha : s.answer? n = some r) :
    s.desk.calls.isResolved call = true := by
  obtain ⟨-, x, hx, hset⟩ := h
  rw [answer?, hx] at ha
  cases hs : x.stage with
  | returned r' =>
    rw [hs] at hset
    exact hset
  | _ => simp [Execution.result?, hs] at ha

/-! ### After the return -/

theorem errand_of_answer (s : Scene) (n : Nat) (r : Except ClientError Answer)
    (h : s.answer? n = some r) (m : Move) : s.errand? n m = none := by
  have hd := s.demand_of_answer n r h
  cases he : s.errand? n m with
  | none => rfl
  | some e =>
    obtain ⟨t, x, -, hx, hxe⟩ := s.turn_of_errand n m e he
    have hxd : x.demand? = none := by simpa [demand?, hx] using hd
    simp [Execution.errand?, hxd] at hxe

theorem errands_of_answer (s : Scene) (n : Nat) (r : Except ClientError Answer)
    (h : s.answer? n = some r) (ms : List Move) : s.errands n ms = [] := by
  induction ms generalizing s with
  | nil => rfl
  | cons m ms ih =>
    rw [errands, s.errand_of_answer n r h m, ih (s.after m) (s.answer_after n m r h)]
    rfl

theorem calls_of_answer (s : Scene) (n : Nat) (ms : List Move) (r : Except ClientError Answer)
    (h : (s.run ms).answer? n = some r) (ns : List Move) :
    (s.run (ms ++ ns)).answer? n = some r ∧ s.calls n (ms ++ ns) = s.calls n ms := by
  have ha := (s.run ms).answer_run n ns r h
  rw [← run_append] at ha
  refine ⟨ha, ?_⟩
  rw [calls, calls, errands_append, (s.run ms).errands_of_answer n r h ns, List.append_nil,
    demand_of_answer _ n r ha, demand_of_answer _ n r h]

/-- The calls of an execution, from its attempt on, in every run. None is forgotten later on. They
follow one plan, whose message is built under the settings of one moment after the admission, and if
the execution succeeds they are all of the plan, or a hit. A hit in the cache is the last of them. A
response is stored exactly if there is a cache, it is what the wait returned, and the end of the
wait was recorded without a cancellation. Once the execution has returned, neither its answer nor
its calls change, and a call in flight that it submitted takes no answer any more. -/
theorem calls_of_execution (config : Config) (session : Option String) (desk : Desk)
    (past : List Move) (job : Job) (ms : List Move) (s s' : Scene) (n : Nat)
    (hs : (new config session desk).run past = s) (hs' : s.after (.attempt job) = s')
    (hn : s.executions.length = n) :
    (∀ ns, s'.calls n ms <+: s'.calls n (ms ++ ns)) ∧
    (s'.calls n ms = [] ∨ ∃ c : Course, c.session = session ∧ c.timeout = s.statement.timeout ∧
      s'.Builds ms job c.message ∧ ∃ call response, s'.calls n ms <+: c.plan call response) ∧
    (∀ answer, (s'.run ms).answer? n = some (.ok answer) →
      (∃ id m response, (⟨.get id m, .got (.ok (some response))⟩ : Errand) ∈ s'.errands n ms) ∨
      ∃ c : Course, c.session = session ∧ c.timeout = s.statement.timeout ∧
        ∃ call response, s'.calls n ms = c.plan call response) ∧
    (∀ id m response, (⟨.get id m, .got (.ok (some response))⟩ : Errand) ∈ s'.errands n ms →
      s'.calls n ms = [.get id m]) ∧
    (∀ id response, (∃ m, .put id m response ∈ s'.calls n ms) ↔
      session = some id ∧
      (∃ call bound, (⟨.wait call bound, .waited (.ok response)⟩ : Errand) ∈ s'.errands n ms) ∧
      s'.Sometime (RecordsClear n) ms) ∧
    ∀ r, (s'.run ms).answer? n = some r →
      (∀ ns, (s'.run (ms ++ ns)).answer? n = some r ∧ s'.calls n (ms ++ ns) = s'.calls n ms) ∧
      ∀ m call, (⟨.submit m, .submitted (.ok call)⟩ : Errand) ∈ s'.errands n ms →
        ∀ ns, s'.Always (Genuine n) (ms ++ ns) →
          (s'.run (ms ++ ns)).desk.calls.isResolved call = true ∧
          ∀ result, (s'.run (ms ++ ns)).desk.calls.complete call result =
            ((s'.run (ms ++ ns)).desk.calls, false) := by
  have hse : s.session = session := by
    rw [← hs]
    exact session_run _ past
  have ho : s'.Ordered := by
    rw [← hs', ← hs]
    exact ((new_ordered config session desk).run past).after _
  have hq : s'.Equipped := by
    rw [← hs', ← hs]
    exact ((new_equipped config session desk).run past).after _
  obtain ⟨hxj, hxs, hxt⟩ := s.attempted_fields job
  have htracked : ∃ g, s'.Tracked n (s.attempted job) [] g := by
    rw [← hs', ← hn]
    exact s.tracked_attempted job
  obtain ⟨g, hg⟩ := Tracked.run htracked hq ms
  refine ⟨s'.calls_prefix hq n ms, ?_, ?_, ?_, ?_, ?_⟩
  · obtain ⟨hl, hd, -⟩ | ⟨c, hcs, hct, hcb, hc⟩ := hg.seen (hq.run ms)
    · left
      rw [calls, hl, hd]
      rfl
    · rw [hxj] at hcb
      exact .inr ⟨c, hcs.trans (hxs.trans hse), hct.trans hxt, hcb, hc.keeps_plan⟩
  · intro answer ha
    have hw := hg.whole answer ha
    rw [hxs, hse, hxt] at hw
    exact hw
  · intro id m response he
    obtain ⟨hl, -, -⟩ | ⟨c, -, -, -, hc⟩ := hg.seen (hq.run ms)
    · rw [hl] at he
      cases he
    · exact hc.after_hit id m response he
  · intro id response
    obtain ⟨hl, hd, hno⟩ | ⟨c, hcs, -, -, hc⟩ := hg.seen (hq.run ms)
    · rw [calls, hl, hd]
      simp [hno]
    · rw [← hcs.trans (hxs.trans hse)]
      exact hc.stores_iff id response
  · intro r hr
    refine ⟨s'.calls_of_answer n ms r hr, ?_⟩
    intro m call he ns hgen
    obtain ⟨hms, hns⟩ := (always_append _ _ _ _).mp hgen
    have hres := (s'.settling_run ho hq n ms hms m call he).resolved r hr
    have hlater : (s'.run (ms ++ ns)).desk.calls.isResolved call = true := by
      rw [run_append]
      exact ((s'.run ms).onward_run n ns hns).resolved call hres
    exact ⟨hlater, Calls.complete_resolved _ call hlater⟩

/-- The scene in which an execution with a cache and a bound of a second is about to begin. -/
def boundedScene : Scene :=
  ((new {} (some "s") {}).run [.setTimeout 1]).after (.attempt (.rows ""))

/-- The cache does not have the response, the call is not answered in time, and the execution
returns. -/
def untilTimeout : List Move :=
  [.turn 0 .step, .turn 0 (.reply (.got (.ok none))), .turn 0 .step, .setCalls [.unresolved],
    .turn 0 (.reply (.submitted (.ok 0))), .turn 0 .step, .turn 0 .waited, .turn 0 .step,
    .turn 0 .step]

theorem genuine_untilTimeout : boundedScene.Always (Genuine 0) (untilTimeout ++ []) :=
  ⟨trivial, trivial, trivial, .add, fun _ => Nat.zero_lt_one, trivial, trivial, trivial, trivial,
    trivial⟩

theorem timedOut_call_dropped :
    (boundedScene.run untilTimeout).answer? 0 = some (.error (.timedOut (.ofSeconds 1))) ∧
    (∃ m, boundedScene.calls 0 untilTimeout =
      [.get "s" m, .submit m, .wait 0 (some (.ofSeconds 1))]) ∧
    ∀ result, (boundedScene.run untilTimeout).desk.calls.complete 0 result =
      ((boundedScene.run untilTimeout).desk.calls, false) := by
  have hanswer : (boundedScene.run untilTimeout).answer? 0 =
      some (.error (.timedOut (.ofSeconds 1))) := rfl
  obtain ⟨-, -, -, -, -, hreturned⟩ :=
    calls_of_execution {} (some "s") {} [.setTimeout 1] (.rows "")
    untilTimeout _ boundedScene 0 rfl rfl rfl
  have hdropped := (hreturned _ hanswer).2 ⟨"", Request.execute "" {} .tabular⟩ 0
    (.tail _ (.head _)) [] genuine_untilTimeout
  exact ⟨hanswer, ⟨_, rfl⟩, hdropped.2⟩

end Scene

end OlapClient
