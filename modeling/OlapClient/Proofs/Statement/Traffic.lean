import Mathlib.Data.List.Induction
import OlapClient.Proofs.Statement.Errand

/-!
# The calls of one execution

Whatever the cache and the transport reply, and whatever others do meanwhile, the calls of an
execution follow one plan: look up, submit, wait, store, the first and the last only with a cache.
All of them carry the one request that was built after admission. An execution may break off
anywhere and never goes back; one that succeeds has made them all, or had a hit.
-/

namespace OlapClient

/-- The wait is over; the statement does not know yet. -/
def Stage.isRecording : Stage → Bool
  | recording _ _ _ => true
  | _ => false

/-- What the calls of an execution have in common. -/
structure Course where
  session : Option String
  timeout : Option Duration
  message : Message

namespace Course

/-- The calls of an execution that does not break off. -/
def plan (c : Course) (call : Nat) (response : Bytes) : List Demand :=
  (c.session.map (Demand.get · c.message)).toList ++
    [.submit c.message, .wait call c.timeout] ++
    (c.session.map (Demand.put · c.message response)).toList

/-- The errands up to the submission: the cache, if there is one, does not have the response. -/
def missed (c : Course) : List Errand :=
  (c.session.map fun id => ⟨.get id c.message, .got (.ok none)⟩).toList

def accepted (c : Course) (call : Nat) : List Errand :=
  c.missed ++ [⟨.submit c.message, .submitted (.ok call)⟩]

def awaited (c : Course) (call : Nat) (result : Except ClientError Bytes) : List Errand :=
  c.accepted call ++ [⟨.wait call c.timeout, .waited result⟩]

theorem missed_demands (c : Course) :
    c.missed.map Errand.demand = (c.session.map (Demand.get · c.message)).toList := by
  cases hs : c.session <;> simp [missed, hs]

theorem accepted_demands (c : Course) (call : Nat) : (c.accepted call).map Errand.demand =
    (c.session.map (Demand.get · c.message)).toList ++ [.submit c.message] := by
  rw [accepted, List.map_append, missed_demands]
  rfl

theorem awaited_demands (c : Course) (call : Nat) (result : Except ClientError Bytes) :
    (c.awaited call result).map Errand.demand =
      (c.session.map (Demand.get · c.message)).toList ++
        [.submit c.message, .wait call c.timeout] := by
  rw [awaited, List.map_append, accepted_demands, List.append_assoc]
  rfl

theorem plan_of_session (c : Course) (id : String) (hs : c.session = some id) (call : Nat)
    (response : Bytes) : c.plan call response = [.get id c.message, .submit c.message,
      .wait call c.timeout, .put id c.message response] := by
  simp [plan, hs]

/-- The errands of an execution that runs no more of them. A wait is `clear` if it was recorded
without a cancellation. -/
inductive Over (c : Course) (clear : Prop) : List Errand → Prop where
  | looked (id : String) (hs : c.session = some id) (found : Except ClientError (Option Bytes))
      (hf : found ≠ .ok none) (hc : ¬ clear) : Over c clear [⟨.get id c.message, .got found⟩]
  | missed (hc : ¬ clear) : Over c clear c.missed
  | rejected (e : ClientError) (hc : ¬ clear) :
      Over c clear (c.missed ++ [⟨.submit c.message, .submitted (.error e)⟩])
  | awaited (call : Nat) (result : Except ClientError Bytes)
      (hc : clear → c.session = none ∨ ∃ e, result = .error e) :
      Over c clear (c.awaited call result)
  | stored (id : String) (hs : c.session = some id) (call : Nat) (response : Bytes)
      (result : Except ClientError Unit) (hc : clear) :
      Over c clear (c.awaited call (.ok response) ++
        [⟨.put id c.message response, .stored result⟩])

/-- The errands of an execution that is to succeed: a hit in the cache, or the whole plan. -/
def Whole (c : Course) (log : List Errand) : Prop :=
  (∃ id response, log = [⟨.get id c.message, .got (.ok (some response))⟩]) ∨
    ∃ call response, log.map Errand.demand = c.plan call response

/-- The errands that lead to a stage. -/
def Fits (c : Course) (clear : Prop) (log : List Errand) : Stage → Prop
  | .admitted => False
  | .looking m => m = c.message ∧ log = [] ∧ ¬ clear
  | .checking m | .submitting m => m = c.message ∧ log = c.missed ∧ ¬ clear
  | .registering m call | .waiting m call => m = c.message ∧ log = c.accepted call ∧ ¬ clear
  | .recording m call result => m = c.message ∧ log = c.awaited call result ∧ ¬ clear
  | .storing m response =>
    m = c.message ∧ (∃ call, log = c.awaited call (.ok response)) ∧ clear
  | .found _ | .reading _ _ | .opening _ | .returned (.ok _) => c.Over clear log ∧ c.Whole log
  | .failing _ | .returned (.error _) => c.Over clear log

variable {c : Course} {clear : Prop} {log : List Errand} {x : Execution}

/-! ### Turns -/

theorem Fits.comes (h : c.Fits clear log x.stage) (hs : x.session = c.session)
    (ht : x.timeout = c.timeout) {e : Errand} {g : Stage} (hc : x.Comes e g) :
    c.Fits clear (log ++ [e]) g := by
  cases hc with
  | lookFails m hx id hid e =>
    rw [hx] at h
    obtain ⟨rfl, rfl, hn⟩ := h
    exact .looked id (hs.symm.trans hid) _ (by simp) hn
  | hits m hx id hid response =>
    rw [hx] at h
    obtain ⟨rfl, rfl, hn⟩ := h
    exact ⟨.looked id (hs.symm.trans hid) _ (by simp) hn, .inl ⟨id, response, rfl⟩⟩
  | misses m hx id hid =>
    rw [hx] at h
    obtain ⟨rfl, rfl, hn⟩ := h
    exact ⟨rfl, by simp [missed, hs.symm.trans hid], hn⟩
  | submitFails m hx e =>
    rw [hx] at h
    obtain ⟨rfl, rfl, hn⟩ := h
    exact .rejected e hn
  | accepted m hx call =>
    rw [hx] at h
    obtain ⟨rfl, rfl, hn⟩ := h
    exact ⟨rfl, rfl, hn⟩
  | waited m call hx result =>
    rw [hx] at h
    obtain ⟨rfl, rfl, hn⟩ := h
    exact ⟨rfl, by rw [ht]; rfl, hn⟩
  | storeFails m response hx id hid e =>
    rw [hx] at h
    obtain ⟨rfl, ⟨call, rfl⟩, hp⟩ := h
    exact .stored id (hs.symm.trans hid) call response _ hp
  | stores m response hx id hid =>
    rw [hx] at h
    obtain ⟨rfl, ⟨call, rfl⟩, hp⟩ := h
    have hid := hs.symm.trans hid
    refine ⟨.stored id hid call response _ hp, .inr ⟨call, response, ?_⟩⟩
    rw [List.map_append, awaited_demands, plan, hid]
    rfl

/-- A step calls nobody; the one that records a wait settles whether it is clear. -/
theorem Fits.step (h : c.Fits clear log x.stage) (hs : x.session = c.session) {config : Config}
    {s s' : Statement} {d d' : Desk} {g : Stage} (ha : x.Advance config s d .step g s' d') :
    c.Fits (clear ∨ (x.stage.isRecording = true ∧ g.isRecording = false ∧
      s.cancelRequested = false)) log g := by
  have hkeep : x.stage.isRecording = false → c.Fits clear log g →
      c.Fits (clear ∨ (x.stage.isRecording = true ∧ g.isRecording = false ∧
        s.cancelRequested = false)) log g := by
    intro hr hg
    simpa [hr] using hg
  cases ha with
  | rest =>
    have hstay : ∀ b : Bool, ¬ (b = true ∧ b = false ∧ s.cancelRequested = false) := by
      rintro b ⟨hb, hb', -⟩
      rw [hb] at hb'
      cases hb'
    rw [or_iff_left (hstay _)]
    exact h
  | unbuilt hx => rw [hx] at h; exact h.elim
  | looks hx => rw [hx] at h; exact h.elim
  | skips hx => rw [hx] at h; exact h.elim
  | foundCancelled response hx =>
    rw [hx] at h
    exact hkeep (by rw [hx]; rfl) h.1
  | foundUsed response hx =>
    rw [hx] at h
    exact hkeep (by rw [hx]; rfl) h
  | checkCancelled m hx =>
    rw [hx] at h
    obtain ⟨-, rfl, hn⟩ := h
    exact hkeep (by rw [hx]; rfl) (.missed hn)
  | submits m hx =>
    rw [hx] at h
    exact hkeep (by rw [hx]; rfl) h
  | registers m call hx =>
    rw [hx] at h
    exact hkeep (by rw [hx]; rfl) h
  | registersCancelled m call hx =>
    rw [hx] at h
    exact hkeep (by rw [hx]; rfl) h
  | recordsCancelled m call result hx hf =>
    rw [hx] at h
    obtain ⟨-, rfl, hn⟩ := h
    refine .awaited call result ?_
    rintro (hp | ⟨-, -, hf'⟩)
    · exact absurd hp hn
    · rw [hf] at hf'
      cases hf'
  | recordsFailure m call e hx hf =>
    rw [hx] at h
    obtain ⟨-, rfl, -⟩ := h
    exact .awaited call (.error e) fun _ => .inr ⟨e, rfl⟩
  | recordsForCache m call response hx hf =>
    rw [hx] at h
    obtain ⟨rfl, rfl, -⟩ := h
    exact ⟨rfl, ⟨call, rfl⟩, .inr ⟨by rw [hx]; rfl, rfl, hf⟩⟩
  | records m call response hx hf hse =>
    rw [hx] at h
    obtain ⟨-, rfl, -⟩ := h
    have hno : c.session = none := by
      rw [← hs]
      exact Option.isSome_eq_false_iff.mp hse |> Option.isNone_iff_eq_none.mp
    refine ⟨.awaited call (.ok response) fun _ => .inl hno, .inr ⟨call, response, ?_⟩⟩
    rw [awaited_demands, plan, hno]
    rfl
  | unreadable response hit hx =>
    rw [hx] at h
    exact hkeep (by rw [hx]; rfl) h.1
  | readsRows response hit hx =>
    rw [hx] at h
    exact hkeep (by rw [hx]; rfl) h
  | readsCells response hit hx =>
    rw [hx] at h
    exact hkeep (by rw [hx]; rfl) h
  | fails e hx =>
    rw [hx] at h
    exact hkeep (by rw [hx]; rfl) h
  | refusesCells cells hx =>
    rw [hx] at h
    exact hkeep (by rw [hx]; rfl) h.1
  | opensCells cells hx =>
    rw [hx] at h
    exact hkeep (by rw [hx]; rfl) h

/-! ### What is seen from outside -/

/-- The errands and the call that an execution waits for. -/
inductive Seen (c : Course) (clear : Prop) : List Errand → Option Demand → Prop where
  | done (log : List Errand) (h : c.Over clear log) : Seen c clear log none
  | looking (id : String) (hs : c.session = some id) (hc : ¬ clear) :
      Seen c clear [] (some (.get id c.message))
  | submitting (hc : ¬ clear) : Seen c clear c.missed (some (.submit c.message))
  | registering (call : Nat) (hc : ¬ clear) : Seen c clear (c.accepted call) none
  | waiting (call : Nat) (hc : ¬ clear) :
      Seen c clear (c.accepted call) (some (.wait call c.timeout))
  | storing (id : String) (hs : c.session = some id) (call : Nat) (response : Bytes) (hc : clear) :
      Seen c clear (c.awaited call (.ok response)) (some (.put id c.message response))

theorem Fits.seen (h : c.Fits clear log x.stage) (hs : x.session = c.session)
    (ht : x.timeout = c.timeout) (hq : x.Equipped) : c.Seen clear log x.demand? := by
  rw [Execution.demand?]
  revert h
  cases hx : x.stage with
  | admitted => exact False.elim
  | looking m =>
    rintro ⟨rfl, rfl, hn⟩
    obtain ⟨id, hid⟩ := Option.isSome_iff_exists.mp (hq.1 _ hx)
    rw [hid]
    exact .looking id (hs.symm.trans hid) hn
  | checking m =>
    rintro ⟨rfl, rfl, hn⟩
    exact .done _ (.missed hn)
  | submitting m =>
    rintro ⟨rfl, rfl, hn⟩
    exact .submitting hn
  | registering m call =>
    rintro ⟨rfl, rfl, hn⟩
    exact .registering call hn
  | waiting m call =>
    rintro ⟨rfl, rfl, hn⟩
    rw [ht]
    exact .waiting call hn
  | recording m call result =>
    rintro ⟨rfl, rfl, hn⟩
    exact .done _ (.awaited call result fun hc => absurd hc hn)
  | storing m response =>
    rintro ⟨rfl, ⟨call, rfl⟩, hc⟩
    obtain ⟨id, hid⟩ := Option.isSome_iff_exists.mp (hq.2 _ response hx)
    rw [hid]
    exact .storing id (hs.symm.trans hid) call response hc
  | found response => exact fun h => .done _ h.1
  | reading response hit => exact fun h => .done _ h.1
  | opening cells => exact fun h => .done _ h.1
  | failing e => exact .done _
  | returned r =>
    cases r with
    | ok answer => exact fun h => .done _ h.1
    | error e => exact .done _

variable {outstanding : Option Demand}

theorem plan_from_submission (c : Course) (call : Nat) (response : Bytes) :
    c.plan call response = (c.session.map (Demand.get · c.message)).toList ++
      ([.submit c.message, .wait call c.timeout] ++
        (c.session.map (Demand.put · c.message response)).toList) :=
  List.append_assoc ..

theorem Over.keeps_plan (h : c.Over clear log) :
    ∃ call response, log.map Errand.demand <+: c.plan call response := by
  cases h with
  | looked id hs found =>
    refine ⟨0, [], ?_⟩
    rw [c.plan_of_session id hs]
    exact ⟨_, rfl⟩
  | missed =>
    refine ⟨0, [], ?_⟩
    rw [missed_demands, plan_from_submission]
    exact List.prefix_append _ _
  | rejected e =>
    refine ⟨0, [], ?_⟩
    rw [List.map_append, missed_demands, plan_from_submission]
    exact List.prefix_append_right_inj _ |>.mpr ⟨_, rfl⟩
  | awaited call result =>
    refine ⟨call, [], ?_⟩
    rw [awaited_demands]
    exact List.prefix_append _ _
  | stored id hs call response result =>
    refine ⟨call, response, ?_⟩
    rw [List.map_append, awaited_demands, plan, hs]
    exact List.prefix_refl _

theorem Seen.keeps_plan (h : c.Seen clear log outstanding) :
    ∃ call response, log.map Errand.demand ++ outstanding.toList <+: c.plan call response := by
  cases h with
  | done _ h =>
    rw [Option.toList_none, List.append_nil]
    exact h.keeps_plan
  | looking id hs =>
    refine ⟨0, [], ?_⟩
    rw [c.plan_of_session id hs]
    exact ⟨_, rfl⟩
  | submitting =>
    refine ⟨0, [], ?_⟩
    rw [missed_demands, plan_from_submission]
    exact List.prefix_append_right_inj _ |>.mpr ⟨_, rfl⟩
  | registering call =>
    refine ⟨call, [], ?_⟩
    rw [accepted_demands, plan_from_submission, Option.toList_none, List.append_nil]
    exact List.prefix_append_right_inj _ |>.mpr ⟨_, rfl⟩
  | waiting call =>
    refine ⟨call, [], ?_⟩
    rw [accepted_demands, List.append_assoc, plan_from_submission]
    exact List.prefix_append_right_inj _ |>.mpr ⟨_, rfl⟩
  | storing id hs call response =>
    refine ⟨call, response, ?_⟩
    rw [awaited_demands, plan, hs]
    exact List.prefix_refl _

theorem Seen.after_hit (h : c.Seen clear log outstanding) (id : String) (m : Message)
    (response : Bytes) (he : (⟨.get id m, .got (.ok (some response))⟩ : Errand) ∈ log) :
    log.map Errand.demand ++ outstanding.toList = [.get id m] := by
  have hmissed : (⟨.get id m, .got (.ok (some response))⟩ : Errand) ∉ c.missed := by
    simp [missed]
  have haccepted : ∀ call,
      (⟨.get id m, .got (.ok (some response))⟩ : Errand) ∉ c.accepted call := by
    simp [accepted, hmissed]
  have hawaited : ∀ call result,
      (⟨.get id m, .got (.ok (some response))⟩ : Errand) ∉ c.awaited call result := by
    simp [awaited, haccepted]
  cases h with
  | done _ h =>
    cases h with
    | looked id' hs found =>
      rw [List.mem_singleton] at he
      cases he
      rfl
    | missed => exact absurd he hmissed
    | rejected e => simp [hmissed] at he
    | awaited call result => exact absurd he (hawaited call result)
    | stored id' hs call response' result => simp [hawaited] at he
  | looking id' hs => cases he
  | submitting => exact absurd he hmissed
  | registering call => exact absurd he (haccepted call)
  | waiting call => exact absurd he (haccepted call)
  | storing id' hs call response' => exact absurd he (hawaited call _)

/-- A response is stored exactly if there is a cache, it is what the wait returned, and the wait
was clear. -/
theorem Seen.stores_iff (h : c.Seen clear log outstanding) (id : String) (response : Bytes) :
    (∃ m, Demand.put id m response ∈ log.map Errand.demand ++ outstanding.toList) ↔
      c.session = some id ∧
      (∃ call bound, (⟨.wait call bound, .waited (.ok response)⟩ : Errand) ∈ log) ∧ clear := by
  have hmissed : ∀ m, Demand.put id m response ∉ c.missed.map Errand.demand := by
    simp [missed_demands]
  have haccepted : ∀ m call, Demand.put id m response ∉ (c.accepted call).map Errand.demand := by
    simp [accepted_demands]
  have hawaited : ∀ m call result,
      Demand.put id m response ∉ (c.awaited call result).map Errand.demand := by
    simp [awaited_demands]
  have hwait : ∀ call result call' bound,
      (⟨.wait call' bound, .waited (.ok response)⟩ : Errand) ∈ c.awaited call result ↔
        call' = call ∧ bound = c.timeout ∧ result = .ok response := by
    intro call result call' bound
    rw [eq_comm (a := result)]
    simp [awaited, accepted, missed, and_assoc]
  have hput : ∀ call id' response', (∃ m, Demand.put id m response ∈
      (c.awaited call (.ok response')).map Errand.demand ++ [.put id' c.message response']) ↔
        id' = id ∧ response' = response := by
    intro call id' response'
    rw [eq_comm (a := id'), eq_comm (a := response')]
    simp [hawaited]
  cases h with
  | done _ h =>
    cases h with
    | looked id' hs found hf hc => simp [hc]
    | missed hc => simp [hmissed, hc]
    | rejected e hc => simp [hmissed, hc]
    | awaited call result hc =>
      refine ⟨?_, ?_⟩
      · rintro ⟨m, hm⟩
        simp [hawaited] at hm
      · rintro ⟨hs, ⟨call', bound, hw⟩, hclear⟩
        obtain ⟨-, -, rfl⟩ := (hwait call result call' bound).mp hw
        obtain hno | ⟨e, he⟩ := hc hclear
        · rw [hs] at hno
          cases hno
        · cases he
    | stored id' hs call response' result hc =>
      rw [Option.toList_none, List.append_nil, List.map_append]
      refine (hput call id' response').trans ?_
      simp [hs, hwait, hc]
  | looking id' hs hc => simp [hc]
  | submitting hc => simp [hmissed, hc]
  | registering call hc => simp [haccepted, hc]
  | waiting call hc => simp [haccepted, hc]
  | storing id' hs call response' hc =>
    refine (hput call id' response').trans ?_
    simp [hs, hwait, hc]

end Course

/-! ### Along a run -/

/-- Before its request is built, or after that has failed. -/
def Stage.isSilent : Stage → Bool
  | admitted | failing _ | returned (.error _) => true
  | _ => false

theorem Stage.not_recording_of_silent (g : Stage) (h : g.isSilent = true) :
    g.isRecording = false := by
  cases g <;> simp_all [isSilent, isRecording]

theorem Execution.not_comes_of_silent {x : Execution} (hx : x.stage.isSilent = true) {e : Errand}
    {g : Stage} : ¬ x.Comes e g := by
  intro h
  cases h <;> simp_all [Stage.isSilent]

theorem Execution.Advance.silent {x : Execution} {config : Config} {s s' : Statement} {d d' : Desk}
    {g : Stage} (h : x.Advance config s d .step g s' d') (hx : x.stage.isSilent = true) :
    g.isSilent = true ∨ ∃ body, x.job.request config = .ok body ∧
      (g = .looking ⟨config.url, body⟩ ∨
        (g = .checking ⟨config.url, body⟩ ∧ x.session = none)) := by
  cases h with
  | rest => exact .inl hx
  | unbuilt => exact .inl rfl
  | looks hs body hb => exact .inr ⟨body, hb, .inl rfl⟩
  | skips hs body hb hse => exact .inr ⟨body, hb, .inr ⟨rfl, by simpa using hse⟩⟩
  | fails => exact .inl rfl
  | _ => simp_all [Stage.isSilent]

theorem Execution.Comes.demand {x : Execution} {e : Errand} {g : Stage} (h : x.Comes e g) :
    x.demand? = some e.demand := by
  cases h <;> simp_all [Execution.demand?]

theorem Execution.Advance.rests {x : Execution} {config : Config} {s s' : Statement} {d d' : Desk}
    {g : Stage} (h : x.Advance config s d .step g s' d') (hd : x.demand? ≠ none) : g = x.stage := by
  cases h with
  | rest => rfl
  | _ => simp_all [Execution.demand?]

theorem Execution.Comes.not_recording {x : Execution} {e : Errand} {g : Stage} (h : x.Comes e g) :
    x.stage.isRecording = false := by
  cases h <;> simp_all [Stage.isRecording]

namespace Scene

/-- The errand of the execution of a number that a move ends. -/
def errand? (n : Nat) (s : Scene) : Move → Option Errand
  | .turn k t => if k = n then s.executions[n]?.bind fun x => x.errand? t s.desk else none
  | _ => none

/-- The errands of an execution that end along a run, in order. -/
def errands (n : Nat) (s : Scene) : List Move → List Errand
  | [] => []
  | m :: ms => (s.errand? n m).toList ++ (s.after m).errands n ms

/-- The calls that an execution makes outside along a run, in order. -/
def calls (n : Nat) (s : Scene) (ms : List Move) : List Demand :=
  (s.errands n ms).map Errand.demand ++ ((s.run ms).demand? n).toList

/-- The end of a wait is recorded, and there is no cancellation. -/
def RecordsClear (n : Nat) (s : Scene) (m : Move) : Prop :=
  s.isAt n Stage.isRecording = true ∧ (s.after m).isAt n Stage.isRecording = false ∧
    s.statement.cancelRequested = false

theorem errands_append (n : Nat) (s : Scene) (ms ns : List Move) :
    s.errands n (ms ++ ns) = s.errands n ms ++ (s.run ms).errands n ns := by
  induction ms generalizing s with
  | nil => rfl
  | cons m ms ih => simp [errands, ih]

theorem errands_concat (n : Nat) (s : Scene) (ms : List Move) (m : Move) :
    s.errands n (ms ++ [m]) = s.errands n ms ++ ((s.run ms).errand? n m).toList := by
  simp [errands_append, errands]

theorem sometime_concat (P : Scene → Move → Prop) (s : Scene) (ms : List Move) (m : Move) :
    s.Sometime P (ms ++ [m]) ↔ s.Sometime P ms ∨ P (s.run ms) m := by
  simp [sometime_append, Sometime]

theorem session_after (s : Scene) (m : Move) : (s.after m).session = s.session := by
  cases m with
  | turn k t =>
    cases hx : s.executions[k]? with
    | none => rw [s.after_turn_none k t hx]
    | some x =>
      obtain ⟨g, statement, desk, he, -⟩ := s.after_turn k x t hx
      rw [he]
      rfl
  | setTimeout seconds =>
    obtain ⟨timeout, he⟩ := s.after_setTimeout_eq seconds
    rw [he]
  | _ => rfl

theorem session_run (s : Scene) (ms : List Move) : (s.run ms).session = s.session :=
  run_keeps (fun s' => s'.session = s.session) (fun s' m h => (s'.session_after m).trans h) s ms rfl

/-- The message that a job gives under the settings of some moment of a run. -/
def Builds (s : Scene) (ms : List Move) (job : Job) (m : Message) : Prop :=
  ∃ pre, pre <+: ms ∧ m.url = (s.run pre).config.url ∧
    job.request (s.run pre).config = .ok m.body

theorem Builds.concat {s : Scene} {ms : List Move} {job : Job} {msg : Message}
    (h : s.Builds ms job msg) (m : Move) : s.Builds (ms ++ [m]) job msg := by
  obtain ⟨pre, hpre, hurl, hbody⟩ := h
  exact ⟨pre, hpre.trans (List.prefix_append _ _), hurl, hbody⟩

/-! ### One move -/

/-- A move ends an errand of an execution, or is one of its steps, or does not move it, which is a
step that rests. -/
theorem traffic_cases (s : Scene) (hq : s.Equipped) (n : Nat) (x : Execution)
    (hx : s.executions[n]? = some x) (m : Move) :
    (∃ e g, s.errand? n m = some e ∧ x.Comes e g ∧ ¬ s.RecordsClear n m ∧
      (s.after m).executions[n]? = some (x.goTo g)) ∨
    ∃ g statement desk, s.errand? n m = none ∧
      x.Advance s.config s.statement s.desk .step g statement desk ∧
      (s.RecordsClear n m ↔ x.stage.isRecording = true ∧ g.isRecording = false ∧
        s.statement.cancelRequested = false) ∧
      (s.after m).executions[n]? = some (x.goTo g) := by
  have hclear : ∀ y, (s.after m).executions[n]? = some y → (s.RecordsClear n m ↔
      x.stage.isRecording = true ∧ y.stage.isRecording = false ∧
        s.statement.cancelRequested = false) := by
    intro y hy
    rw [RecordsClear, s.isAt_of n _ x hx, isAt_of _ n _ y hy]
  have hrest : s.errand? n m = none → (s.after m).executions[n]? = some x →
      ∃ g statement desk, s.errand? n m = none ∧
        x.Advance s.config s.statement s.desk .step g statement desk ∧
        (s.RecordsClear n m ↔ x.stage.isRecording = true ∧ g.isRecording = false ∧
          s.statement.cancelRequested = false) ∧
        (s.after m).executions[n]? = some (x.goTo g) :=
    fun he hk => ⟨x.stage, _, _, he, .rest .step, hclear x hk, hk⟩
  by_cases hm : ∃ t, m = .turn n t
  · obtain ⟨t, rfl⟩ := hm
    have hself := s.after_turn_self n x t hx
    have he : s.errand? n (.turn n t) = x.errand? t s.desk := by simp [errand?, hx]
    obtain ⟨e, g, calls, hxe, hc, ht⟩ | ⟨hxe, rfl⟩ | ⟨hxe, -, ht⟩ :=
      x.take_cases s.config s.statement s.desk (hq n x hx) t
    · rw [ht] at hself
      refine .inl ⟨e, g, he.trans hxe, hc, ?_, hself⟩
      rw [hclear _ hself, hc.not_recording]
      rintro ⟨h, -⟩
      cases h
    · obtain ⟨g, statement, desk, hadv, ha⟩ := s.after_turn n x .step hx
      have hy : (s.after (.turn n .step)).executions[n]? = some (x.goTo g) := by
        rw [hadv]
        exact s.getElem?_advance_self n _ x statement desk hx
      exact .inr ⟨g, statement, desk, he.trans hxe, ha, hclear _ hy, hy⟩
    · rw [ht] at hself
      exact .inr (hrest (he.trans hxe) hself)
  · have hother : ∀ t, m ≠ .turn n t := fun t ht => hm ⟨t, ht⟩
    have he : s.errand? n m = none := by
      cases m with
      | turn k t =>
        have hk : k ≠ n := fun hk => hother t (by rw [hk])
        simp [errand?, hk]
      | _ => rfl
    exact .inr (hrest he (s.getElem?_after n x m hx hother))

theorem calls_concat (n : Nat) (s : Scene) (ms : List Move) (m : Move) :
    s.calls n (ms ++ [m]) = (s.errands n ms).map Errand.demand ++ (s.run ms).calls n [m] := by
  simp [calls, errands_append]

/-- A call that is made is not forgotten: it is waited for until its errand ends. -/
theorem calls_grow (s : Scene) (hq : s.Equipped) (n : Nat) (m : Move) :
    (s.demand? n).toList <+: s.calls n [m] := by
  cases hd : s.demand? n with
  | none => exact List.nil_prefix
  | some demand =>
    obtain ⟨x, hx, hxd⟩ := Option.bind_eq_some_iff.mp hd
    obtain ⟨e, g, he, hc, -, -⟩ | ⟨g, statement, desk, he, ha, -, hy⟩ :=
      s.traffic_cases hq n x hx m
    · have hed : e.demand = demand := Option.some.inj (hc.demand.symm.trans hxd)
      rw [calls, errands, errands, he, ← hed]
      exact List.prefix_append _ _
    · have hg : g = x.stage := ha.rests (by simp [hxd])
      have hyd : (s.after m).demand? n = some demand := by
        rw [hg] at hy
        rw [demand?, hy]
        exact hxd
      rw [calls, errands, errands, he, run_cons, run_nil, hyd]
      exact List.prefix_refl _

theorem calls_prefix (s : Scene) (hq : s.Equipped) (n : Nat) (ms ns : List Move) :
    s.calls n ms <+: s.calls n (ms ++ ns) := by
  induction ns using List.reverseRecOn with
  | nil => simp
  | append_singleton ns m ih =>
    rw [← List.append_assoc, calls_concat]
    have hgrow := (s.run (ms ++ ns)).calls_grow (hq.run _) n m
    exact ih.trans (List.prefix_append_right_inj _ |>.mpr hgrow)

/-! ### From the attempt on -/

/-- What is known of an execution that was attempted before a run: the stage it is at, and how it
came there. -/
structure Tracked (n : Nat) (x : Execution) (s : Scene) (ms : List Move) (g : Stage) : Prop where
  here : (s.run ms).executions[n]? = some (x.goTo g)
  log : (s.errands n ms = [] ∧ ¬ s.Sometime (RecordsClear n) ms ∧ g.isSilent = true) ∨
    ∃ c : Course, c.session = x.session ∧ c.timeout = x.timeout ∧
      s.Builds ms x.job c.message ∧ c.Fits (s.Sometime (RecordsClear n) ms) (s.errands n ms) g

theorem Tracked.concat {n : Nat} {x : Execution} {s : Scene} {ms : List Move} {g : Stage}
    (h : s.Tracked n x ms g) (hq : (s.run ms).Equipped) (m : Move) :
    ∃ g', s.Tracked n x (ms ++ [m]) g' := by
  obtain ⟨hx, hlog⟩ := h
  obtain ⟨e, g', he, hc, hr, hy⟩ | ⟨g', statement, desk, he, ha, hr, hy⟩ :=
    (s.run ms).traffic_cases hq n _ hx m
  · refine ⟨g', by rw [run_append]; exact hy, ?_⟩
    have hclear : s.Sometime (RecordsClear n) (ms ++ [m]) = s.Sometime (RecordsClear n) ms := by
      simp [sometime_concat, hr]
    rw [errands_concat, he, hclear]
    obtain ⟨-, -, hs⟩ | ⟨c, hs, ht, hb, hf⟩ := hlog
    · exact absurd hc (Execution.not_comes_of_silent hs)
    · have hfit := Course.Fits.comes (x := x.goTo g) hf hs.symm ht.symm hc
      exact .inr ⟨c, hs, ht, hb.concat m, hfit⟩
  · refine ⟨g', by rw [run_append]; exact hy, ?_⟩
    rw [errands_concat, he, Option.toList_none, List.append_nil, sometime_concat, hr]
    obtain ⟨hl, hn, hs⟩ | ⟨c, hs, ht, hb, hf⟩ := hlog
    · have hno : ¬ (s.Sometime (RecordsClear n) ms ∨ (x.goTo g).stage.isRecording = true ∧
          g'.isRecording = false ∧ (s.run ms).statement.cancelRequested = false) := by
        rintro (hp | ⟨hrec, -⟩)
        · exact hn hp
        · rw [Execution.goTo_stage, Stage.not_recording_of_silent g hs] at hrec
          cases hrec
      obtain hs' | ⟨body, hbody, hg⟩ := ha.silent hs
      · exact .inl ⟨hl, hno, hs'⟩
      · have hb : s.Builds (ms ++ [m]) x.job ⟨(s.run ms).config.url, body⟩ :=
          ⟨ms, List.prefix_append _ _, rfl, hbody⟩
        refine .inr ⟨⟨x.session, x.timeout, _⟩, rfl, rfl, hb, ?_⟩
        obtain rfl | ⟨rfl, hse⟩ := hg
        · exact ⟨rfl, hl, hno⟩
        · have hse : x.session = none := hse
          exact ⟨rfl, by simp [Course.missed, hse, hl], hno⟩
    · have hfit := Course.Fits.step (x := x.goTo g) hf hs.symm ha
      exact .inr ⟨c, hs, ht, hb.concat m, hfit⟩

theorem Tracked.run {n : Nat} {x : Execution} {s : Scene} (h : ∃ g, s.Tracked n x [] g)
    (hq : s.Equipped) (ms : List Move) : ∃ g, s.Tracked n x ms g := by
  induction ms using List.reverseRecOn with
  | nil => exact h
  | append_singleton ms m ih =>
    obtain ⟨g, hg⟩ := ih
    exact hg.concat (hq.run ms) m

theorem tracked_attempted (s : Scene) (job : Job) :
    ∃ g, (s.after (.attempt job)).Tracked s.executions.length (s.attempted job) [] g := by
  refine ⟨(s.attempted job).stage, ?_, .inl ⟨rfl, id, ?_⟩⟩
  · simp [Scene.after, Execution.goTo]
  · obtain ha | ⟨e, ha⟩ := s.attempted_stage job
    · rw [ha]
      rfl
    · rw [ha]
      rfl

/-- The calls of an execution that was attempted before a run: none, or those of a plan whose
message was built on the way. -/
theorem Tracked.seen {n : Nat} {x : Execution} {s : Scene} {ms : List Move} {g : Stage}
    (h : s.Tracked n x ms g) (hq : (s.run ms).Equipped) :
    (s.errands n ms = [] ∧ (s.run ms).demand? n = none ∧ ¬ s.Sometime (RecordsClear n) ms) ∨
    ∃ c : Course, c.session = x.session ∧ c.timeout = x.timeout ∧
      s.Builds ms x.job c.message ∧
      c.Seen (s.Sometime (RecordsClear n) ms) (s.errands n ms) ((s.run ms).demand? n) := by
  obtain ⟨hx, ⟨hl, hn, hs⟩ | ⟨c, hs, ht, hb, hf⟩⟩ := h
  · have hd : (x.goTo g).demand? = none := by
      cases g <;> simp_all [Execution.demand?, Stage.isSilent]
    exact .inl ⟨hl, by simp [demand?, hx, hd], hn⟩
  · have hd : (s.run ms).demand? n = (x.goTo g).demand? := by simp [demand?, hx]
    rw [hd]
    exact .inr ⟨c, hs, ht, hb, hf.seen hs.symm ht.symm (hq n _ hx)⟩

/-- An execution that succeeds had a hit in the cache, or made all calls of the plan. -/
theorem Tracked.whole {n : Nat} {x : Execution} {s : Scene} {ms : List Move} {g : Stage}
    (h : s.Tracked n x ms g) (answer : Answer)
    (ha : (s.run ms).answer? n = some (.ok answer)) :
    (∃ id m response, (⟨.get id m, .got (.ok (some response))⟩ : Errand) ∈ s.errands n ms) ∨
    ∃ c : Course, c.session = x.session ∧ c.timeout = x.timeout ∧
      ∃ call response, s.calls n ms = c.plan call response := by
  have hd := demand_of_answer _ n _ ha
  obtain ⟨hx, hlog⟩ := h
  have hg : g = .returned (.ok answer) := by
    rw [answer?, hx] at ha
    cases g <;> simp_all [Execution.result?]
  subst hg
  obtain ⟨-, -, hs⟩ | ⟨c, hs, ht, -, -, hw⟩ := hlog
  · cases hs
  · obtain ⟨id, response, hl⟩ | ⟨call, response, hl⟩ := hw
    · refine .inl ⟨id, c.message, response, ?_⟩
      rw [hl]
      exact .head _
    · refine .inr ⟨c, hs, ht, call, response, ?_⟩
      rw [calls, hd, Option.toList_none, List.append_nil, hl]

end Scene

end OlapClient
