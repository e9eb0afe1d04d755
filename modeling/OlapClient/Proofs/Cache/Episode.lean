import OlapClient.Cache.Recorder
import OlapClient.Proofs.Statement.Traffic
import OlapClient.Statement.Run

/-!
# Executions with a cache

One execution after the other is run on a connection with a response cache. What others do between
the turns, what the transport replies and what the clock shows is left open. If the cache answers
from the exchanges that were put into it and takes each one, then an execution goes one of a few
ways, and what it comes to follows from the response, wherever that came from.
-/

namespace OlapClient

/-- What happens outside: what others do before an action, what the transport replies, and the
time, each by the number of the turn. -/
structure Circumstances where
  others : Nat → Config × Statement × Desk → Config × Statement × Desk
  submit : Nat → Except ClientError Nat
  wait : Nat → Except ClientError Bytes
  now : Nat → Moment

structure Site (κ : Type) where
  config : Config := {}
  statement : Statement := {}
  desk : Desk := {}
  cache : Recorder κ := {}
  files : Files := {}
  turn : Nat := 0
  /-- The errands of the execution under way. -/
  errands : List Errand := []
  /-- The cell sets that the execution under way put on the desk, with their numbers. -/
  opened : List (CellSet × Nat) := []

namespace Circumstances

variable {κ : Type} [SqlLibrary κ]

/-- The reply to a call outside, and the cache and the files that it leaves. -/
def reply (c : Circumstances) (w : Site κ) : Demand → Reply × Recorder κ × Files
  | .get id m =>
    let (_, files, cache, found) := w.cache.get w.files (c.now w.turn) id m.url m.body
    (.got (found.mapError .ofCache), cache, files)
  | .submit _ => (.submitted (c.submit w.turn), w.cache, w.files)
  | .wait _ _ => (.waited (c.wait w.turn), w.cache, w.files)
  | .put id m response =>
    let (_, files, cache, stored) :=
      w.cache.put w.files (c.now w.turn) id m.url m.body response
    (.stored (stored.mapError .ofCache), cache, files)

/-- The cell sets that an action put on the desk. -/
def added (before after : Desk) : List (CellSet × Nat) :=
  (after.cellSets.drop before.cellSets.length).zipIdx before.cellSets.length

/-- A host that lets others act first, and keeps account of errands and of cell sets. -/
def host (c : Circumstances) : Host (StateM (Site κ)) where
  act f := fun w =>
    let (config, s, d) := c.others w.turn (w.config, w.statement, w.desk)
    let (_, a, s', d') := f config s d
    (a, { w with
      config := config, statement := s', desk := d', turn := w.turn + 1
      opened := w.opened ++ added d d' })
  call demand := fun w =>
    let (reply, cache, files) := c.reply w demand
    (reply, { w with
      cache := cache, files := files, turn := w.turn + 1
      errands := w.errands ++ [⟨demand, reply⟩] })
  report _ := pure ()

end Circumstances

/-! ### Episodes -/

inductive Content where
  | rowset (r : Rowset)
  | cells (s : Option CellSet)

def Rowset.withoutStatistics (r : Rowset) : Rowset := { r with statistics := {} }

def CellSet.withoutStatistics (s : CellSet) : CellSet := { s with statistics := {} }

/-- What an answer holds, if these cell sets are on the desk. -/
def Answer.content (opened : List (CellSet × Nat)) : Answer → Content
  | .rowset r => .rowset r.withoutStatistics
  | .cellSet n =>
    .cells ((opened.find? fun entry => entry.2 == n).map fun entry => entry.1.withoutStatistics)

/-- An execution that is over, with the errands that it made and the cell sets that it put on the
desk. -/
structure Episode where
  job : Job
  errands : List Errand
  result : Except ClientError Answer
  opened : List (CellSet × Nat)

namespace Episode

def outcome (e : Episode) : Except ClientError Content := e.result.map (Answer.content e.opened)

/-- The execution looked this request up. -/
def Requests (e : Episode) (m : Message) : Prop :=
  ∃ errand ∈ e.errands, ∃ id, errand.demand = .get id m

def Submits (e : Episode) (m : Message) : Prop :=
  ∃ errand ∈ e.errands, errand.demand = .submit m

/-- The transport accepted the request and answered it, and the execution was not cancelled. -/
def Answered (e : Episode) (m : Message) (response : Bytes) : Prop :=
  (∃ call bound, (⟨.submit m, .submitted (.ok call)⟩ : Errand) ∈ e.errands ∧
    (⟨.wait call bound, .waited (.ok response)⟩ : Errand) ∈ e.errands) ∧
    e.result ≠ .error .cancelled

end Episode

namespace Circumstances

variable {κ : Type} [SqlLibrary κ]

def episode (c : Circumstances) (id : String) (job : Job) (w : Site κ) : Episode × Site κ :=
  let (result, w) := Statement.execute c.host job (some id) { w with errands := [], opened := [] }
  (⟨job, w.errands, result, w.opened⟩, w)

def episodes (c : Circumstances) (id : String) : List Job → Site κ → List Episode × Site κ
  | [], w => ([], w)
  | job :: jobs, w =>
    let (e, w) := c.episode id job w
    let (es, w) := c.episodes id jobs w
    (e :: es, w)

end Circumstances

/-- What a job makes of a response. -/
def Job.content (job : Job) (response : Bytes) : Except ClientError Content :=
  if job.isMultidimensional then
    (CellSet.ofResponse response).map fun s => .cells (some s.withoutStatistics)
  else (Rowset.ofResponse response).map fun r => .rowset r.withoutStatistics

theorem Execution.content_of_readStage (job : Job) (response : Bytes) (cacheHit : Bool) :
    (∀ e, readStage job response cacheHit = .error e → job.content response = .error e) ∧
    (∀ r, readStage job response cacheHit = .ok (.returned (.ok (.rowset r))) →
      job.content response = .ok (.rowset r.withoutStatistics)) ∧
    ∀ s, readStage job response cacheHit = .ok (.opening s) →
      job.content response = .ok (.cells (some s.withoutStatistics)) := by
  unfold readStage Job.content
  split
  · cases CellSet.ofResponse response with
    | error e =>
      refine ⟨fun _ h => ?_, fun _ h => (by cases h), fun _ h => (by cases h)⟩
      cases h
      rfl
    | ok s =>
      refine ⟨fun _ h => (by cases h), fun _ h => (by cases h), fun _ h => ?_⟩
      cases h
      rfl
  · cases Rowset.ofResponse response with
    | error e =>
      refine ⟨fun _ h => ?_, fun _ h => (by cases h), fun _ h => (by cases h)⟩
      cases h
      rfl
    | ok r =>
      refine ⟨fun _ h => (by cases h), fun _ h => ?_, fun _ h => (by cases h)⟩
      cases h
      rfl

/-! ### How an execution goes -/

abbrev Exchanges := List (Message × Bytes)

/-- The request was built for the job, under the settings of some moment. -/
def Job.Asks (job : Job) (m : Message) : Prop :=
  ∃ config, job.request config = .ok m.body ∧ config.url = m.url

section

variable (found : Message → Option Bytes) (id : String) (timeout : Option Duration) (job : Job)

def course (m : Message) : Course := ⟨some id, timeout, m⟩

/-- Where a response comes from: the cache, or the transport and then the cache takes it. -/
inductive Sourced (m : Message) (response : Bytes) : List Errand → Exchanges → Prop where
  | hit (hf : found m = some response) :
      Sourced m response [⟨.get id m, .got (.ok (some response))⟩] []
  | fetched (hf : found m = none) (call : Nat) :
      Sourced m response ((course id timeout m).awaited call (.ok response) ++
        [⟨.put id m response, .stored (.ok ())⟩]) [(m, response)]

/-- How an execution ends: its errands, what the caller gets, and what the cache takes. -/
inductive Fate : List Errand → Except ClientError Content → Exchanges → Prop where
  | refused (e : ClientError) : Fate [] (.error e) []
  | answered {m : Message} (hm : job.Asks m) {response : Bytes} {log : List Errand}
      {taken : Exchanges} (hs : Sourced found id timeout m response log taken)
      {outcome : Except ClientError Content}
      (ho : outcome = .error (.closed .statement) ∨ outcome = job.content response) :
      Fate log outcome taken
  | dropped {m : Message} (hm : job.Asks m) {response : Bytes} (hf : found m = some response) :
      Fate [⟨.get id m, .got (.ok (some response))⟩] (.error .cancelled) []
  | missed {m : Message} (hm : job.Asks m) (hf : found m = none) :
      Fate (course id timeout m).missed (.error .cancelled) []
  | rejected {m : Message} (hm : job.Asks m) (hf : found m = none) (e : ClientError) :
      Fate ((course id timeout m).missed ++ [⟨.submit m, .submitted (.error e)⟩]) (.error e) []
  | unanswered {m : Message} (hm : job.Asks m) (hf : found m = none) (call : Nat)
      (result : Except ClientError Bytes) (e : ClientError)
      (he : e = .cancelled ∨ result = .error e) :
      Fate ((course id timeout m).awaited call result) (.error e) []

/-- How far an execution is at a stage: its errands, its cell sets, and what the cache took. -/
inductive Ahead : List Errand → List (CellSet × Nat) → Exchanges → Stage → Prop where
  | admitted : Ahead [] [] [] .admitted
  | looking {m : Message} (hm : job.Asks m) : Ahead [] [] [] (.looking m)
  | found {m : Message} (hm : job.Asks m) {response : Bytes} (hf : found m = some response) :
      Ahead [⟨.get id m, .got (.ok (some response))⟩] [] [] (.found response)
  | checking {m : Message} (hm : job.Asks m) (hf : found m = none) :
      Ahead (course id timeout m).missed [] [] (.checking m)
  | submitting {m : Message} (hm : job.Asks m) (hf : found m = none) :
      Ahead (course id timeout m).missed [] [] (.submitting m)
  | registering {m : Message} (hm : job.Asks m) (hf : found m = none) (call : Nat) :
      Ahead ((course id timeout m).accepted call) [] [] (.registering m call)
  | waiting {m : Message} (hm : job.Asks m) (hf : found m = none) (call : Nat) :
      Ahead ((course id timeout m).accepted call) [] [] (.waiting m call)
  | recording {m : Message} (hm : job.Asks m) (hf : found m = none) (call : Nat)
      (result : Except ClientError Bytes) :
      Ahead ((course id timeout m).awaited call result) [] [] (.recording m call result)
  | storing {m : Message} (hm : job.Asks m) (hf : found m = none) (call : Nat)
      (response : Bytes) :
      Ahead ((course id timeout m).awaited call (.ok response)) [] [] (.storing m response)
  | reading {m : Message} (hm : job.Asks m) {response : Bytes} {log : List Errand}
      {taken : Exchanges} (hs : Sourced found id timeout m response log taken)
      (cacheHit : Bool) : Ahead log [] taken (.reading response cacheHit)
  | opening {m : Message} (hm : job.Asks m) {response : Bytes} {log : List Errand}
      {taken : Exchanges} (hs : Sourced found id timeout m response log taken) {cells : CellSet}
      (hc : job.content response = .ok (.cells (some cells.withoutStatistics))) :
      Ahead log [] taken (.opening cells)
  | failing {log : List Errand} {e : ClientError}
      (hf : Fate found id timeout job log (.error e) []) : Ahead log [] [] (.failing e)
  | returned {log : List Errand} {opened : List (CellSet × Nat)} {taken : Exchanges}
      {result : Except ClientError Answer}
      (hf : Fate found id timeout job log (result.map (Answer.content opened)) taken) :
      Ahead log opened taken (.returned result)

end

/-- A cache that answers from the exchanges that it took, and takes each exchange. The first
relation says when it has taken which. -/
structure Serves {κ : Type} [SqlLibrary κ] (c : Circumstances) (id : String)
    (Took : Exchanges → Recorder κ → Prop) (found : Exchanges → Message → Option Bytes) :
    Prop where
  get : ∀ {taken r}, Took taken r → ∀ files n m,
    (r.get files (c.now n) id m.url m.body).2 = (files, r, .ok (found taken m))
  put : ∀ {taken r}, Took taken r → ∀ files n m response, ∃ r',
    (r.put files (c.now n) id m.url m.body response).2 = (files, r', .ok ()) ∧
      Took (taken ++ [(m, response)]) r'

def Errand.taken (e : Errand) : Exchanges :=
  match e.demand with
  | .put _ m response => [(m, response)]
  | _ => []

def Errand.Served (found : Message → Option Bytes) (e : Errand) : Prop :=
  match e.demand with
  | .get _ m => e.reply = .got (.ok (found m))
  | .put _ _ _ => e.reply = .stored (.ok ())
  | _ => True

/-! ### Turns -/

section

variable {κ : Type} [SqlLibrary κ] {c : Circumstances} {id : String} {timeout : Option Duration}
  {job : Job} {found : Message → Option Bytes} {x : Execution} {log : List Errand}
  {opened : List (CellSet × Nat)} {taken : Exchanges}

theorem equipped_of_session (h : x.session = some id) : x.Equipped :=
  ⟨fun _ _ => by rw [h]; rfl, fun _ _ _ => by rw [h]; rfl⟩

theorem reply_takes (w : Site κ) (demand : Demand) : demand.takes (c.reply w demand).1 = true := by
  cases demand <;> rfl

theorem turn_of_demand (w : Site κ) (hx : x.Equipped) {demand : Demand}
    (hd : x.demand? = some demand) :
    ∃ g, x.Comes ⟨demand, (c.reply w demand).1⟩ g ∧ x.turn c.host w = (x.goTo g,
      { w with
        cache := (c.reply w demand).2.1, files := (c.reply w demand).2.2, turn := w.turn + 1
        errands := w.errands ++ [⟨demand, (c.reply w demand).1⟩] }) := by
  have herrand : x.errand? (.reply (c.reply w demand).1) w.desk =
      some ⟨demand, (c.reply w demand).1⟩ := by
    simp [Execution.errand?, hd, Execution.reply?, reply_takes]
  obtain ⟨hnone, -⟩ | ⟨e, g, he, hcomes, hresume⟩ := x.resume_cases w.desk hx (c.reply w demand).1
  · rw [herrand] at hnone
    cases hnone
  obtain rfl := Option.some.inj (herrand.symm.trans he)
  refine ⟨g, hcomes, ?_⟩
  rw [← hresume]
  simp only [Execution.turn, hd]
  rfl

theorem turn_of_step (w : Site κ) (hd : x.demand? = none) {config : Config} {s : Statement}
    {d : Desk} (hothers : c.others w.turn (w.config, w.statement, w.desk) = (config, s, d)) :
    x.turn c.host w = ((x.step config s d).2.1,
      { w with
        config := config, statement := (x.step config s d).2.2.1
        desk := (x.step config s d).2.2.2, turn := w.turn + 1
        opened := w.opened ++ Circumstances.added d (x.step config s d).2.2.2 }) := by
  simp only [Execution.turn, hd, Circumstances.host, hothers]

theorem stage_of_result {result : Except ClientError Answer} (h : x.result? = some result) :
    x.stage = .returned result := by
  cases hs : x.stage <;> simp_all [Execution.result?]

theorem turnsLeft_of_result {result : Except ClientError Answer} (h : x.result? = some result) :
    x.stage.turnsLeft = 0 := by
  rw [stage_of_result h]
  rfl

theorem step_of_result {result : Except ClientError Answer} (h : x.result? = some result)
    (config : Config) (s : Statement) (d : Desk) : (x.step config s d).2 = (x, s, d) := by
  rw [Execution.step, stage_of_result h]

theorem stage_of_over (h : x.stage.turnsLeft = 0) : ∃ result, x.stage = .returned result := by
  cases hs : x.stage <;> simp_all [Stage.turnsLeft]

theorem turn_session (w : Site κ) (h : x.session = some id) :
    (x.turn c.host w).1.session = some id := by
  cases hd : x.demand? with
  | some demand =>
    obtain ⟨g, -, hturn⟩ := turn_of_demand (c := c) w (equipped_of_session h) hd
    rw [hturn]
    exact h
  | none =>
    rcases hothers : c.others w.turn (w.config, w.statement, w.desk) with ⟨config, s, d⟩
    obtain ⟨g, s', d', hstep, -⟩ := x.step_listed config s d
    rw [turn_of_step w hd hothers, hstep]
    exact h

/-- A turn brings an execution nearer to its end, unless it is over. -/
theorem turn_turnsLeft (w : Site κ) (h : x.session = some id) :
    (x.turn c.host w).1.stage.turnsLeft ≤ x.stage.turnsLeft - 1 := by
  cases hd : x.demand? with
  | some demand =>
    obtain ⟨g, hcomes, hturn⟩ := turn_of_demand (c := c) w (equipped_of_session h) hd
    rw [hturn]
    exact Nat.le_sub_one_of_lt hcomes.turnsLeft_lt
  | none =>
    rcases hothers : c.others w.turn (w.config, w.statement, w.desk) with ⟨config, s, d⟩
    rw [turn_of_step w hd hothers]
    cases hr : x.result? with
    | none => exact Nat.le_sub_one_of_lt (x.step_lt config s d (equipped_of_session h) hd hr)
    | some result =>
      have hover : (x.step config s d).2.1.stage.turnsLeft = 0 := by
        rw [step_of_result hr, turnsLeft_of_result hr]
      exact Nat.le_trans (Nat.le_of_eq hover) (Nat.zero_le _)

theorem turns_over (w : Site κ) (n : Nat) (h : x.session = some id) (hn : x.stage.turnsLeft ≤ n) :
    ∃ result, (x.turns c.host n w).1.stage = .returned result := by
  induction n generalizing x w with
  | zero => exact stage_of_over (Nat.le_zero.mp hn)
  | succ n ih =>
    have hle := turn_turnsLeft (c := c) w h
    exact ih _ (turn_session w h) (Nat.le_trans hle (Nat.sub_le_of_le_add hn))

/-- What each turn keeps, turns keep. -/
theorem turns_keep {P : Execution → Site κ → Prop}
    (hturn : ∀ x w, P x w → P (x.turn c.host w).1 (x.turn c.host w).2) (n : Nat) {w : Site κ}
    (h : P x w) : P (x.turns c.host n w).1 (x.turns c.host n w).2 := by
  induction n generalizing x w with
  | zero => exact h
  | succ n ih => exact ih (hturn x w h)

theorem added_nil (d d' : Desk) (h : d'.cellSets.length = d.cellSets.length) :
    Circumstances.added d d' = [] := by
  rw [Circumstances.added, ← h, List.drop_length]
  rfl

/-- A step of an execution keeps its account. -/
theorem Ahead.step {config : Config} {s s' : Statement} {d d' : Desk} {g : Stage}
    (h : Ahead found id timeout job log opened taken x.stage) (hjob : x.job = job)
    (hsession : x.session = some id) (ha : x.Advance config s d .step g s' d') :
    Ahead found id timeout job log (opened ++ Circumstances.added d d') taken g := by
  -- the stage tells how far the account is; only the handing out of a cell set adds one
  cases ha with
  | rest =>
    rw [added_nil d d rfl, List.append_nil]
    exact h
  | unbuilt hx e he =>
    rw [hx] at h
    cases h
    rw [added_nil d d rfl]
    exact .failing (.refused e)
  | looks hx body hb hs =>
    rw [hx] at h
    cases h
    rw [added_nil d d rfl]
    exact .looking ⟨config, hjob ▸ hb, rfl⟩
  | skips hx body hb hs =>
    rw [hsession] at hs
    cases hs
  | foundCancelled response hx hf =>
    rw [hx] at h
    cases h with
    | found hm hfound =>
      rw [added_nil d d rfl]
      exact .failing (.dropped hm hfound)
  | foundUsed response hx hf =>
    rw [hx] at h
    cases h with
    | found hm hfound =>
      rw [added_nil d d rfl]
      exact .reading hm (.hit hfound) true
  | checkCancelled m hx hf =>
    rw [hx] at h
    cases h with
    | checking hm hfound =>
      rw [added_nil d d rfl]
      exact .failing (.missed hm hfound)
  | submits m hx hf =>
    rw [hx] at h
    cases h with
    | checking hm hfound =>
      rw [added_nil d d rfl]
      exact .submitting hm hfound
  | registers m call hx hf =>
    rw [hx] at h
    cases h with
    | registering hm hfound =>
      rw [added_nil d d rfl]
      exact .waiting hm hfound call
  | registersCancelled m call hx hf =>
    rw [hx] at h
    cases h with
    | registering hm hfound =>
      rw [added_nil d (d.cancelCall call).1 rfl]
      exact .waiting hm hfound call
  | recordsCancelled m call result hx hf =>
    rw [hx] at h
    cases h with
    | recording hm hfound =>
      rw [added_nil d d rfl]
      exact .failing (.unanswered hm hfound call result .cancelled (.inl rfl))
  | recordsFailure m call e hx hf =>
    rw [hx] at h
    cases h with
    | recording hm hfound =>
      have hsame : (d.afterFailure call e).cellSets.length = d.cellSets.length := by
        cases e <;> rfl
      rw [added_nil d _ hsame]
      exact .failing (.unanswered hm hfound call _ e (.inr rfl))
  | recordsForCache m call response hx hf hs =>
    rw [hx] at h
    cases h with
    | recording hm hfound =>
      rw [added_nil d d rfl]
      exact .storing hm hfound call response
  | records m call response hx hf hs =>
    rw [hsession] at hs
    cases hs
  | unreadable response cacheHit hx e hr =>
    rw [hx] at h
    cases h with
    | reading hm hsourced =>
      rw [hjob] at hr
      rw [added_nil d d rfl]
      refine .returned (.answered hm hsourced (.inr ?_))
      rw [(Execution.content_of_readStage job response cacheHit).1 e hr]
      rfl
  | readsRows response cacheHit hx hj r hr =>
    rw [hx] at h
    cases h with
    | reading hm hsourced =>
      rw [hjob] at hr
      rw [added_nil d d rfl]
      refine .returned (.answered hm hsourced (.inr ?_))
      rw [(Execution.content_of_readStage job response cacheHit).2.1 r hr]
      rfl
  | readsCells response cacheHit hx hj cells hr =>
    rw [hx] at h
    cases h with
    | reading hm hsourced =>
      rw [hjob] at hr
      rw [added_nil d d rfl]
      exact .opening hm hsourced
        ((Execution.content_of_readStage job response cacheHit).2.2 cells hr)
  | fails e hx =>
    rw [hx] at h
    cases h with
    | failing hfate =>
      rw [added_nil d d rfl]
      exact .returned hfate
  | refusesCells cells hx hc =>
    rw [hx] at h
    cases h with
    | opening hm hsourced =>
      rw [added_nil d d rfl]
      exact .returned (.answered hm hsourced (.inl rfl))
  | opensCells cells hx hc =>
    rw [hx] at h
    cases h with
    | opening hm hsourced hcontent =>
      have hadded : Circumstances.added d ((d.closeLeftOpen s.openCellSet).addCellSet cells).1 =
          [(cells, d.cellSets.length)] := by
        rw [Circumstances.added, Desk.addCellSet, ← closeLeftOpen_length d s.openCellSet,
          List.drop_left]
        rfl
      rw [hadded, List.nil_append]
      refine .returned (.answered hm hsourced (.inr ?_))
      rw [hcontent]
      simp [Except.map, Answer.content]

/-- The end of an errand keeps the account of an execution. -/
theorem Ahead.comes {e : Errand} {g : Stage}
    (h : Ahead found id timeout job log opened taken x.stage) (hsession : x.session = some id)
    (htimeout : x.timeout = timeout) (hc : x.Comes e g) (hserved : taken = [] → e.Served found) :
    Ahead found id timeout job (log ++ [e]) opened (taken ++ e.taken) g := by
  cases hc with
  | lookFails m hx id' hid e =>
    rw [hx] at h
    cases h
    cases hserved rfl
  | hits m hx id' hid response =>
    rw [hx] at h
    cases h with
    | looking hm =>
      obtain rfl := Option.some.inj (hsession.symm.trans hid)
      have hfound : some response = found m := Except.ok.inj (Reply.got.inj (hserved rfl))
      exact .found hm hfound.symm
  | misses m hx id' hid =>
    rw [hx] at h
    cases h with
    | looking hm =>
      obtain rfl := Option.some.inj (hsession.symm.trans hid)
      have hfound : none = found m := Except.ok.inj (Reply.got.inj (hserved rfl))
      exact .checking hm hfound.symm
  | submitFails m hx e =>
    rw [hx] at h
    cases h with
    | submitting hm hfound => exact .failing (.rejected hm hfound e)
  | accepted m hx call =>
    rw [hx] at h
    cases h with
    | submitting hm hfound => exact .registering hm hfound call
  | waited m call hx result =>
    rw [hx] at h
    cases h with
    | waiting hm hfound =>
      rw [htimeout]
      exact .recording hm hfound call result
  | storeFails m response hx id' hid e =>
    rw [hx] at h
    cases h
    cases hserved rfl
  | stores m response hx id' hid =>
    rw [hx] at h
    cases h with
    | storing hm hfound call =>
      obtain rfl := Option.some.inj (hsession.symm.trans hid)
      exact .reading hm (.fetched hfound call) false

theorem session_of_comes {e : Errand} {g : Stage} (hsession : x.session = some id)
    (hc : x.Comes e g) (i : String)
    (hi : (∃ m, e.demand = .get i m) ∨ ∃ m response, e.demand = .put i m response) : i = id := by
  have hx : x.session = some i := by
    cases hc <;> simp_all
  exact Option.some.inj (hx.symm.trans hsession)

/-- What is known of an execution between its turns. -/
structure Underway (c : Circumstances) (id : String) (Took : Exchanges → Recorder κ → Prop)
    (found : Exchanges → Message → Option Bytes) (before : Exchanges) (files : Files)
    (job : Job) (timeout : Option Duration) (x : Execution) (w : Site κ) : Prop where
  sameJob : x.job = job
  session : x.session = some id
  sameTimeout : x.timeout = timeout
  sameFiles : w.files = files
  account : ∃ taken, Took (before ++ taken) w.cache ∧
    Ahead (found before) id timeout job w.errands w.opened taken x.stage

namespace Underway

variable {Took : Exchanges → Recorder κ → Prop} {found : Exchanges → Message → Option Bytes}
  {before : Exchanges} {files : Files} {w : Site κ}

theorem reply_of_demand (hserves : Serves c id Took found) {taken : Exchanges}
    (htook : Took taken w.cache) (demand : Demand)
    (hid : ∀ i, (∃ m, demand = .get i m) ∨ (∃ m response, demand = .put i m response) → i = id) :
    Errand.Served (found taken) ⟨demand, (c.reply w demand).1⟩ ∧
      Took (taken ++ Errand.taken ⟨demand, (c.reply w demand).1⟩) (c.reply w demand).2.1 ∧
      (c.reply w demand).2.2 = w.files := by
  have hsame : Took (taken ++ []) w.cache := by
    rw [List.append_nil]
    exact htook
  cases demand with
  | get i m =>
    obtain rfl := hid i (.inl ⟨m, rfl⟩)
    have hget := hserves.get htook w.files w.turn m
    have hreply : c.reply w (.get i m) = (.got (.ok (found taken m)), w.cache, w.files) := by
      simp only [Circumstances.reply, hget]
      rfl
    rw [hreply]
    exact ⟨rfl, hsame, rfl⟩
  | submit m => exact ⟨trivial, hsame, rfl⟩
  | wait call bound => exact ⟨trivial, hsame, rfl⟩
  | put i m response =>
    obtain rfl := hid i (.inr ⟨m, response, rfl⟩)
    obtain ⟨r, hput, hr⟩ := hserves.put htook w.files w.turn m response
    have hreply : c.reply w (.put i m response) = (.stored (.ok ()), r, w.files) := by
      simp only [Circumstances.reply, hput]
      rfl
    rw [hreply]
    exact ⟨rfl, hr, rfl⟩

theorem turn_call (hserves : Serves c id Took found)
    (h : Underway c id Took found before files job timeout x w) {demand : Demand}
    (hd : x.demand? = some demand) :
    Underway c id Took found before files job timeout (x.turn c.host w).1
      (x.turn c.host w).2 := by
  obtain ⟨taken, htook, hahead⟩ := h.account
  obtain ⟨g, hcomes, hturn⟩ := turn_of_demand w (equipped_of_session h.session) hd
  -- the cache replies from what it took, but an execution looks up before it has anything taken
  obtain ⟨hserved, htook', hfiles⟩ := reply_of_demand hserves htook demand
    fun i hi => session_of_comes h.session hcomes i hi
  rw [hturn]
  refine ⟨h.sameJob, h.session, h.sameTimeout, hfiles.trans h.sameFiles,
    taken ++ Errand.taken ⟨demand, (c.reply w demand).1⟩, ?_, ?_⟩
  · rw [← List.append_assoc]
    exact htook'
  · refine hahead.comes h.session h.sameTimeout hcomes ?_
    rintro rfl
    rw [List.append_nil] at hserved
    exact hserved

theorem turn_step (h : Underway c id Took found before files job timeout x w)
    (hd : x.demand? = none) :
    Underway c id Took found before files job timeout (x.turn c.host w).1
      (x.turn c.host w).2 := by
  rcases hothers : c.others w.turn (w.config, w.statement, w.desk) with ⟨config, s, d⟩
  have hturn := turn_of_step w hd hothers
  obtain ⟨g, s', d', hstep, ha⟩ := x.step_listed config s d
  obtain ⟨taken, htook, hahead⟩ := h.account
  rw [hturn, hstep]
  exact ⟨h.sameJob, h.session, h.sameTimeout, h.sameFiles, taken, htook,
    hahead.step h.sameJob h.session ha⟩

theorem turn (hserves : Serves c id Took found) (x : Execution) (w : Site κ)
    (h : Underway c id Took found before files job timeout x w) :
    Underway c id Took found before files job timeout (x.turn c.host w).1
      (x.turn c.host w).2 := by
  cases hd : x.demand? with
  | some demand => exact h.turn_call hserves hd
  | none => exact h.turn_step hd

end Underway

/-! ### Whole executions -/

variable {Took : Exchanges → Recorder κ → Prop} {found : Exchanges → Message → Option Bytes}
  {before : Exchanges} {w : Site κ}

theorem Ahead.fate {found : Message → Option Bytes} {result : Except ClientError Answer}
    (h : Ahead found id timeout job log opened taken (.returned result)) :
    Fate found id timeout job log (result.map (Answer.content opened)) taken := by
  cases h with
  | returned hf => exact hf

theorem start_cases (id : String) (s : Statement) (d : Desk) (job : Job) :
    (s.start d job (some id)).2.2.2.cellSets.length = d.cellSets.length ∧
      ((∃ e, (s.start d job (some id)).2.1 = .error e) ∨
        (s.start d job (some id)).2.1 = .ok ⟨job, s.timeout, some id, .admitted⟩) := by
  have hway : (d.makeWay s job).cellSets.length = d.cellSets.length := by
    unfold Desk.makeWay
    split
    · exact closeLeftOpen_length d s.openCellSet
    · rfl
  cases hc : s.isClosed with
  | true =>
    rw [s.start_closed d job (some id) hc]
    exact ⟨rfl, .inl ⟨_, rfl⟩⟩
  | false =>
    by_cases hp : s.phase = .submitted
    · rw [s.start_busy d job (some id) hc hp]
      exact ⟨rfl, .inl ⟨_, rfl⟩⟩
    · cases hf : s.cancelRequested with
      | true =>
        rw [s.start_cancelled d job (some id) hc hp hf]
        exact ⟨hway, .inl ⟨_, rfl⟩⟩
      | false =>
        rw [s.start_admitted d job (some id) hc hp hf]
        exact ⟨hway, .inr rfl⟩

theorem execute_refused {σ : Type} (host : Host (StateM σ)) (job : Job) (session : Option String)
    {w w' : σ} {e : ClientError}
    (hact : host.act (fun _ s d => s.start d job session) w = (.error e, w')) :
    Statement.execute host job session w = (.error e, w') := by
  simp only [Statement.execute, bind, StateT.bind, hact]
  rfl

theorem execute_admitted {σ : Type} (host : Host (StateM σ)) (job : Job)
    (session : Option String) {w w' : σ} {x : Execution}
    (hact : host.act (fun _ s d => s.start d job session) w = (.ok x, w')) :
    Statement.execute host job session w =
      ((x.turns host x.stage.turnsLeft w').1.result, (x.turns host x.stage.turnsLeft w').2) := by
  simp only [Statement.execute, bind, StateT.bind, hact]
  rfl

theorem episode_admitted {w w' : Site κ}
    (hact : c.host.act (fun _ s d => s.start d job (some id))
      { w with errands := [], opened := [] } = (.ok ⟨job, timeout, some id, .admitted⟩, w')) :
    ∃ y w'' result, (⟨job, timeout, some id, .admitted⟩ : Execution).turns c.host 10 w' = (y, w'') ∧
      y.stage = .returned result ∧
      c.episode id job w = (⟨job, w''.errands, result, w''.opened⟩, w'') := by
  have hover := turns_over (c := c) (x := ⟨job, timeout, some id, .admitted⟩) w' 10 rfl
    (Nat.le_refl 10)
  have hexecute := execute_admitted c.host job (some id) hact
  rw [show Stage.turnsLeft .admitted = 10 from rfl] at hexecute
  rcases hrun : (⟨job, timeout, some id, .admitted⟩ : Execution).turns c.host 10 w' with ⟨y, w''⟩
  rw [hrun] at hover hexecute
  obtain ⟨result, hresult⟩ := hover
  have hanswer : y.result = result := by
    rw [Execution.result, Execution.result?, hresult]
    rfl
  refine ⟨y, w'', result, rfl, hresult, ?_⟩
  rw [Circumstances.episode, hexecute, hanswer]

/-- Admission adds no cell set and leaves the cache alone. -/
theorem admit_cases (c : Circumstances) (id : String) (job : Job) (w : Site κ)
    (hopened : w.opened = []) :
    ∃ w' : Site κ, w'.cache = w.cache ∧ w'.files = w.files ∧ w'.errands = w.errands ∧
      w'.opened = [] ∧
      ((∃ e, c.host.act (fun _ s d => s.start d job (some id)) w = (.error e, w')) ∨
        ∃ timeout, c.host.act (fun _ s d => s.start d job (some id)) w =
          (.ok ⟨job, timeout, some id, .admitted⟩, w')) := by
  rcases hothers : c.others w.turn (w.config, w.statement, w.desk) with ⟨config, s, d⟩
  obtain ⟨hlength, hstart⟩ := start_cases id s d job
  rcases hs : s.start d job (some id) with ⟨events, admitted, s', d'⟩
  rw [hs] at hlength hstart
  have hact : c.host.act (fun _ s d => s.start d job (some id)) w =
      (admitted, { w with
        config := config, statement := s', desk := d', turn := w.turn + 1
        opened := w.opened ++ Circumstances.added d d' }) := by
    simp only [Circumstances.host, hothers, hs]
  rw [hopened, added_nil d d' hlength] at hact
  refine ⟨{ w with
    config := config, statement := s', desk := d', turn := w.turn + 1, opened := [] },
    rfl, rfl, rfl, rfl, ?_⟩
  rw [hact]
  obtain ⟨e, rfl⟩ | rfl := hstart
  · exact .inl ⟨e, rfl⟩
  · exact .inr ⟨s.timeout, rfl⟩

/-- Every execution goes one of these ways. -/
theorem episode_fate (hserves : Serves c id Took found) (htook : Took before w.cache) (job : Job) :
    ∃ taken timeout, Took (before ++ taken) (c.episode id job w).2.cache ∧
      (c.episode id job w).2.files = w.files ∧
      Fate (found before) id timeout job (c.episode id job w).1.errands
        (c.episode id job w).1.outcome taken := by
  obtain ⟨w', hcache, hfiles, herrands, hopened, ⟨e, hact⟩ | ⟨timeout, hact⟩⟩ :=
    admit_cases c id job { w with errands := [], opened := [] } rfl
  · have hexecute := execute_refused c.host job (some id) hact
    refine ⟨[], none, ?_, ?_, ?_⟩
    · rw [Circumstances.episode, hexecute, List.append_nil]
      exact hcache ▸ htook
    · rw [Circumstances.episode, hexecute]
      exact hfiles
    · rw [Circumstances.episode, hexecute]
      show Fate _ _ _ _ w'.errands (.error e) []
      rw [herrands]
      exact .refused e
  · have hstart : Underway c id Took found before w.files job timeout
        ⟨job, timeout, some id, .admitted⟩ w' := by
      refine ⟨rfl, rfl, rfl, hfiles, [], ?_, ?_⟩
      · rw [List.append_nil, hcache]
        exact htook
      · rw [herrands, hopened]
        exact .admitted
    obtain ⟨y, w'', result, hrun, hresult, hepisode⟩ := episode_admitted hact
    have hend := turns_keep (Underway.turn hserves) 10 hstart
    rw [hrun] at hend
    obtain ⟨taken, htaken, hahead⟩ := hend.account
    rw [hresult] at hahead
    rw [hepisode]
    exact ⟨taken, timeout, htaken, hend.sameFiles, hahead.fate⟩

end

end OlapClient
