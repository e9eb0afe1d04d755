import OlapClient.Proofs.Statement.Closing

/-!
# Errands

An errand is a call outside together with the reply that ends it. While an execution is on an
errand, that reply is the turn that is due; otherwise its own step is. As long as it is not over,
some turn is due, and every turn that is due brings the end nearer: no execution is ever stuck, and
none takes more than ten turns.
-/

namespace OlapClient

/-- A call outside and what came of it. -/
structure Errand where
  demand : Demand
  reply : Reply

/-- Whether a reply is one to this call. -/
def Demand.takes : Demand → Reply → Bool
  | get _ _, .got _ => true
  | submit _, .submitted _ => true
  | wait _ _, .waited _ => true
  | put _ _ _, .stored _ => true
  | _, _ => false

def Turn.isStep : Turn → Bool
  | .step => true
  | _ => false

namespace Execution

def reply? (x : Execution) (t : Turn) (d : Desk) : Option Reply :=
  match t with
  | .step => none
  | .reply r => some r
  | .waited =>
    match x.stage with
    | .waiting _ call => (d.calls.wait call x.timeout).map fun taken => .waited taken.1
    | _ => none

/-- The errand that a turn ends. -/
def errand? (x : Execution) (t : Turn) (d : Desk) : Option Errand :=
  match x.demand?, x.reply? t d with
  | some demand, some reply => if demand.takes reply then some ⟨demand, reply⟩ else none
  | _, _ => none

/-- Whether a turn is due. -/
def isDue (x : Execution) (t : Turn) (d : Desk) : Bool :=
  x.result?.isNone && match x.demand? with
    | some _ => (x.errand? t d).isSome
    | none => t.isStep

/-- Looks up or stores only with a cache. -/
def Equipped (x : Execution) : Prop :=
  (∀ m, x.stage = .looking m → x.session.isSome = true) ∧
    ∀ m response, x.stage = .storing m response → x.session.isSome = true

/-! ### How errands end -/

/-- How an errand ends: the stage that it leads to. -/
inductive Comes (x : Execution) : Errand → Stage → Prop where
  | lookFails (m : Message) (h : x.stage = .looking m) (id : String) (hs : x.session = some id)
      (e : ClientError) : Comes x ⟨.get id m, .got (.error e)⟩ (.failing e)
  | hits (m : Message) (h : x.stage = .looking m) (id : String) (hs : x.session = some id)
      (response : Bytes) : Comes x ⟨.get id m, .got (.ok (some response))⟩ (.found response)
  | misses (m : Message) (h : x.stage = .looking m) (id : String) (hs : x.session = some id) :
      Comes x ⟨.get id m, .got (.ok none)⟩ (.checking m)
  | submitFails (m : Message) (h : x.stage = .submitting m) (e : ClientError) :
      Comes x ⟨.submit m, .submitted (.error e)⟩ (.failing e)
  | accepted (m : Message) (h : x.stage = .submitting m) (call : Nat) :
      Comes x ⟨.submit m, .submitted (.ok call)⟩ (.registering m call)
  | waited (m : Message) (call : Nat) (h : x.stage = .waiting m call)
      (result : Except ClientError Bytes) :
      Comes x ⟨.wait call x.timeout, .waited result⟩ (.recording m call result)
  | storeFails (m : Message) (response : Bytes) (h : x.stage = .storing m response) (id : String)
      (hs : x.session = some id) (e : ClientError) :
      Comes x ⟨.put id m response, .stored (.error e)⟩ (.failing e)
  | stores (m : Message) (response : Bytes) (h : x.stage = .storing m response) (id : String)
      (hs : x.session = some id) :
      Comes x ⟨.put id m response, .stored (.ok ())⟩ (.reading response false)

variable (x : Execution) (config : Config) (s : Statement) (d : Desk)

theorem resume_cases (hx : x.Equipped) (r : Reply) :
    (x.errand? (.reply r) d = none ∧ (x.resume r).2 = x) ∨
      ∃ e g, x.errand? (.reply r) d = some e ∧ x.Comes e g ∧ (x.resume r).2 = x.goTo g := by
  cases hs : x.stage with
  | looking m =>
    obtain ⟨id, hid⟩ := Option.isSome_iff_exists.mp (hx.1 m hs)
    have hd : x.demand? = some (.get id m) := by simp [demand?, hs, hid]
    cases r with
    | got found =>
      have he : x.errand? (.reply (.got found)) d = some ⟨.get id m, .got found⟩ := by
        simp [errand?, hd, reply?, Demand.takes]
      right
      cases found with
      | error e => exact ⟨_, _, he, .lookFails m hs id hid e, by simp [resume, hs]⟩
      | ok found =>
        cases found with
        | none => exact ⟨_, _, he, .misses m hs id hid, by simp [resume, hs]⟩
        | some response => exact ⟨_, _, he, .hits m hs id hid response, by simp [resume, hs]⟩
    | _ => exact .inl ⟨by simp [errand?, hd, reply?, Demand.takes], by simp [resume, hs]⟩
  | submitting m =>
    have hd : x.demand? = some (.submit m) := by simp [demand?, hs]
    cases r with
    | submitted call =>
      have he : x.errand? (.reply (.submitted call)) d = some ⟨.submit m, .submitted call⟩ := by
        simp [errand?, hd, reply?, Demand.takes]
      right
      cases call with
      | error e => exact ⟨_, _, he, .submitFails m hs e, by simp [resume, hs]⟩
      | ok call => exact ⟨_, _, he, .accepted m hs call, by simp [resume, hs]⟩
    | _ => exact .inl ⟨by simp [errand?, hd, reply?, Demand.takes], by simp [resume, hs]⟩
  | waiting m call =>
    have hd : x.demand? = some (.wait call x.timeout) := by simp [demand?, hs]
    cases r with
    | waited result =>
      have he : x.errand? (.reply (.waited result)) d =
          some ⟨.wait call x.timeout, .waited result⟩ := by
        simp [errand?, hd, reply?, Demand.takes]
      exact .inr ⟨_, _, he, .waited m call hs result, by simp [resume, hs]⟩
    | _ => exact .inl ⟨by simp [errand?, hd, reply?, Demand.takes], by simp [resume, hs]⟩
  | storing m response =>
    obtain ⟨id, hid⟩ := Option.isSome_iff_exists.mp (hx.2 m response hs)
    have hd : x.demand? = some (.put id m response) := by simp [demand?, hs, hid]
    cases r with
    | stored result =>
      have he : x.errand? (.reply (.stored result)) d =
          some ⟨.put id m response, .stored result⟩ := by
        simp [errand?, hd, reply?, Demand.takes]
      right
      cases result with
      | error e => exact ⟨_, _, he, .storeFails m response hs id hid e, by simp [resume, hs]⟩
      | ok u => exact ⟨_, _, he, .stores m response hs id hid, by simp [resume, hs]⟩
    | _ => exact .inl ⟨by simp [errand?, hd, reply?, Demand.takes], by simp [resume, hs]⟩
  | _ =>
    have hd : x.demand? = none := by simp [demand?, hs]
    exact .inl ⟨by simp [errand?, hd], by simp [resume, hs]⟩

theorem endWait_cases :
    (x.errand? .waited d = none ∧ x.endWait d = (x, d)) ∨
      ∃ e g calls, x.errand? .waited d = some e ∧ x.Comes e g ∧
        x.endWait d = (x.goTo g, { d with calls := calls }) := by
  cases hs : x.stage with
  | waiting m call =>
    have hd : x.demand? = some (.wait call x.timeout) := by simp [demand?, hs]
    cases hw : d.calls.wait call x.timeout with
    | none => exact .inl ⟨by simp [errand?, hd, reply?, hs, hw], by simp [endWait, hs, hw]⟩
    | some taken =>
      refine .inr ⟨_, _, taken.2, ?_, .waited m call hs taken.1, ?_⟩
      · simp [errand?, hd, reply?, hs, hw, Demand.takes]
      · simp [endWait, hs, hw, resume]
  | _ => exact .inl ⟨by simp [errand?, reply?, hs], by simp [endWait, hs]⟩

/-- A turn ends an errand, or is a step, or does nothing. -/
theorem take_cases (hx : x.Equipped) (t : Turn) :
    (∃ e g calls, x.errand? t d = some e ∧ x.Comes e g ∧
      x.take t config s d = (x.goTo g, s, { d with calls := calls })) ∨
    (x.errand? t d = none ∧ t = .step) ∨
    (x.errand? t d = none ∧ t.isStep = false ∧ x.take t config s d = (x, s, d)) := by
  cases t with
  | step => exact .inr (.inl ⟨by simp [errand?, reply?], rfl⟩)
  | reply r =>
    obtain ⟨he, hr⟩ | ⟨e, g, he, hc, hr⟩ := x.resume_cases d hx r
    · exact .inr (.inr ⟨he, rfl, by simp [take, hr]⟩)
    · exact .inl ⟨e, g, d.calls, he, hc, by simp [take, hr]⟩
  | waited =>
    obtain ⟨he, hw⟩ | ⟨e, g, calls, he, hc, hw⟩ := x.endWait_cases d
    · exact .inr (.inr ⟨he, rfl, by simp [take, hw]⟩)
    · exact .inl ⟨e, g, calls, he, hc, by simp [take, hw]⟩

theorem Comes.turnsLeft_lt {x : Execution} {e : Errand} {g : Stage} (h : x.Comes e g) :
    g.turnsLeft < x.stage.turnsLeft := by
  cases h <;> simp_all [Stage.turnsLeft]

/-! ### Turns that are due -/

theorem step_lt (hx : x.Equipped) (hd : x.demand? = none) (hr : x.result? = none) :
    (x.take .step config s d).1.stage.turnsLeft < x.stage.turnsLeft := by
  cases hs : x.stage with
  | admitted =>
    cases hb : x.job.request config with
    | error e => simp [take, step, hs, build, hb, Stage.turnsLeft]
    | ok body =>
      cases hse : x.session.isSome <;> simp [take, step, hs, build, hb, hse, Stage.turnsLeft]
  | found response =>
    cases hf : s.cancelRequested <;> simp [take, step, hs, useFound, hf, Stage.turnsLeft]
  | checking m => cases hf : s.cancelRequested <;> simp [take, step, hs, check, hf, Stage.turnsLeft]
  | registering m call =>
    cases hf : s.cancelRequested <;> simp [take, step, hs, register, hf, Stage.turnsLeft]
  | recording m call result =>
    cases hf : s.cancelRequested with
    | true => simp [take, step, hs, recordWait, hf, Stage.turnsLeft]
    | false =>
      cases result with
      | error e => simp [take, step, hs, recordWait, hf, Stage.turnsLeft]
      | ok response =>
        cases hse : x.session.isSome <;>
          simp [take, step, hs, recordWait, hf, hse, Stage.turnsLeft]
  | reading response cacheHit =>
    cases hg : readStage x.job response cacheHit with
    | error e => simp [take, step, hs, read, hg, Stage.turnsLeft]
    | ok g =>
      obtain ⟨-, r, rfl⟩ | ⟨-, cells, rfl⟩ := readStage_ok x.job response cacheHit g hg
      · simp [take, step, hs, read, hg, Stage.turnsLeft]
      · simp [take, step, hs, read, hg, Stage.turnsLeft]
  | opening cells =>
    cases hc : s.isClosed <;> simp [take, step, hs, openCells, hc, Stage.turnsLeft]
  | failing e => simp [take, step, hs, fail, Stage.turnsLeft]
  | looking m =>
    obtain ⟨id, hid⟩ := Option.isSome_iff_exists.mp (hx.1 m hs)
    simp [demand?, hs, hid] at hd
  | submitting m => simp [demand?, hs] at hd
  | waiting m call => simp [demand?, hs] at hd
  | storing m response =>
    obtain ⟨id, hid⟩ := Option.isSome_iff_exists.mp (hx.2 m response hs)
    simp [demand?, hs, hid] at hd
  | returned r => simp [result?, hs] at hr

theorem due_lt (hx : x.Equipped) (t : Turn) (ht : x.isDue t d = true) :
    (x.take t config s d).1.stage.turnsLeft < x.stage.turnsLeft := by
  have hr : x.result? = none := by
    cases hr : x.result? with
    | none => rfl
    | some r => simp [isDue, hr] at ht
  obtain ⟨e, g, calls, -, hc, htake⟩ | ⟨he, rfl⟩ | ⟨he, hns, -⟩ := x.take_cases config s d hx t
  · rw [htake]
    exact hc.turnsLeft_lt
  · cases hd : x.demand? with
    | none => exact x.step_lt config s d hx hd hr
    | some demand => simp [isDue, hr, hd, he] at ht
  · cases hd : x.demand? with
    | none => simp [isDue, hr, hd, hns] at ht
    | some demand => simp [isDue, hr, hd, he] at ht

theorem exists_due (hr : x.result? = none) : ∃ t, x.isDue t d = true := by
  cases hd : x.demand? with
  | none => exact ⟨.step, by simp [isDue, hr, hd, Turn.isStep]⟩
  | some demand =>
    have hdue : ∀ r, demand.takes r = true → x.isDue (.reply r) d = true := by
      intro r ht
      simp [isDue, hr, hd, errand?, reply?, ht]
    cases demand with
    | get id m => exact ⟨_, hdue (.got (.ok none)) rfl⟩
    | submit m => exact ⟨_, hdue (.submitted (.ok 0)) rfl⟩
    | wait call timeout => exact ⟨_, hdue (.waited (.ok [])) rfl⟩
    | put id m response => exact ⟨_, hdue (.stored (.ok ())) rfl⟩

theorem Advance.equipped {x : Execution} {config : Config} {s s' : Statement} {d d' : Desk}
    {t : Turn} {g : Stage} (h : x.Advance config s d t g s' d') (hx : x.Equipped) :
    (x.goTo g).Equipped := by
  cases h with
  | rest => exact hx
  | looks hs body hb hse => exact ⟨fun _ _ => hse, by simp⟩
  | recordsForCache m call response hs hf hse => exact ⟨by simp, fun _ _ _ => hse⟩
  | _ => exact ⟨by simp, by simp⟩

end Execution

theorem Stage.turnsLeft_le_ten (g : Stage) : g.turnsLeft ≤ 10 := by
  cases g <;> simp [turnsLeft]

namespace Scene

/-! ### Along a run -/

/-- Whether a move is a due turn of the execution of a number. -/
def isDue (n : Nat) (s : Scene) : Move → Bool
  | .turn k t => k == n && (s.executions[n]?).any fun x => x.isDue t s.desk
  | _ => false

/-- The number of due turns of an execution along a run. -/
def dueTurns (n : Nat) (s : Scene) : List Move → Nat
  | [] => 0
  | m :: ms => (if s.isDue n m then 1 else 0) + (s.after m).dueTurns n ms

/-- All executions that look up or store have a cache. -/
def Equipped (s : Scene) : Prop :=
  ∀ (n : Nat) (x : Execution), s.executions[n]? = some x → x.Equipped

theorem Equipped.after {s : Scene} (h : s.Equipped) (m : Move) : (s.after m).Equipped := by
  intro n y hy
  obtain hx | ⟨t, x, rfl, hx⟩ | ⟨job, -, -, rfl⟩ := s.getElem?_of_after n y m hy
  · exact h n y hx
  · obtain ⟨g, statement, desk, he, ha⟩ := s.after_turn n x t hx
    rw [he, getElem?_advance_self s n _ x statement desk hx] at hy
    cases hy
    exact ha.equipped (h n x hx)
  · obtain ha | ⟨e, ha⟩ := s.attempted_stage job
    · exact ⟨by simp [ha], by simp [ha]⟩
    · exact ⟨by simp [ha], by simp [ha]⟩

theorem Equipped.run {s : Scene} (h : s.Equipped) (ms : List Move) : (s.run ms).Equipped :=
  run_keeps Equipped (fun _ m h => h.after m) s ms h

theorem new_equipped (config : Config) (session : Option String) (desk : Desk) :
    (new config session desk).Equipped := by
  intro n x hx
  simp [new] at hx

theorem after_turn_self (s : Scene) (n : Nat) (x : Execution) (t : Turn)
    (hx : s.executions[n]? = some x) :
    (s.after (.turn n t)).executions[n]? =
      some (x.take t s.config s.statement s.desk).1 := by
  have he : s.after (.turn n t) = s.advance n (x.take t s.config s.statement s.desk).1
      (x.take t s.config s.statement s.desk).2.1 (x.take t s.config s.statement s.desk).2.2 :=
    s.after_turn_eq n x _ t _ _ hx rfl
  rw [he]
  exact s.getElem?_advance_self n _ x _ _ hx

/-- A due turn uses up a turn that was left, and no move adds one. -/
theorem due_after (s : Scene) (h : s.Equipped) (n : Nat) (x : Execution)
    (hx : s.executions[n]? = some x) (m : Move) :
    ∃ y, (s.after m).executions[n]? = some y ∧
      (if s.isDue n m then 1 else 0) + y.stage.turnsLeft ≤ x.stage.turnsLeft := by
  obtain ⟨t, g, statement, desk, rfl, -, ha, hg⟩ | ⟨hm, hk⟩ := s.after_cases n x m hx
  · refine ⟨_, hg, ?_⟩
    have hle : (x.goTo g).stage.turnsLeft ≤ x.stage.turnsLeft := ha.turnsLeft_le
    by_cases hd : s.isDue n (.turn n t) = true
    · have hdue : x.isDue t s.desk = true := by simpa [isDue, hx] using hd
      have hlt := x.due_lt s.config s.statement s.desk (h n x hx) t hdue
      have hxg := Option.some.inj ((s.after_turn_self n x t hx).symm.trans hg)
      rw [hxg] at hlt
      rw [if_pos hd]
      omega
    · rw [if_neg hd]
      omega
  · refine ⟨x, hk, ?_⟩
    have hd : s.isDue n m = false := by
      cases m with
      | turn k t =>
        have hkn : k ≠ n := by
          intro he
          exact hm t (by rw [he])
        simp [isDue, hkn]
      | _ => rfl
    simp [hd]

theorem dueTurns_le (s : Scene) (h : s.Equipped) (n : Nat) (x : Execution)
    (hx : s.executions[n]? = some x) (ms : List Move) :
    s.dueTurns n ms ≤ x.stage.turnsLeft := by
  induction ms generalizing s x with
  | nil => exact Nat.zero_le _
  | cons m ms ih =>
    obtain ⟨y, hy, hle⟩ := s.due_after h n x hx m
    have hms := ih (s.after m) (h.after m) y hy
    rw [dueTurns]
    omega

end Scene

end OlapClient
