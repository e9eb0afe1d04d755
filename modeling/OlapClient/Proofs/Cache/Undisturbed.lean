import OlapClient.Proofs.Cache.Run

/-!
# Undisturbed executions

If nobody else acts on the statement, and the transport does not cut its calls short, then an
execution looks its request up, and it is neither cancelled nor does it find its statement closed.
-/

namespace OlapClient

/-- An error that tells of what others did. -/
def ClientError.isInterruption : ClientError → Bool
  | cancelled | closed .statement => true
  | _ => false

theorem ClientError.isInterruption_of_response (e : ClientError) (h : e.isOfResponse = true) :
    e.isInterruption = false := by
  cases e with
  | cancelled => cases h
  | closed what => cases h
  | _ => rfl

/-- What was cut short by others. -/
def Interrupted {α : Type} (result : Except ClientError α) : Prop :=
  ∃ e, result = .error e ∧ e.isInterruption = true

theorem not_interrupted_ok {α : Type} (a : α) : ¬ Interrupted (.ok a : Except ClientError α) := by
  rintro ⟨e, h, -⟩
  cases h

theorem interrupted_error {α : Type} (e : ClientError) :
    Interrupted (.error e : Except ClientError α) ↔ e.isInterruption = true := by
  constructor
  · rintro ⟨e', h, he⟩
    cases h
    exact he
  · exact fun he => ⟨e, rfl, he⟩

def Reply.Interrupted : Reply → Prop
  | got found => OlapClient.Interrupted found
  | submitted call => OlapClient.Interrupted call
  | waited result => OlapClient.Interrupted result
  | stored result => OlapClient.Interrupted result

def Stage.Interrupted : Stage → Prop
  | recording _ _ result => OlapClient.Interrupted result
  | failing e => e.isInterruption = true
  | returned result => OlapClient.Interrupted result
  | _ => False

section

variable {x : Execution} {g : Stage}

/-- A step is only interrupted by a cancellation, or on a closed statement. -/
theorem Execution.Advance.uninterrupted {config : Config} {s s' : Statement} {d d' : Desk}
    {body : Bytes} (h : x.Advance config s d .step g s' d') (hx : ¬ x.stage.Interrupted)
    (hflag : s.cancelRequested = false) (hopen : s.isClosed = false)
    (hbuilt : x.job.request config = .ok body) :
    s'.cancelRequested = false ∧ s'.isClosed = false ∧ ¬ g.Interrupted := by
  cases h with
  | rest => exact ⟨hflag, hopen, hx⟩
  | unbuilt hstage e he =>
    rw [hbuilt] at he
    cases he
  | foundCancelled response hstage hf =>
    rw [hflag] at hf
    cases hf
  | checkCancelled m hstage hf =>
    rw [hflag] at hf
    cases hf
  | registersCancelled m call hstage hf =>
    rw [hflag] at hf
    cases hf
  | recordsCancelled m call result hstage hf =>
    rw [hflag] at hf
    cases hf
  | refusesCells cells hstage hc =>
    rw [hopen] at hc
    cases hc
  | recordsFailure m call e hstage =>
    rw [hstage] at hx
    exact ⟨rfl, hopen, mt (interrupted_error e).mpr hx⟩
  | unreadable response cacheHit hstage e hread =>
    refine ⟨hflag, hopen, mt (interrupted_error e).mp ?_⟩
    rw [e.isInterruption_of_response (readStage_reads x.job response cacheHit e hread)]
    exact Bool.false_ne_true
  | fails e hstage =>
    rw [hstage] at hx
    exact ⟨rfl, hopen, mt (interrupted_error e).mp hx⟩
  | readsRows => exact ⟨hflag, hopen, not_interrupted_ok _⟩
  | opensCells => exact ⟨hflag, hopen, not_interrupted_ok _⟩
  | recordsForCache => exact ⟨rfl, hopen, id⟩
  | records => exact ⟨rfl, hopen, id⟩
  | _ => exact ⟨hflag, hopen, id⟩

theorem Execution.Comes.uninterrupted {e : Errand} (h : x.Comes e g)
    (he : ¬ e.reply.Interrupted) : ¬ g.Interrupted := by
  cases h with
  | lookFails m hstage id hid e => exact mt (interrupted_error e).mpr he
  | submitFails m hstage e => exact mt (interrupted_error e).mpr he
  | waited => exact he
  | storeFails m response hstage id hid e => exact mt (interrupted_error e).mpr he
  | _ => exact id

theorem Execution.Comes.stage_of_get {i : String} {m : Message} {reply : Reply}
    (h : x.Comes ⟨.get i m, reply⟩ g) : x.stage = .looking m := by
  cases h <;> assumption

theorem Execution.Comes.not_looking {e : Errand} (h : x.Comes e g) (m : Message) :
    g ≠ .looking m := by
  cases h <;> nofun

/-- An execution looks up what was built for its job. -/
theorem Execution.Advance.looking {config : Config} {s s' : Statement} {d d' : Desk} {m : Message}
    (h : x.Advance config s d .step g s' d') (hg : g = .looking m) :
    x.stage = .looking m ∨ x.job.request config = .ok m.body ∧ config.url = m.url := by
  cases h with
  | rest => exact .inl hg
  | looks hstage body hb =>
    cases hg
    exact .inr ⟨hb, rfl⟩
  | _ => cases hg

theorem Execution.looks_of_built {config : Config} {s : Statement} {d : Desk} {m : Message}
    (hstage : x.stage = .admitted) (hsession : x.session.isSome = true)
    (hbody : x.job.request config = .ok m.body) (hurl : config.url = m.url) :
    (x.step config s d).2.1.stage = .looking m := by
  rw [step, hstage]
  simp only [build, hbody, hsession, if_true, goTo, hurl]

end

/-- Nobody else acts, and the transport does not cut its calls short. -/
structure Circumstances.Undisturbed (c : Circumstances) : Prop where
  others : ∀ n x, c.others n x = x
  submit : ∀ n, ¬ Interrupted (c.submit n)
  wait : ∀ n, ¬ Interrupted (c.wait n)

/-- An execution between its turns that looks this request up and is not cut short. -/
structure Unhindered {κ : Type} (id : String) (m : Message) (x : Execution) (w : Site κ) :
    Prop where
  session : x.session = some id
  built : x.job.request w.config = .ok m.body
  url : w.config.url = m.url
  flag : w.statement.cancelRequested = false
  isOpen : w.statement.isClosed = false
  stage : ¬ x.stage.Interrupted
  asks : x.stage = .admitted ∨ x.stage = .looking m ∨
    ∃ errand ∈ w.errands, errand.demand = .get id m
  looking : ∀ m', x.stage = .looking m' → m' = m
  asked : ∀ errand ∈ w.errands, ∀ i m', errand.demand = .get i m' → m' = m

section

variable {κ : Type} [SqlLibrary κ] {c : Circumstances} {id : String} {m : Message} {x : Execution}
  {w : Site κ}

omit [SqlLibrary κ] in
theorem cache_not_interrupted {α : Type} (r : Except CacheError α) :
    ¬ Interrupted (r.mapError ClientError.ofCache) := by
  cases r with
  | error e =>
    have hno : (ClientError.ofCache e).isInterruption = false := by cases e <;> rfl
    rw [Except.mapError, interrupted_error, hno]
    exact Bool.false_ne_true
  | ok a => exact not_interrupted_ok a

theorem Circumstances.Undisturbed.reply (h : c.Undisturbed) (w : Site κ) (demand : Demand) :
    ¬ (c.reply w demand).1.Interrupted := by
  cases demand with
  | get id m => exact cache_not_interrupted _
  | submit m => exact h.submit w.turn
  | wait call bound => exact h.wait w.turn
  | put id m response => exact cache_not_interrupted _

namespace Unhindered

omit [SqlLibrary κ] in
theorem message_eq (h : Unhindered id m x w) {m' : Message}
    (hbody : x.job.request w.config = .ok m'.body) (hurl : w.config.url = m'.url) : m' = m := by
  have hsame : m'.body = m.body := Except.ok.inj (hbody.symm.trans h.built)
  obtain ⟨url, body⟩ := m
  obtain ⟨url', body'⟩ := m'
  obtain rfl : body' = body := hsame
  obtain rfl : url' = url := hurl.symm.trans h.url
  rfl

theorem turn_call (hc : c.Undisturbed) (h : Unhindered id m x w) {demand : Demand}
    (hd : x.demand? = some demand) :
    Unhindered id m (x.turn c.host w).1 (x.turn c.host w).2 := by
  obtain ⟨g, hcomes, hturn⟩ := turn_of_demand (c := c) w (equipped_of_session h.session) hd
  rw [hturn]
  refine ⟨h.session, h.built, h.url, h.flag, h.isOpen, hcomes.uninterrupted (hc.reply w demand),
    .inr (.inr ?_), fun m' hm' => absurd hm' (hcomes.not_looking m'), ?_⟩
  case refine_2 =>
    intro errand hmem i m' hdemand
    obtain hold | hnew := List.mem_append.mp hmem
    · exact h.asked errand hold i m' hdemand
    · rw [List.mem_singleton.mp hnew] at hdemand
      obtain rfl : demand = .get i m' := hdemand
      exact h.looking m' hcomes.stage_of_get
  obtain hstage | hstage | ⟨errand, hmem, herrand⟩ := h.asks
  · simp [Execution.demand?, hstage] at hd
  · -- the call that was due is the lookup
    have hget : x.demand? = some (.get id m) := by
      simp [Execution.demand?, hstage, h.session]
    obtain rfl := Option.some.inj (hd.symm.trans hget)
    exact ⟨_, List.mem_append_right _ (List.mem_singleton_self _), rfl⟩
  · exact ⟨errand, List.mem_append_left _ hmem, herrand⟩

theorem turn_step (hc : c.Undisturbed) (h : Unhindered id m x w) (hd : x.demand? = none) :
    Unhindered id m (x.turn c.host w).1 (x.turn c.host w).2 := by
  have hturn := turn_of_step w hd (hc.others w.turn (w.config, w.statement, w.desk))
  have hlooks : x.stage = .admitted → (x.step w.config w.statement w.desk).2.1.stage = .looking m :=
    fun hstage => x.looks_of_built hstage (by rw [h.session]; rfl) h.built h.url
  obtain ⟨g, s', d', hstep, ha⟩ := x.step_listed w.config w.statement w.desk
  obtain ⟨hflag, hopen, hstage⟩ := ha.uninterrupted h.stage h.flag h.isOpen h.built
  rw [hstep] at hturn hlooks
  rw [hturn]
  refine ⟨h.session, h.built, h.url, hflag, hopen, hstage, .inr ?_, fun m' hm' => ?_, h.asked⟩
  case refine_2 =>
    obtain hlooking | ⟨hbody, hurl⟩ := ha.looking hm'
    · exact h.looking m' hlooking
    · exact h.message_eq hbody hurl
  obtain hadmitted | hlooking | herrand := h.asks
  · exact .inl (hlooks hadmitted)
  · simp [Execution.demand?, hlooking, h.session] at hd
  · exact .inr herrand

theorem turn (hc : c.Undisturbed) (x : Execution) (w : Site κ) (h : Unhindered id m x w) :
    Unhindered id m (x.turn c.host w).1 (x.turn c.host w).2 := by
  cases hd : x.demand? with
  | some demand => exact h.turn_call hc hd
  | none => exact h.turn_step hc hd

end Unhindered

/-- The statement accepts executions. -/
def Statement.Accepts (s : Statement) : Prop :=
  s.isClosed = false ∧ s.phase ≠ .submitted ∧ s.cancelRequested = false

/-- An undisturbed execution looks its request up and no other, and is not cut short. -/
theorem Circumstances.Undisturbed.episode (hc : c.Undisturbed) (id : String) (w : Site κ)
    (job : Job) (body : Bytes) (haccepts : w.statement.Accepts)
    (hbody : job.request w.config = .ok body) :
    (∀ m, (c.episode id job w).1.Requests m ↔ m = ⟨w.config.url, body⟩) ∧
      ¬ Interrupted (c.episode id job w).1.result := by
  obtain ⟨hclosed, hphase, hflag⟩ := haccepts
  have hstarted := w.statement.start_admitted w.desk job (some id) hclosed hphase hflag
  let w' : Site κ := { w with
    statement := { w.statement.makeWay job with cancelRequested := false, phase := .submitted }
    desk := w.desk.makeWay w.statement job, turn := w.turn + 1, errands := []
    opened := [] ++ added w.desk (w.desk.makeWay w.statement job) }
  have hact : c.host.act (fun _ s d => s.start d job (some id))
      { w with errands := [], opened := [] } =
        (.ok ⟨job, w.statement.timeout, some id, .admitted⟩, w') := by
    rcases hstart : w.statement.start w.desk job (some id) with ⟨events, admitted⟩
    rw [hstart] at hstarted
    subst hstarted
    simp only [host, hc.others, hstart]
    rfl
  have hclosed' : (w.statement.makeWay job).isClosed = false := by
    rw [← hclosed, Statement.makeWay]
    split <;> rfl
  have hstart : Unhindered id ⟨w.config.url, body⟩
      ⟨job, w.statement.timeout, some id, .admitted⟩ w' := by
    refine ⟨rfl, hbody, rfl, rfl, hclosed', fun h => h, .inl rfl, ?_, by simp [w']⟩
    intro m hlooking
    cases hlooking
  obtain ⟨y, w'', result, hrun, hresult, hepisode⟩ := episode_admitted hact
  have hend := turns_keep (Unhindered.turn hc) 10 hstart
  rw [hrun] at hend
  rw [hepisode]
  refine ⟨fun m => ⟨?_, ?_⟩, fun hinterrupted => hend.stage ?_⟩
  · rintro ⟨errand, hmem, i, hdemand⟩
    exact hend.asked errand hmem i m hdemand
  · rintro rfl
    obtain hadmitted | hlooking | ⟨errand, hmem, hdemand⟩ := hend.asks
    · rw [hresult] at hadmitted
      cases hadmitted
    · rw [hresult] at hlooking
      cases hlooking
    · exact ⟨errand, hmem, id, hdemand⟩
  · rw [hresult]
    exact hinterrupted

end

end OlapClient
