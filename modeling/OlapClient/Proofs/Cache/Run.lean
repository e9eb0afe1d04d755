import OlapClient.Proofs.Cache.Episode
import OlapClient.Proofs.Statement.Unreadable
import OlapClient.Proofs.Traversal

/-!
# Runs with a cache

What the fates of executions say about their requests: one that the cache knows is not submitted,
and one that it does not know is, unless the execution is cancelled. Over a whole run the cache
takes exactly the exchanges that the transport answered.
-/

namespace OlapClient

theorem Job.content_ne_cancelled (job : Job) (response : Bytes) :
    job.content response ≠ .error .cancelled := by
  intro hcancelled
  obtain ⟨herror, hrows, hcells⟩ := Execution.content_of_readStage job response true
  cases hread : Execution.readStage job response true with
  | error e =>
    have he := herror e hread
    rw [hcancelled] at he
    cases he
    exact absurd (Execution.ofError_of_unreadable job response true _ hread) (by decide)
  | ok g =>
    obtain ⟨-, r, rfl⟩ | ⟨-, s, rfl⟩ := Execution.readStage_ok job response true g hread
    · rw [hrows r hread] at hcancelled
      cases hcancelled
    · rw [hcells s hread] at hcancelled
      cases hcancelled

/-- The exchanges that the cache takes with errands. -/
def takenBy (log : List Errand) : Exchanges := log.flatMap Errand.taken

section

variable {found : Message → Option Bytes} {id : String} {timeout : Option Duration} {job : Job}
  {log : List Errand} {outcome : Except ClientError Content} {taken : Exchanges}

@[simp] theorem course_message (m : Message) : (course id timeout m).message = m := rfl

theorem course_missed (m : Message) :
    (course id timeout m).missed = [⟨.get id m, .got (.ok none)⟩] := rfl

theorem course_awaited (m : Message) (call : Nat) (result : Except ClientError Bytes) :
    (course id timeout m).awaited call result =
      [⟨.get id m, .got (.ok none)⟩, ⟨.submit m, .submitted (.ok call)⟩,
        ⟨.wait call timeout, .waited result⟩] := rfl

/-- The exchanges that the cache takes can be told from the errands. -/
theorem Fate.taken_eq (h : Fate found id timeout job log outcome taken) :
    taken = takenBy log := by
  cases h with
  | answered hm hs ho => cases hs <;> rfl
  | _ => rfl

/-- The errands say that the transport accepted a request and answered it. -/
def Responded (log : List Errand) (m : Message) (response : Bytes) : Prop :=
  ∃ call bound, (⟨.submit m, .submitted (.ok call)⟩ : Errand) ∈ log ∧
    (⟨.wait call bound, .waited (.ok response)⟩ : Errand) ∈ log

/-- The cache takes what the transport answers, unless the execution is cancelled. -/
theorem Fate.taken_iff (h : Fate found id timeout job log outcome taken) (m : Message)
    (response : Bytes) :
    taken = [(m, response)] ↔ Responded log m response ∧ outcome ≠ .error .cancelled := by
  cases h with
  | refused e => simp [Responded]
  | dropped hm hf => simp [Responded]
  | missed hm hf => simp [Responded, course_missed]
  | rejected hm hf e => simp [Responded, course_missed]
  | unanswered hm hf call result e he =>
    obtain rfl | rfl := he
    · simp [Responded, course_awaited]
    · simp [Responded, course_awaited]
  | answered hm hs ho =>
    have hkept : outcome ≠ .error .cancelled := by
      obtain rfl | rfl := ho
      · intro hc
        cases hc
      · exact job.content_ne_cancelled _
    cases hs with
    | hit hf => simp [Responded]
    | fetched hf call => simp [Responded, course_awaited, hkept, eq_comm]

/-- The request is the one of the first errand. -/
theorem Fate.first_of_request (h : Fate found id timeout job log outcome taken) {m : Message}
    (hm : ∃ errand ∈ log, ∃ i, errand.demand = .get i m) :
    log.head?.map Errand.demand = some (.get id m) := by
  cases h with
  | refused => simp at hm
  | dropped => simpa using hm
  | missed => simpa [course_missed] using hm
  | rejected => simpa [course_missed] using hm
  | unanswered => simpa [course_awaited] using hm
  | answered hasks hs =>
    cases hs with
    | hit => simpa using hm
    | fetched => simpa [course_awaited] using hm

/-- What an execution does with its request. -/
theorem Fate.of_request (h : Fate found id timeout job log outcome taken) {m : Message}
    (hm : ∃ errand ∈ log, ∃ i, errand.demand = .get i m) (ho : outcome ≠ .error .cancelled) :
    job.Asks m ∧
      ((∃ response, found m = some response ∧
          log = [⟨.get id m, .got (.ok (some response))⟩] ∧
          (outcome = .error (.closed .statement) ∨ outcome = job.content response)) ∨
        found m = none ∧ ∃ errand ∈ log, errand.demand = .submit m) := by
  have hfirst := h.first_of_request hm
  cases h with
  | refused e => cases hfirst
  | dropped => exact absurd rfl ho
  | missed => exact absurd rfl ho
  | rejected hasks hf e =>
    cases hfirst
    exact ⟨hasks, .inr ⟨hf, by simp [course_missed]⟩⟩
  | unanswered hasks hf call result e he =>
    cases hfirst
    exact ⟨hasks, .inr ⟨hf, by simp [course_awaited]⟩⟩
  | answered hasks hs hout =>
    cases hs with
    | hit hf =>
      cases hfirst
      exact ⟨hasks, .inl ⟨_, hf, rfl, hout⟩⟩
    | fetched hf call =>
      cases hfirst
      exact ⟨hasks, .inr ⟨hf, by simp [course_awaited]⟩⟩

/-- Only an execution that fails has no request. -/
theorem Fate.requests (h : Fate found id timeout job log outcome taken) :
    (∃ m, (∃ errand ∈ log, ∃ i, errand.demand = .get i m) ∧ job.Asks m) ∨
      ∃ e, outcome = .error e := by
  cases h with
  | refused e => exact .inr ⟨e, rfl⟩
  | dropped => exact .inr ⟨_, rfl⟩
  | missed => exact .inr ⟨_, rfl⟩
  | rejected => exact .inr ⟨_, rfl⟩
  | unanswered => exact .inr ⟨_, rfl⟩
  | answered hasks hs hout =>
    left
    cases hs with
    | hit => exact ⟨_, ⟨_, List.mem_singleton_self _, id, rfl⟩, hasks⟩
    | fetched => exact ⟨_, ⟨_, List.mem_cons_self, id, rfl⟩, hasks⟩

/-- What was taken is what the caller got, and it was not known before. -/
theorem Fate.of_taken (h : Fate found id timeout job log outcome taken) {m : Message}
    {response : Bytes} (htaken : (m, response) ∈ taken) :
    taken = [(m, response)] ∧ job.Asks m ∧ found m = none ∧
      (∃ errand ∈ log, ∃ i, errand.demand = .get i m) ∧
      (outcome = .error (.closed .statement) ∨ outcome = job.content response) := by
  cases h with
  | answered hasks hs hout =>
    cases hs with
    | hit => cases htaken
    | fetched hf call =>
      cases List.mem_singleton.mp htaken
      exact ⟨rfl, hasks, hf, by simp [course_awaited], hout⟩
  | _ => cases htaken

end

/-! ### Runs -/

namespace Episode

/-- The exchanges that the cache took. -/
def taken (e : Episode) : Exchanges := takenBy e.errands

/-- The execution went one of the ways that there are, with a cache that has found this. -/
def Went (e : Episode) (id : String) (found : Message → Option Bytes) : Prop :=
  ∃ timeout, Fate found id timeout e.job e.errands e.outcome e.taken

theorem outcome_cancelled_iff (e : Episode) :
    e.outcome = .error .cancelled ↔ e.result = .error .cancelled := by
  rw [outcome]
  cases e.result <;> simp [Except.map]

theorem outcome_error (e : Episode) (error : ClientError) (h : e.outcome = .error error) :
    e.result = .error error := by
  rw [outcome] at h
  cases hresult : e.result with
  | error error' =>
    rw [hresult] at h
    cases h
    rfl
  | ok answer =>
    rw [hresult] at h
    cases h

theorem outcome_closed_iff (e : Episode) :
    e.outcome = .error (.closed .statement) ↔ e.result = .error (.closed .statement) := by
  rw [outcome]
  cases e.result <;> simp [Except.map]

namespace Went

variable {e : Episode} {id : String} {found : Message → Option Bytes}

theorem answered_iff (h : e.Went id found) (m : Message) (response : Bytes) :
    e.Answered m response ↔ e.taken = [(m, response)] := by
  obtain ⟨timeout, hfate⟩ := h
  rw [hfate.taken_iff m response, Ne, outcome_cancelled_iff, Responded]
  rfl

theorem taken_cases (h : e.Went id found) (m : Message) :
    (e.taken = [] ∧ ¬ ∃ response, e.Answered m response) ∨
      ∃ exchange, e.taken = [exchange] ∧
        ((∃ response, e.Answered m response) ↔ exchange.1 = m) := by
  simp only [h.answered_iff m]
  cases htaken : e.taken with
  | nil => exact .inl ⟨rfl, by simp⟩
  | cons exchange rest =>
    right
    obtain ⟨m', response'⟩ := exchange
    obtain ⟨timeout, hfate⟩ := h
    have hmem : (m', response') ∈ e.taken := by simp [htaken]
    rw [← htaken, (hfate.of_taken hmem).1]
    exact ⟨_, rfl, by simp⟩

end Went

/-- Which of the executions was the last to be answered can be told from what the cache took. -/
theorem lastOf_taken (es : List Episode) (hes : ∀ e ∈ es, ∃ id found, e.Went id found) (m : Message)
    {last : Option Episode} (h : LastOf (fun e => ∃ response, e.Answered m response) es last) :
    LastOf (fun exchange => exchange.1 = m) (es.flatMap taken)
      (last.bind fun e => e.taken.head?) := by
  refine h.flatMap fun e he => ?_
  obtain ⟨id, found, hwent⟩ := hes e he
  exact hwent.taken_cases m

theorem none_taken (es : List Episode) (hes : ∀ e ∈ es, ∃ id found, e.Went id found)
    (m : Message) (h : ∀ e ∈ es, ¬ ∃ response, e.Answered m response) :
    LastOf (fun exchange => exchange.1 = m) (es.flatMap taken) none := by
  have hnone : LastOf (fun e => ∃ response, e.Answered m response) es none := h
  exact lastOf_taken es hes m hnone

end Episode

section

variable {κ : Type} [SqlLibrary κ] {c : Circumstances} {id : String}
  {Took : Exchanges → Recorder κ → Prop}
  {found : Exchanges → Message → Option Bytes}

theorem episodes_jobs (c : Circumstances) (id : String) (jobs : List Job) (w : Site κ) :
    (c.episodes id jobs w).1.map Episode.job = jobs := by
  induction jobs generalizing w with
  | nil => rfl
  | cons job jobs ih =>
    show job :: (c.episodes id jobs (c.episode id job w).2).1.map Episode.job = _
    rw [ih]

/-- Along a run the cache takes the exchanges of one execution after the other, and answers each
execution from those before. -/
theorem episodes_fate (hserves : Serves c id Took found) (jobs : List Job) {before : Exchanges}
    {w : Site κ} (htook : Took before w.cache) :
    Took (before ++ (c.episodes id jobs w).1.flatMap Episode.taken)
        (c.episodes id jobs w).2.cache ∧
      (c.episodes id jobs w).2.files = w.files ∧
      ∀ front e back, (c.episodes id jobs w).1 = front ++ e :: back →
        e.Went id (found (before ++ front.flatMap Episode.taken)) := by
  -- what the first execution has the cache take is taken before the others
  induction jobs generalizing before w with
  | nil =>
    refine ⟨?_, rfl, fun front e back hsplit => ?_⟩
    · rw [show (c.episodes id [] w).1.flatMap Episode.taken = [] from rfl, List.append_nil]
      exact htook
    · exact absurd hsplit (by simp [Circumstances.episodes])
  | cons job jobs ih =>
    obtain ⟨taken, timeout, htook', hfiles, hfate⟩ := episode_fate hserves htook job
    rcases hepisode : c.episode id job w with ⟨e, w'⟩
    rw [hepisode] at htook' hfiles hfate
    have hjob : e.job = job := by
      rw [show e = (c.episode id job w).1 by rw [hepisode]]
      rfl
    have htaken : taken = e.taken := hfate.taken_eq
    subst htaken
    obtain ⟨hrest, hrestFiles, hwent⟩ := ih htook'
    have hepisodes : c.episodes id (job :: jobs) w =
        (e :: (c.episodes id jobs w').1, (c.episodes id jobs w').2) := by
      rw [Circumstances.episodes, hepisode]
    rw [hepisodes]
    refine ⟨?_, hrestFiles.trans hfiles, fun front e' back hsplit => ?_⟩
    · rw [List.flatMap_cons, ← List.append_assoc]
      exact hrest
    · cases front with
      | nil =>
        obtain ⟨rfl, -⟩ := List.cons.inj hsplit
        rw [List.flatMap_nil, List.append_nil]
        rw [← hjob] at hfate
        exact ⟨timeout, hfate⟩
      | cons first front =>
        obtain ⟨rfl, hback⟩ := List.cons.inj hsplit
        have hlater := hwent front e' back hback
        rw [List.flatMap_cons, ← List.append_assoc]
        exact hlater

end

end OlapClient
