import OlapClient.Proofs.Statement.Operation
import OlapClient.Proofs.Statement.Scene

/-!
# Turns of an execution

Everything that a turn can do, once: from which stage, under which condition, to which stage, and
what becomes of the statement and the desk. What later modules say of turns follows from this list,
not from the functions behind it.
-/

namespace OlapClient

/-- The desk after a wait that failed: a call that took too long is cancelled. -/
def Desk.afterFailure (d : Desk) (call : Nat) : ClientError → Desk
  | .timedOut _ => (d.cancelCall call).1
  | _ => d

namespace Execution

/-! ### The list -/

/-- What a turn of an execution does: the stage, the statement and the desk that it leaves. -/
inductive Advance (x : Execution) (config : Config) (s : Statement) (d : Desk) :
    Turn → Stage → Statement → Desk → Prop where
  /-- The turn is not due. -/
  | rest (t : Turn) : Advance x config s d t x.stage s d
  | unbuilt (h : x.stage = .admitted) (e : ClientError) (he : x.job.request config = .error e) :
      Advance x config s d .step (.failing e) s d
  | looks (h : x.stage = .admitted) (body : Bytes) (hb : x.job.request config = .ok body)
      (hs : x.session.isSome = true) : Advance x config s d .step (.looking ⟨config.url, body⟩) s d
  | skips (h : x.stage = .admitted) (body : Bytes) (hb : x.job.request config = .ok body)
      (hs : x.session.isSome = false) :
      Advance x config s d .step (.checking ⟨config.url, body⟩) s d
  | lookFails (m : Message) (h : x.stage = .looking m) (e : ClientError) :
      Advance x config s d (.reply (.got (.error e))) (.failing e) s d
  | hits (m : Message) (h : x.stage = .looking m) (response : Bytes) :
      Advance x config s d (.reply (.got (.ok (some response)))) (.found response) s d
  | misses (m : Message) (h : x.stage = .looking m) :
      Advance x config s d (.reply (.got (.ok none))) (.checking m) s d
  | foundCancelled (response : Bytes) (h : x.stage = .found response)
      (hf : s.cancelRequested = true) :
      Advance x config s d .step (.failing .cancelled) { s with cancelRequested := false } d
  | foundUsed (response : Bytes) (h : x.stage = .found response)
      (hf : s.cancelRequested = false) : Advance x config s d .step (.reading response true) s d
  | checkCancelled (m : Message) (h : x.stage = .checking m) (hf : s.cancelRequested = true) :
      Advance x config s d .step (.failing .cancelled) { s with cancelRequested := false } d
  | submits (m : Message) (h : x.stage = .checking m) (hf : s.cancelRequested = false) :
      Advance x config s d .step (.submitting m) s d
  | submitFails (m : Message) (h : x.stage = .submitting m) (e : ClientError) :
      Advance x config s d (.reply (.submitted (.error e))) (.failing e) s d
  | accepted (m : Message) (h : x.stage = .submitting m) (call : Nat) :
      Advance x config s d (.reply (.submitted (.ok call))) (.registering m call) s d
  | registers (m : Message) (call : Nat) (h : x.stage = .registering m call)
      (hf : s.cancelRequested = false) :
      Advance x config s d .step (.waiting m call) { s with pending := some call } d
  | registersCancelled (m : Message) (call : Nat) (h : x.stage = .registering m call)
      (hf : s.cancelRequested = true) :
      Advance x config s d .step (.waiting m call)
        { s with pending := some call, cancelRequested := (d.cancelCall call).2 }
        (d.cancelCall call).1
  | waitReturns (m : Message) (call : Nat) (h : x.stage = .waiting m call)
      (result : Except ClientError Bytes) :
      Advance x config s d (.reply (.waited result)) (.recording m call result) s d
  | waitEnds (m : Message) (call : Nat) (h : x.stage = .waiting m call)
      (result : Except ClientError Bytes) (calls : Calls)
      (hw : d.calls.wait call x.timeout = some (result, calls)) :
      Advance x config s d .waited (.recording m call result) s { d with calls := calls }
  | recordsCancelled (m : Message) (call : Nat) (result : Except ClientError Bytes)
      (h : x.stage = .recording m call result) (hf : s.cancelRequested = true) :
      Advance x config s d .step (.failing .cancelled)
        { s with pending := none, cancelRequested := false } d
  | recordsFailure (m : Message) (call : Nat) (e : ClientError)
      (h : x.stage = .recording m call (.error e)) (hf : s.cancelRequested = false) :
      Advance x config s d .step (.failing e)
        { s with pending := none, cancelRequested := false }
        (d.afterFailure call e)
  | recordsForCache (m : Message) (call : Nat) (response : Bytes)
      (h : x.stage = .recording m call (.ok response)) (hf : s.cancelRequested = false)
      (hs : x.session.isSome = true) :
      Advance x config s d .step (.storing m response)
        { s with pending := none, cancelRequested := false } d
  | records (m : Message) (call : Nat) (response : Bytes)
      (h : x.stage = .recording m call (.ok response)) (hf : s.cancelRequested = false)
      (hs : x.session.isSome = false) :
      Advance x config s d .step (.reading response false)
        { s with pending := none, cancelRequested := false } d
  | storeFails (m : Message) (response : Bytes) (h : x.stage = .storing m response)
      (e : ClientError) : Advance x config s d (.reply (.stored (.error e))) (.failing e) s d
  | stores (m : Message) (response : Bytes) (h : x.stage = .storing m response) :
      Advance x config s d (.reply (.stored (.ok ()))) (.reading response false) s d
  | unreadable (response : Bytes) (cacheHit : Bool) (h : x.stage = .reading response cacheHit)
      (e : ClientError) (hr : readStage x.job response cacheHit = .error e) :
      Advance x config s d .step (.returned (.error e)) { s with phase := .failed } d
  | readsRows (response : Bytes) (cacheHit : Bool) (h : x.stage = .reading response cacheHit)
      (hj : x.job.isMultidimensional = false) (r : Rowset)
      (hr : readStage x.job response cacheHit = .ok (.returned (.ok (.rowset r)))) :
      Advance x config s d .step (.returned (.ok (.rowset r))) { s with phase := .completed } d
  | readsCells (response : Bytes) (cacheHit : Bool) (h : x.stage = .reading response cacheHit)
      (hj : x.job.isMultidimensional = true) (cells : CellSet)
      (hr : readStage x.job response cacheHit = .ok (.opening cells)) :
      Advance x config s d .step (.opening cells) { s with phase := .completed } d
  | fails (e : ClientError) (h : x.stage = .failing e) :
      Advance x config s d .step (.returned (.error e))
        { s with phase := .ofError e, cancelRequested := false } d
  | refusesCells (cells : CellSet) (h : x.stage = .opening cells) (hc : s.isClosed = true) :
      Advance x config s d .step (.returned (.error (.closed .statement))) s d
  | opensCells (cells : CellSet) (h : x.stage = .opening cells) (hc : s.isClosed = false) :
      Advance x config s d .step (.returned (.ok (.cellSet d.cellSets.length)))
        { s with openCellSet := some d.cellSets.length }
        ((d.closeLeftOpen s.openCellSet).addCellSet cells).1

/-! ### Every turn is in the list -/

section

variable (x : Execution) (config : Config) (s : Statement) (d : Desk)

@[simp] theorem goTo_stage (g : Stage) : (x.goTo g).stage = g := rfl

/-- A response that can be read gives rows or cells, as the job has it. -/
theorem readStage_ok (job : Job) (response : Bytes) (cacheHit : Bool) (g : Stage)
    (h : readStage job response cacheHit = .ok g) :
    (job.isMultidimensional = false ∧ ∃ r, g = .returned (.ok (.rowset r))) ∨
      (job.isMultidimensional = true ∧ ∃ cells, g = .opening cells) := by
  cases hj : job.isMultidimensional with
  | false =>
    rw [readStage, hj] at h
    cases hr : Rowset.ofResponse response with
    | error e => simp [hr, Except.map] at h
    | ok r =>
      simp only [hr, Except.map, Bool.false_eq_true, if_false, Except.ok.injEq] at h
      exact .inl ⟨rfl, _, h.symm⟩
  | true =>
    rw [readStage, hj] at h
    cases hr : CellSet.ofResponse response with
    | error e => simp [hr, Except.map] at h
    | ok cells =>
      simp only [hr, Except.map, if_true, Except.ok.injEq] at h
      exact .inr ⟨rfl, _, h.symm⟩

/-- What a turn leaves is one entry of the list. -/
def Listed (t : Turn) (r : Execution × Statement × Desk) : Prop :=
  ∃ g s' d', r = (x.goTo g, s', d') ∧ x.Advance config s d t g s' d'

variable {x config s d}

theorem Advance.listed {t : Turn} {g : Stage} {s' : Statement} {d' : Desk}
    (h : x.Advance config s d t g s' d') : x.Listed config s d t (x.goTo g, s', d') :=
  ⟨g, s', d', rfl, h⟩

variable (x config s d)

theorem build_listed (h : x.stage = .admitted) :
    x.Listed config s d .step (x.build config s d).2 := by
  cases hb : x.job.request config with
  | error e =>
    simp only [build, hb]
    exact (Advance.unbuilt h e hb).listed
  | ok body =>
    simp only [build, hb]
    cases hs : x.session.isSome with
    | false => exact (Advance.skips h body hb hs).listed
    | true => exact (Advance.looks h body hb hs).listed

theorem useFound_listed (response : Bytes) (h : x.stage = .found response) :
    x.Listed config s d .step (x.useFound response s d).2 := by
  cases hf : s.cancelRequested with
  | false =>
    simp only [useFound, hf, Bool.false_eq_true, if_false]
    exact (Advance.foundUsed response h hf).listed
  | true =>
    simp only [useFound, hf, if_true]
    exact (Advance.foundCancelled response h hf).listed

theorem check_listed (m : Message) (h : x.stage = .checking m) :
    x.Listed config s d .step (x.check m s d).2 := by
  cases hf : s.cancelRequested with
  | false =>
    simp only [check, hf, Bool.false_eq_true, if_false]
    exact (Advance.submits m h hf).listed
  | true =>
    simp only [check, hf, if_true]
    exact (Advance.checkCancelled m h hf).listed

theorem register_listed (m : Message) (call : Nat) (h : x.stage = .registering m call) :
    x.Listed config s d .step (x.register m call s d).2 := by
  cases hf : s.cancelRequested with
  | false =>
    have he : (x.register m call s d).2 =
        (x.goTo (.waiting m call), { s with pending := some call }, d) := by
      simp [register, hf]
    rw [he]
    exact (Advance.registers m call h hf).listed
  | true =>
    have he : (x.register m call s d).2 = (x.goTo (.waiting m call),
        { s with pending := some call, cancelRequested := (d.cancelCall call).2 },
        (d.cancelCall call).1) := by
      simp [register, hf]
    rw [he]
    exact (Advance.registersCancelled m call h hf).listed

theorem recordWait_listed (m : Message) (call : Nat) (result : Except ClientError Bytes)
    (h : x.stage = .recording m call result) :
    x.Listed config s d .step (x.recordWait m call result s d).2 := by
  cases hf : s.cancelRequested with
  | true =>
    simp only [recordWait, hf, if_true]
    exact (Advance.recordsCancelled m call result h hf).listed
  | false =>
    cases result with
    | error e =>
      have he : (x.recordWait m call (.error e) s d).2 = (x.goTo (.failing e),
          { s with pending := none, cancelRequested := false }, d.afterFailure call e) := by
        cases e <;> simp [recordWait, hf, Desk.afterFailure]
      rw [he]
      exact (Advance.recordsFailure m call e h hf).listed
    | ok response =>
      simp only [recordWait, hf, Bool.false_eq_true, if_false]
      cases hs : x.session.isSome with
      | false => exact (Advance.records m call response h hf hs).listed
      | true => exact (Advance.recordsForCache m call response h hf hs).listed

theorem read_listed (response : Bytes) (cacheHit : Bool)
    (h : x.stage = .reading response cacheHit) :
    x.Listed config s d .step (x.read response cacheHit s d).2 := by
  cases hr : readStage x.job response cacheHit with
  | error e =>
    simp only [read, hr]
    exact (Advance.unreadable response cacheHit h e hr).listed
  | ok g =>
    simp only [read, hr]
    obtain ⟨hj, r, rfl⟩ | ⟨hj, cells, rfl⟩ := readStage_ok x.job response cacheHit g hr
    · exact (Advance.readsRows response cacheHit h hj r hr).listed
    · exact (Advance.readsCells response cacheHit h hj cells hr).listed

theorem openCells_listed (cells : CellSet) (h : x.stage = .opening cells) :
    x.Listed config s d .step (x.openCells cells s d).2 := by
  cases hc : s.isClosed with
  | true =>
    simp only [openCells, hc, if_true]
    exact (Advance.refusesCells cells h hc).listed
  | false =>
    have he : (x.openCells cells s d).2 =
        (x.goTo (.returned (.ok (.cellSet d.cellSets.length))),
          { s with openCellSet := some d.cellSets.length },
          ((d.closeLeftOpen s.openCellSet).addCellSet cells).1) := by
      simp [openCells, hc, Desk.addCellSet, closeLeftOpen_length]
    rw [he]
    exact (Advance.opensCells cells h hc).listed

theorem rest_listed (t : Turn) : x.Listed config s d t (x, s, d) := (Advance.rest t).listed

theorem step_listed : x.Listed config s d .step (x.step config s d).2 := by
  unfold step
  split
  case h_1 h => exact x.build_listed config s d h
  case h_2 response h => exact x.useFound_listed config s d response h
  case h_3 m h => exact x.check_listed config s d m h
  case h_4 m call h => exact x.register_listed config s d m call h
  case h_5 m call result h => exact x.recordWait_listed config s d m call result h
  case h_6 response cacheHit h => exact x.read_listed config s d response cacheHit h
  case h_7 cells h => exact x.openCells_listed config s d cells h
  case h_8 e h => exact (Advance.fails e h).listed
  all_goals exact x.rest_listed config s d .step

theorem reply_listed (r : Reply) : x.Listed config s d (.reply r) ((x.resume r).2, s, d) := by
  unfold resume
  split
  case h_1 m e h => exact (Advance.lookFails m h e).listed
  case h_2 m response h => exact (Advance.hits m h response).listed
  case h_3 m h => exact (Advance.misses m h).listed
  case h_4 m e h => exact (Advance.submitFails m h e).listed
  case h_5 m call h => exact (Advance.accepted m h call).listed
  case h_6 m call result h => exact (Advance.waitReturns m call h result).listed
  case h_7 m response e h => exact (Advance.storeFails m response h e).listed
  case h_8 m response u h => exact (Advance.stores m response h).listed
  case h_9 => exact x.rest_listed config s d _

theorem waited_listed : x.Listed config s d .waited ((x.endWait d).1, s, (x.endWait d).2) := by
  unfold endWait
  split
  case h_1 m call h =>
    cases hw : d.calls.wait call x.timeout with
    | none => exact x.rest_listed config s d .waited
    | some r =>
      have he : (x.resume (.waited r.1)).2 = x.goTo (.recording m call r.1) := by
        simp [resume, h]
      simp only [he]
      exact (Advance.waitEnds m call h r.1 r.2 hw).listed
  case h_2 => exact x.rest_listed config s d .waited

/-- Every turn is in the list. -/
theorem take_listed (t : Turn) : x.Listed config s d t (x.take t config s d) := by
  cases t with
  | step => exact x.step_listed config s d
  | reply r => exact x.reply_listed config s d r
  | waited => exact x.waited_listed config s d

end

end Execution

end OlapClient
