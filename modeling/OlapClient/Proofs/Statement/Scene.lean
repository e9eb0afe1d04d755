import OlapClient.Statement.Run

/-!
# Interleavings

A statement is shared. While one execution waits for a call outside, or is between two of its
steps, others may try to execute, cancel or close the statement, change the connection, act on
the calls in flight and on the cell sets. A scene holds all of that at one moment, a move is one
uninterrupted change of it, and a run is any sequence of moves.
-/

namespace OlapClient

/-! ### Turns of one execution -/

/-- How an execution gets on. -/
inductive Turn where
  /-- One uninterrupted step on the statement. -/
  | step
  /-- The call outside that it waits for returns. -/
  | reply (r : Reply)
  /-- Its wait ends, as the call in flight and the bound have it. -/
  | waited

namespace Execution

/-- The end of a wait, if the execution waits and its wait can end now. -/
def endWait (x : Execution) (d : Desk) : Execution × Desk :=
  match x.stage with
  | .waiting _ call =>
    match d.calls.wait call x.timeout with
    | some (result, calls) => ((x.resume (.waited result)).2, { d with calls := calls })
    | none => (x, d)
  | _ => (x, d)

/-- An execution, the statement and the desk after a turn; one that is not due has no effect. -/
def take (x : Execution) (t : Turn) (config : Config) (s : Statement) (d : Desk) :
    Execution × Statement × Desk :=
  match t with
  | .step => (x.step config s d).2
  | .reply r => ((x.resume r).2, s, d)
  | .waited => ((x.endWait d).1, s, (x.endWait d).2)

end Execution

/-! ### Scenes and moves -/

/-- A statement, the attempts to execute on it, and what surrounds them. -/
structure Scene where
  /-- The settings of the connection. -/
  config : Config
  /-- The session at the cache, if there is a cache. -/
  session : Option String
  statement : Statement
  desk : Desk
  /-- All attempts to execute, in order; one that was refused has returned at once. -/
  executions : List Execution := []

/-- One uninterrupted change of a scene. -/
inductive Move where
  /-- Somebody tries to execute a job. -/
  | attempt (job : Job)
  /-- The execution of a number gets on. -/
  | turn (n : Nat) (t : Turn)
  | cancel
  | close
  | setTimeout (seconds : Int)
  /-- The settings of the connection change. -/
  | configure (config : Config)
  /-- The holder of a cell set closes it. -/
  | closeCellSet (n : Nat)
  /-- Another statement returns a cell set. -/
  | addCellSet (cells : CellSet)
  /-- The transport, or whoever else holds calls, acts on them. -/
  | setCalls (calls : Calls)

namespace Scene

/-- The scene around a new statement. -/
def new (config : Config) (session : Option String) (desk : Desk) : Scene :=
  { config := config, session := session, statement := .ofConfig config, desk := desk }

/-- An attempt to execute a job: what was admitted, or returned at once. -/
def attempted (s : Scene) (job : Job) : Execution :=
  match (s.statement.start s.desk job s.session).2.1 with
  | .ok x => x
  | .error e => ⟨job, s.statement.timeout, s.session, .returned (.error e)⟩

/-- The scene after a move. -/
def after (s : Scene) : Move → Scene
  | .attempt job =>
    let started := (s.statement.start s.desk job s.session).2.2
    { s with
      statement := started.1
      desk := started.2
      executions := s.executions ++ [s.attempted job] }
  | .turn n t =>
    match s.executions[n]? with
    | some x =>
      let taken := x.take t s.config s.statement s.desk
      { s with
        statement := taken.2.1
        desk := taken.2.2
        executions := s.executions.set n taken.1 }
    | none => s
  | .cancel =>
    let cancelled := (s.statement.cancel s.desk).2
    { s with statement := cancelled.1, desk := cancelled.2 }
  | .close =>
    let closed := (s.statement.close s.desk).2
    { s with statement := closed.1, desk := closed.2 }
  | .setTimeout seconds =>
    match s.statement.setTimeout seconds with
    | .ok statement => { s with statement := statement }
    | .error _ => s
  | .configure config => { s with config := config }
  | .closeCellSet n => { s with desk := s.desk.closeCellSet n }
  | .addCellSet cells => { s with desk := (s.desk.addCellSet cells).1 }
  | .setCalls calls => { s with desk := { s.desk with calls := calls } }

/-- Bounding the time of executions touches nothing but the bound. -/
theorem after_setTimeout_eq (s : Scene) (seconds : Int) : ∃ timeout,
    s.after (.setTimeout seconds) =
      { s with statement := { s.statement with timeout := timeout } } := by
  by_cases hs : seconds < 0
  · exact ⟨s.statement.timeout, by simp [after, Statement.setTimeout, hs]⟩
  · exact ⟨if seconds = 0 then none else some (.ofSeconds seconds.toNat),
      by simp [after, Statement.setTimeout, hs]⟩

/-- The scene after a run. -/
def run (s : Scene) (ms : List Move) : Scene := ms.foldl after s

@[simp] theorem run_nil (s : Scene) : s.run [] = s := rfl

@[simp] theorem run_cons (s : Scene) (m : Move) (ms : List Move) :
    s.run (m :: ms) = (s.after m).run ms := rfl

@[simp] theorem run_append (s : Scene) (ms ns : List Move) :
    s.run (ms ++ ns) = (s.run ms).run ns := List.foldl_append

/-- How far the attempt of a number is. -/
def stage? (s : Scene) (n : Nat) : Option Stage := s.executions[n]?.map (·.stage)

/-- Whether the attempt of a number is at a stage of some kind. -/
def isAt (s : Scene) (n : Nat) (p : Stage → Bool) : Bool := (s.stage? n).any p

/-- What the attempt of a number has returned. -/
def answer? (s : Scene) (n : Nat) : Option (Except ClientError Answer) :=
  s.executions[n]?.bind Execution.result?

/-- What the execution of a number asks outside. -/
def demand? (s : Scene) (n : Nat) : Option Demand := s.executions[n]?.bind Execution.demand?

theorem isAt_iff (s : Scene) (n : Nat) (p : Stage → Bool) :
    s.isAt n p = true ↔ ∃ x, s.executions[n]? = some x ∧ p x.stage = true := by
  cases hx : s.executions[n]? <;> simp [isAt, stage?, hx]

theorem isAt_of (s : Scene) (n : Nat) (p : Stage → Bool) (x : Execution)
    (hx : s.executions[n]? = some x) : s.isAt n p = p x.stage := by
  simp [isAt, stage?, hx]

/-! ### Along a run -/

/-- Every move of a run is made in a scene that fits it. -/
def Always (P : Scene → Move → Prop) (s : Scene) : List Move → Prop
  | [] => True
  | m :: ms => P s m ∧ (s.after m).Always P ms

/-- Some move of a run is made in a scene that fits it. -/
def Sometime (P : Scene → Move → Prop) (s : Scene) : List Move → Prop
  | [] => False
  | m :: ms => P s m ∨ (s.after m).Sometime P ms

theorem always_append (P : Scene → Move → Prop) (s : Scene) (ms ns : List Move) :
    s.Always P (ms ++ ns) ↔ s.Always P ms ∧ (s.run ms).Always P ns := by
  induction ms generalizing s with
  | nil => simp [Always]
  | cons m ms ih => simp [Always, ih, and_assoc]

theorem sometime_append (P : Scene → Move → Prop) (s : Scene) (ms ns : List Move) :
    s.Sometime P (ms ++ ns) ↔ s.Sometime P ms ∨ (s.run ms).Sometime P ns := by
  induction ms generalizing s with
  | nil => simp [Sometime]
  | cons m ms ih => simp [Sometime, ih, or_assoc]

/-- What every move keeps, a run keeps. -/
theorem run_keeps (P : Scene → Prop) (h : ∀ s m, P s → P (s.after m)) (s : Scene)
    (ms : List Move) (hs : P s) : P (s.run ms) := by
  induction ms generalizing s with
  | nil => exact hs
  | cons m ms ih => exact ih (s.after m) (h s m hs)

/-- What every move of a kind keeps, a run of such moves keeps. -/
theorem run_keeps_of (P : Scene → Prop) (Q : Scene → Move → Prop)
    (h : ∀ s m, P s → Q s m → P (s.after m)) (s : Scene) (ms : List Move) (hQ : s.Always Q ms)
    (hs : P s) : P (s.run ms) := by
  induction ms generalizing s with
  | nil => exact hs
  | cons m ms ih =>
    obtain ⟨hm, hms⟩ := hQ
    exact ih (s.after m) hms (h s m hs hm)

end Scene

end OlapClient
