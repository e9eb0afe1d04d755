import OlapClient.Statement.Execution

/-!
# Whole executions

An execution is run by its host, turn by turn: a turn is either a call outside, which the host
makes, or one uninterrupted step on the statement. The host may let others act on the statement
during a call; what they do is seen by the next step. No execution takes more than ten turns.
-/

namespace OlapClient

/-- The surroundings of an execution. -/
structure Host (m : Type → Type) where
  /-- An uninterrupted action on the statement and the desk, given the settings of the
  connection as they are at that moment. -/
  act : {α : Type} → (Config → Statement → Desk → Acted α) → m α
  /-- A call outside. -/
  call : Demand → m Reply
  /-- Passes events on. -/
  report : List LogEvent → m Unit

/-- The turns from a stage to the end, at most. -/
def Stage.turnsLeft : Stage → Nat
  | admitted => 10
  | looking _ => 9
  | checking _ => 8
  | submitting _ => 7
  | registering _ _ => 6
  | waiting _ _ => 5
  | recording _ _ _ => 4
  | found _ => 3
  | storing _ _ => 3
  | reading _ _ => 2
  | opening _ => 1
  | failing _ => 1
  | returned _ => 0

namespace Execution

variable {m : Type → Type} [Monad m]

/-- One turn of an execution. -/
def turn (host : Host m) (x : Execution) : m Execution :=
  match x.demand? with
  | some demand => do
    let reply ← host.call demand
    let (events, x) := x.resume reply
    host.report events
    return x
  | none => host.act x.step

/-- A number of turns of an execution. -/
def turns (host : Host m) : Nat → Execution → m Execution
  | 0, x => pure x
  | n + 1, x => do turns host n (← x.turn host)

/-- The result of an execution; one that is not over is still executing. -/
def result (x : Execution) : Except ClientError Answer :=
  x.result?.getD (.error (.request .alreadyExecuting))

end Execution

/-- Executes a job on a statement. -/
def Statement.execute {m : Type → Type} [Monad m] (host : Host m) (job : Job)
    (session : Option String) : m (Except ClientError Answer) := do
  match ← host.act fun _ s d => s.start d job session with
  | .error e => return .error e
  | .ok x => return (← x.turns host x.stage.turnsLeft).result

end OlapClient
