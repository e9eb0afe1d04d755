import OlapClient.CellSet.Dataset
import OlapClient.Log
import OlapClient.Request
import OlapClient.Transport.Call

/-!
# Statements

A statement executes one request at a time. It knows the phase of its last execution, the call
in flight, whether a cancellation is waiting to be noticed, and the cell set it returned last
while that is open. Calls and cell sets stand on a desk that all statements share.
-/

namespace OlapClient

/-- How the last execution of a statement stands. -/
inductive Phase where
  /-- Nothing was executed yet. -/
  | idle
  /-- A request is being prepared, submitted or waited for. -/
  | submitted
  | completed
  | cancelled
  | timedOut
  | failed
  deriving DecidableEq, Repr

namespace Phase

/-- The word for a phase. -/
def word : Phase → String
  | idle => "Idle"
  | submitted => "Submitted"
  | completed => "Completed"
  | cancelled => "Cancelled"
  | timedOut => "TimedOut"
  | failed => "Failed"

/-- The phase that an error leaves. -/
def ofError : ClientError → Phase
  | .cancelled => cancelled
  | .timedOut _ => timedOut
  | _ => failed

end Phase

/-- A statement. -/
structure Statement where
  phase : Phase := .idle
  /-- The number of the call in flight. -/
  pending : Option Nat := none
  /-- A cancellation that no execution has noticed yet. -/
  cancelRequested : Bool := false
  /-- The number of the cell set returned last, until the statement closes it. -/
  openCellSet : Option Nat := none
  /-- How long an execution waits. -/
  timeout : Option Duration := none
  isClosed : Bool := false
  deriving DecidableEq, Repr

/-- The calls and the cell sets of all statements, by number. -/
structure Desk where
  calls : Calls := []
  cellSets : List CellSet := []

namespace Desk

/-- The desk with the cell set of a number closed. -/
def closeCellSet (d : Desk) (n : Nat) : Desk :=
  { d with cellSets := d.cellSets.modify n CellSet.close }

/-- The desk with one more cell set, and its number. -/
def addCellSet (d : Desk) (s : CellSet) : Desk × Nat :=
  ({ d with cellSets := d.cellSets ++ [s] }, d.cellSets.length)

/-- Cancels the call of a number; says whether it was still unresolved. -/
def cancelCall (d : Desk) (n : Nat) : Desk × Bool :=
  let (calls, won) := d.calls.cancel n
  ({ d with calls := calls }, won)

/-- The desk with the cell set closed that a statement left open. -/
def closeLeftOpen (d : Desk) (left : Option Nat) : Desk :=
  match left with
  | some n => d.closeCellSet n
  | none => d

end Desk

namespace Statement

/-- A new statement of a connection. -/
def ofConfig (c : Config) : Statement := { timeout := c.timeout }

/-- Cancels the execution in flight, or else the next one. -/
def cancel (s : Statement) (d : Desk) : Logged (Statement × Desk) :=
  match s.pending with
  | some n =>
    match d.cancelCall n with
    | (d, true) => ([.requestCancelled], { s with cancelRequested := true }, d)
    | (d, false) => ([.cancelLost], s, d)
  | none => ([.cancelRecorded], { s with cancelRequested := true }, d)

/-- Closes the statement, its open cell set and its call in flight. -/
def close (s : Statement) (d : Desk) : Logged (Statement × Desk) :=
  if s.isClosed then ([], s, d)
  else
    let d := d.closeLeftOpen s.openCellSet
    let closed := { s with isClosed := true, openCellSet := none }
    match s.pending with
    | some n =>
      let (d, won) := d.cancelCall n
      ([.statementClosed],
        { closed with cancelRequested := closed.cancelRequested || won }, d)
    | none => ([.statementClosed], closed, d)

/-- Bounds the time that executions wait, in seconds; zero is no bound. -/
def setTimeout (s : Statement) (seconds : Int) : Except ClientError Statement :=
  if seconds < 0 then .error (.negativeTimeout seconds)
  else .ok { s with
    timeout := if seconds = 0 then none else some (.ofSeconds seconds.toNat) }

/-- The statement as messages show it. -/
def shown (s : Statement) : String :=
  Text.record "Statement"
    [("phase", s.phase.word), ("timeout", Text.optional Duration.text s.timeout),
      ("closed", toString s.isClosed)]
    true

end Statement

end OlapClient
