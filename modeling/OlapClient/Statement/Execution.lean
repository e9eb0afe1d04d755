import OlapClient.Statement.Basic

/-!
# Executions

An execution takes a request through the cache and the transport to a result. It is a sequence
of stages. Some stages wait for a call outside: looking a response up in the cache, submitting
the request, waiting for the response, storing it. Every other stage is one step on the state of
the statement. Between any two of them others may act on the statement: cancel it, close it, or
try to execute on it again.
-/

namespace OlapClient

/-- What is to be executed. -/
inductive Job where
  /-- A statement with a flat result. -/
  | rows (mdx : String)
  /-- A statement with a multidimensional result. -/
  | cells (mdx : String)
  /-- A request for metadata of a type under restrictions. -/
  | discover (type : String) (restrictions : Properties)
  deriving DecidableEq, Repr

namespace Job

/-- Whether the result is multidimensional. -/
def isMultidimensional : Job → Bool
  | cells _ => true
  | _ => false

/-- The request of a job. -/
def request (config : Config) : Job → Except ClientError Bytes
  | rows mdx => .ok (Request.execute mdx config .tabular)
  | cells mdx => .ok (Request.execute mdx config .multidimensional)
  | discover type restrictions => Request.discover type restrictions config

end Job

/-- A request and where it goes. -/
structure Message where
  url : String
  body : Bytes
  deriving DecidableEq, Repr

/-- The result of an execution. -/
inductive Answer where
  | rowset (r : Rowset)
  /-- The number of a cell set on the desk. -/
  | cellSet (n : Nat)
  deriving DecidableEq, Repr

/-- How far an execution is. -/
inductive Stage where
  /-- Admitted; the request is not built yet. -/
  | admitted
  /-- Waits for the cache. -/
  | looking (m : Message)
  /-- The cache has the response. -/
  | found (response : Bytes)
  /-- Nothing in the cache; the request is about to be submitted. -/
  | checking (m : Message)
  /-- Waits for the transport to accept the request. -/
  | submitting (m : Message)
  /-- Submitted; the statement does not know the call yet. -/
  | registering (m : Message) (call : Nat)
  /-- Waits for the response. -/
  | waiting (m : Message) (call : Nat)
  /-- The wait is over; the statement does not know yet. -/
  | recording (m : Message) (call : Nat) (result : Except ClientError Bytes)
  /-- Waits for the cache to store the response. -/
  | storing (m : Message) (response : Bytes)
  /-- The response is there and is about to be read. -/
  | reading (response : Bytes) (cacheHit : Bool)
  /-- The cell set is there; the statement does not know it yet. -/
  | opening (cells : CellSet)
  /-- Failed before there was a response; the statement does not know yet. -/
  | failing (e : ClientError)
  | returned (result : Except ClientError Answer)

/-- An execution under way. -/
structure Execution where
  job : Job
  /-- How long to wait for the response. -/
  timeout : Option Duration
  /-- The session at the cache, if there is a cache. -/
  session : Option String
  stage : Stage := .admitted

/-- A call that an execution makes outside. -/
inductive Demand where
  | get (session : String) (m : Message)
  | submit (m : Message)
  | wait (call : Nat) (timeout : Option Duration)
  | put (session : String) (m : Message) (response : Bytes)
  deriving DecidableEq, Repr

/-- What a call outside returned. -/
inductive Reply where
  | got (found : Except ClientError (Option Bytes))
  | submitted (call : Except ClientError Nat)
  | waited (result : Except ClientError Bytes)
  | stored (result : Except ClientError Unit)

/-- What an action on a statement does: the events, a value, the statement and the desk that it
leaves. -/
abbrev Acted (α : Type) := Logged (α × Statement × Desk)

namespace Statement

/-- Admits a job, unless the statement is closed, busy or cancelled. Admission of a
multidimensional job closes the cell set that is open. -/
def start (s : Statement) (d : Desk) (job : Job) (session : Option String) :
    Acted (Except ClientError Execution) :=
  if s.isClosed then ([], .error (.closed .statement), s, d)
  else if s.phase = .submitted then ([], .error (.request .alreadyExecuting), s, d)
  else
    let (s, d) :=
      if job.isMultidimensional then
        ({ s with openCellSet := none }, d.closeLeftOpen s.openCellSet)
      else (s, d)
    if s.cancelRequested then
      ([.cancelledBeforeSubmission], .error .cancelled,
        { s with cancelRequested := false, phase := .cancelled }, d)
    else
      ([], .ok { job := job, timeout := s.timeout, session := session },
        { s with phase := .submitted }, d)

end Statement

namespace Execution

/-- The same execution at another stage. -/
def goTo (x : Execution) (stage : Stage) : Execution := { x with stage := stage }

/-- The call outside that an execution waits for. -/
def demand? (x : Execution) : Option Demand :=
  match x.stage, x.session with
  | .looking m, some session => some (.get session m)
  | .submitting m, _ => some (.submit m)
  | .waiting _ call, _ => some (.wait call x.timeout)
  | .storing m response, some session => some (.put session m response)
  | _, _ => none

/-- The result of an execution that is over. -/
def result? (x : Execution) : Option (Except ClientError Answer) :=
  match x.stage with
  | .returned result => some result
  | _ => none

/-- The execution after a call outside has returned. -/
def resume (x : Execution) (reply : Reply) : Logged Execution :=
  match x.stage, reply with
  | .looking _, .got (.error e) => ([], x.goTo (.failing e))
  | .looking _, .got (.ok (some response)) => ([.cacheHit], x.goTo (.found response))
  | .looking m, .got (.ok none) => ([.cacheMiss], x.goTo (.checking m))
  | .submitting _, .submitted (.error e) => ([], x.goTo (.failing e))
  | .submitting m, .submitted (.ok call) => ([], x.goTo (.registering m call))
  | .waiting m call, .waited result => ([], x.goTo (.recording m call result))
  | .storing _ _, .stored (.error e) => ([], x.goTo (.failing e))
  | .storing _ response, .stored (.ok _) => ([], x.goTo (.reading response false))
  | _, _ => ([], x)

/-! ### Steps on the statement -/

/-- The request is built from the settings of the connection as they are now. -/
def build (x : Execution) (config : Config) (s : Statement) (d : Desk) : Acted Execution :=
  match x.job.request config with
  | .error e => ([], x.goTo (.failing e), s, d)
  | .ok body =>
    let m : Message := ⟨config.url, body⟩
    ([], x.goTo (if x.session.isSome then .looking m else .checking m), s, d)

/-- A cancellation counts even if the response is in the cache. -/
def useFound (x : Execution) (response : Bytes) (s : Statement) (d : Desk) : Acted Execution :=
  if s.cancelRequested then
    ([], x.goTo (.failing .cancelled), { s with cancelRequested := false }, d)
  else ([], x.goTo (.reading response true), s, d)

/-- The last check before the request is submitted. -/
def check (x : Execution) (m : Message) (s : Statement) (d : Desk) : Acted Execution :=
  if s.cancelRequested then
    ([.cancelledBeforeSubmission], x.goTo (.failing .cancelled),
      { s with cancelRequested := false }, d)
  else ([.submitting], x.goTo (.submitting m), s, d)

/-- The statement learns of the call. A cancellation since the last check cancels it, unless it
is resolved already. -/
def register (x : Execution) (m : Message) (call : Nat) (s : Statement) (d : Desk) :
    Acted Execution :=
  let s := { s with pending := some call }
  let x := x.goTo (.waiting m call)
  if s.cancelRequested then
    let (d, won) := d.cancelCall call
    ([], x, { s with cancelRequested := won }, d)
  else ([], x, s, d)

/-- The event for the end of a wait. -/
def waitEvent : Except ClientError Bytes → LogEvent
  | .ok _ => .responseReceived
  | .error .cancelled => .executionCancelled
  | .error (.timedOut _) => .executionTimedOut
  | .error _ => .transportFailed

/-- The statement learns that the wait is over. A cancellation that was noticed outweighs the
response; a call that took too long is cancelled. -/
def recordWait (x : Execution) (m : Message) (call : Nat) (result : Except ClientError Bytes)
    (s : Statement) (d : Desk) : Acted Execution :=
  let outcome := if s.cancelRequested then .error .cancelled else result
  let s := { s with pending := none, cancelRequested := false }
  let d := match outcome with
    | .error (.timedOut _) => (d.cancelCall call).1
    | _ => d
  let stage := match outcome with
    | .error e => .failing e
    | .ok response => if x.session.isSome then .storing m response else .reading response false
  ([waitEvent outcome], x.goTo stage, s, d)

/-- The statement learns of a failure; a cancellation that came too late is forgotten. -/
def fail (x : Execution) (e : ClientError) (s : Statement) (d : Desk) : Acted Execution :=
  ([], x.goTo (.returned (.error e)), { s with phase := .ofError e, cancelRequested := false }, d)

/-- The event for a response that cannot be used. -/
def readEvents : ClientError → List LogEvent
  | .serverFault _ => [.serverFault]
  | _ => []

/-- The stage that follows a response. -/
def readStage (job : Job) (response : Bytes) (cacheHit : Bool) : Except ClientError Stage :=
  let statistics : Statistics := ⟨cacheHit, response.length⟩
  if job.isMultidimensional then
    (CellSet.ofResponse response).map fun s => .opening { s with statistics := statistics }
  else
    (Rowset.ofResponse response).map fun r =>
      .returned (.ok (.rowset { r with statistics := statistics }))

/-- The response is read, and the statement learns how that went. -/
def read (x : Execution) (response : Bytes) (cacheHit : Bool) (s : Statement) (d : Desk) :
    Acted Execution :=
  match readStage x.job response cacheHit with
  | .error e => (readEvents e, x.goTo (.returned (.error e)), { s with phase := .failed }, d)
  | .ok stage => ([.executionCompleted], x.goTo stage, { s with phase := .completed }, d)

/-- The statement learns of its cell set, unless it was closed in the meantime. A cell set that
was opened in the meantime is closed. -/
def openCells (x : Execution) (cells : CellSet) (s : Statement) (d : Desk) : Acted Execution :=
  if s.isClosed then ([], x.goTo (.returned (.error (.closed .statement))), s, d)
  else
    let d := d.closeLeftOpen s.openCellSet
    let (d, n) := d.addCellSet cells
    ([], x.goTo (.returned (.ok (.cellSet n))), { s with openCellSet := some n }, d)

/-- The next step of an execution that does not wait for a call outside. -/
def step (x : Execution) (config : Config) (s : Statement) (d : Desk) : Acted Execution :=
  match x.stage with
  | .admitted => x.build config s d
  | .found response => x.useFound response s d
  | .checking m => x.check m s d
  | .registering m call => x.register m call s d
  | .recording m call result => x.recordWait m call result s d
  | .reading response cacheHit => x.read response cacheHit s d
  | .opening cells => x.openCells cells s d
  | .failing e => x.fail e s d
  | .looking _ | .submitting _ | .waiting _ _ | .storing _ _ | .returned _ => ([], x, s, d)

end Execution

end OlapClient
