import OlapClient.Transport.Call
import OlapClient.Text.Quoted

/-!
# A transport of workers

Each submission gets a worker of its own. The worker skips a call that was cancelled before it
started, else makes the exchange once and answers the call; an answer that comes too late is
dropped. The steps of the workers and of those who wait or cancel may interleave in any way.
-/

namespace OlapClient

/-- A blocking exchange: from address and request to a response, or to the text of a failure. -/
abbrev Exchange := String → Bytes → Except String Bytes

/-- How far a worker is. -/
inductive WorkerStage where
  | ready
  /-- The call was not cancelled when the worker looked. -/
  | started
  /-- The exchange is made. -/
  | exchanged (result : Except ClientError Bytes)
  | finished

/-- A submission and its worker. -/
structure Worker where
  url : String
  request : Bytes
  stage : WorkerStage := .ready
  call : Call := .unresolved

namespace Worker

/-- The result of an exchange as the call reports it. -/
def report (url : String) (result : Except String Bytes) : Except ClientError Bytes :=
  result.mapError fun cause => .transport ("exchange with " ++ url ++ " failed") (some cause)

/-- The next step of a worker, whose exchange may have effects of its own. -/
def stepIn {m : Type → Type} [Monad m] (exchange : String → Bytes → m (Except String Bytes))
    (w : Worker) : m Worker :=
  match w.stage with
  | .ready => pure { w with stage := if w.call.isCancelled then .finished else .started }
  | .started => do
    let result ← exchange w.url w.request
    return { w with stage := .exchanged (report w.url result) }
  | .exchanged result => pure { w with stage := .finished, call := (w.call.complete result).1 }
  | .finished => pure w

/-- The next step of a worker whose exchange does nothing but answer. -/
def step (exchange : Exchange) (w : Worker) : Worker := Id.run (w.stepIn (m := Id) exchange)

/-- A worker that is not disturbed any more: it is ready, makes its exchange, and answers. -/
def finish (exchange : Exchange) (w : Worker) : Worker :=
  ((w.step exchange).step exchange).step exchange

/-- Cancels the call; says whether it was still unresolved. -/
def cancel (w : Worker) : Worker × Bool := ({ w with call := w.call.cancel.1 }, w.call.cancel.2)

/-- Waits for the call. -/
def wait (w : Worker) (bound : Option Duration) : Option (Except ClientError Bytes × Worker) :=
  (w.call.wait bound).map fun (result, call) => (result, { w with call := call })

end Worker

/-- The submissions of a transport, by number. -/
structure WorkerTransport where
  workers : List Worker := []

namespace WorkerTransport

/-- One more submission, and its number. -/
def submit (t : WorkerTransport) (url : String) (request : Bytes) : WorkerTransport × Nat :=
  ({ workers := t.workers ++ [{ url := url, request := request }] }, t.workers.length)

/-- The transport with the worker of a number changed. -/
def modify (t : WorkerTransport) (n : Nat) (f : Worker → Worker) : WorkerTransport :=
  { workers := t.workers.modify n f }

/-- The transport as messages show it. -/
def shown (t : WorkerTransport) : String :=
  Text.record "ThreadTransport" [("submitted", toString t.workers.length)] true

end WorkerTransport

end OlapClient
