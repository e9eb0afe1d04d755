import OlapClient.Error

/-!
# Calls in flight

A call is resolved once: by a response, or by being cancelled, whichever comes first; what
comes later has no effect. A response is handed out once. Waiting for a call that is not resolved
lasts until it is, or until a bound has passed; the bound leaves the call as it is.
-/

namespace OlapClient

/-- A call in flight. -/
inductive Call where
  /-- Neither answered nor cancelled. -/
  | unresolved
  /-- Answered; nobody has taken the answer yet. -/
  | answered (result : Except ClientError Bytes)
  | cancelled
  /-- Answered, and the answer was taken. -/
  | consumed

namespace Call

/-- Answered or cancelled. -/
def isResolved : Call → Bool
  | unresolved => false
  | _ => true

/-- Cancelled before an answer came. -/
def isCancelled : Call → Bool
  | cancelled => true
  | _ => false

/-- Answers a call; says whether the answer was accepted. -/
def complete (c : Call) (result : Except ClientError Bytes) : Call × Bool :=
  match c with
  | unresolved => (answered result, true)
  | c => (c, false)

/-- Cancels a call; says whether it was still unresolved. -/
def cancel (c : Call) : Call × Bool :=
  match c with
  | unresolved => (cancelled, true)
  | c => (c, false)

/-- What a wait returns at once, and the call it leaves; none if the call is not resolved. -/
def take? : Call → Option (Except ClientError Bytes × Call)
  | unresolved => none
  | answered result => some (result, consumed)
  | cancelled => some (.error .cancelled, cancelled)
  | consumed => some (.error (.transport "response already consumed" none), consumed)

/-- What a wait returns while nobody else touches the call; none if it never returns. -/
def wait (c : Call) (bound : Option Duration) : Option (Except ClientError Bytes × Call) :=
  match c.take? with
  | some taken => some taken
  | none => bound.map fun d => (.error (.timedOut d), c)

end Call

/-- Calls by number. -/
abbrev Calls := List Call

namespace Calls

/-- Cancels the call of a number; says whether it was still unresolved. -/
def cancel (calls : Calls) (n : Nat) : Calls × Bool :=
  match calls[n]? with
  | some c => (calls.set n c.cancel.1, c.cancel.2)
  | none => (calls, false)

/-- Answers the call of a number; says whether the answer was accepted. -/
def complete (calls : Calls) (n : Nat) (result : Except ClientError Bytes) : Calls × Bool :=
  match calls[n]? with
  | some c => (calls.set n (c.complete result).1, (c.complete result).2)
  | none => (calls, false)

/-- Waits for the call of a number. -/
def wait (calls : Calls) (n : Nat) (bound : Option Duration) :
    Option (Except ClientError Bytes × Calls) := do
  let c ← calls[n]?
  let (result, c) ← c.wait bound
  return (result, calls.set n c)

/-- Whether the call of a number is resolved. -/
def isResolved (calls : Calls) (n : Nat) : Bool := calls[n]?.any Call.isResolved

end Calls

end OlapClient
