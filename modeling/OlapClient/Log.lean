/-!
# Log events

What statements, connections and caches report while they work. Each event has a severity and
the part of the library that it belongs to.
-/

namespace OlapClient

/-- The severity of an event. -/
inductive Level where
  | debug
  | info
  | warn
  deriving DecidableEq, Repr

/-- The word for a severity. -/
def Level.word : Level → String
  | debug => "DEBUG"
  | info => "INFO"
  | warn => "WARN"

/-- What is reported. -/
inductive LogEvent where
  -- statements
  | cancelledBeforeSubmission
  | cacheHit
  | cacheMiss
  | submitting
  | responseReceived
  | executionCancelled
  | executionTimedOut
  | transportFailed
  | serverFault
  | executionCompleted
  | requestCancelled
  | cancelLost
  | cancelRecorded
  | statementClosed
  | catalogChanged
  -- caches
  | cacheAttached
  | cacheConfigured
  | cacheKept
  | cachePropertiesIgnored
  | backendOpened
  | backendLookup
  | replayed
  | recorded
  | outputOpened
  | inputMissing
  | inputLoaded
  | tableDropped
  | credentialsIgnored
  deriving DecidableEq, Repr

namespace LogEvent

/-- Events of statements, as against those of caches. -/
def ofStatement : LogEvent → Bool
  | cancelledBeforeSubmission | cacheHit | cacheMiss | submitting | responseReceived
  | executionCancelled | executionTimedOut | transportFailed | serverFault | executionCompleted
  | requestCancelled | cancelLost | cancelRecorded | statementClosed | catalogChanged => true
  | _ => false

/-- The severity of an event. -/
def level : LogEvent → Level
  | cancelledBeforeSubmission | submitting | executionCancelled | cacheAttached
  | cacheConfigured | backendOpened => .info
  | executionTimedOut | transportFailed | serverFault | cachePropertiesIgnored
  | credentialsIgnored => .warn
  | _ => .debug

/-- The wording of an event. -/
def message : LogEvent → String
  | cancelledBeforeSubmission => "cancelled before submission"
  | cacheHit => "response cache hit"
  | cacheMiss => "response cache miss"
  | submitting => "submitting request"
  | responseReceived => "response received"
  | executionCancelled => "execution cancelled"
  | executionTimedOut => "execution timed out"
  | transportFailed => "transport failed"
  | serverFault => "server fault"
  | executionCompleted => "execution completed"
  | requestCancelled => "in-flight request cancelled"
  | cancelLost => "cancel lost the race with completion"
  | cancelRecorded => "cancel recorded"
  | statementClosed => "statement closed"
  | catalogChanged => "catalog changed"
  | cacheAttached => "response cache attached"
  | cacheConfigured => "response cache configured"
  | cacheKept => "cache already initialized"
  | cachePropertiesIgnored => "cache already initialized, ignoring differing properties"
  | backendOpened => "cache backend initialized"
  | backendLookup => "backend lookup"
  | replayed => "replayed response from this run"
  | recorded => "response recorded"
  | outputOpened => "cache output opened"
  | inputMissing => "cache input missing, starting empty"
  | inputLoaded => "cache input loaded"
  | tableDropped => "cache table dropped"
  | credentialsIgnored => "credentials are ignored by this driver"

/-- The event as a line: severity, part of the library, wording. -/
def line (e : LogEvent) : String :=
  e.level.word ++ (if e.ofStatement then " xmla::statement " else " xmla::cache ") ++ e.message

end LogEvent

/-- A value and the events that were reported on the way to it. -/
abbrev Logged (α : Type) := List LogEvent × α

end OlapClient
