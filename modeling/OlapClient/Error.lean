import OlapClient.Axis
import OlapClient.Duration
import OlapClient.Cache.Error
import OlapClient.Coordinate.Basic
import OlapClient.Identifier.Error
import OlapClient.Markup.Document

/-!
# Errors of statements and results

Every way in which executing a statement or reading its result can fail, by cause. The wording
of all of them is in one function.
-/

namespace OlapClient

/-- What a server reports when it refuses a request. -/
structure Fault where
  code : Option String
  description : String
  detail : Option String := none
  deriving DecidableEq, Repr

/-- Why a response cannot be decoded. -/
inductive ResponseError where
  | document (cause : Markup.DocumentError)
  /-- No element holds the result. -/
  | noRoot
  /-- A field of a row that the schema does not declare. -/
  | undeclaredField (name : String)
  | unknownAxis (name : String)
  | axesNotContiguous (expected : Nat) (found : AxisOrdinal)
  | namelessMember
  /-- A numeric field of a member that holds no number. -/
  | memberNumber (field text member : String)
  | cellWithoutOrdinal
  /-- A cell value that its declared type does not allow. -/
  | cellValue (text kind : String)
  | cellOutside (ordinal total : Nat)
  deriving DecidableEq, Repr

namespace ResponseError

/-- The wording of an error. -/
def message : ResponseError → String
  | document cause => cause.message
  | noRoot => "response has no root element"
  | undeclaredField name => "row field '" ++ name ++ "' is not declared in the schema"
  | unknownAxis name => "unknown axis name '" ++ name ++ "'"
  | axesNotContiguous expected found =>
    "axes are not contiguous: expected Axis" ++ toString expected ++ ", found " ++ found.name
  | namelessMember => "member without UName"
  | memberNumber field text member => "bad " ++ field ++ " '" ++ text ++ "' on " ++ member
  | cellWithoutOrdinal => "cell without a valid CellOrdinal"
  | cellValue text kind => "'" ++ text ++ "' is not a valid " ++ kind
  | cellOutside ordinal total =>
    "cell ordinal " ++ toString ordinal ++ " outside " ++ toString total ++ " cells"

end ResponseError

/-- Why a request is not made. -/
inductive RequestError where
  /-- A text that cannot be the name of an element. -/
  | elementName (name : String)
  /-- The statement is in the middle of an execution. -/
  | alreadyExecuting
  deriving DecidableEq, Repr

namespace RequestError

/-- The wording of an error. -/
def message : RequestError → String
  | elementName name => "'" ++ name ++ "' is not a valid element name"
  | alreadyExecuting => "statement is already executing"

end RequestError

/-- What can be closed and then no longer used. -/
inductive Closable where
  | statement
  | cellSet
  deriving DecidableEq, Repr

/-- The word for what is closed. -/
def Closable.word : Closable → String
  | statement => "statement"
  | cellSet => "cell set"

/-- Why a statement or an access to its result fails. -/
inductive ClientError where
  /-- Malformed identifier, tuple or list. -/
  | identifier (cause : IdentifierError)
  /-- The server answered with a fault. -/
  | serverFault (fault : Fault)
  /-- No response within the bound. -/
  | timedOut (bound : Duration)
  | cancelled
  /-- The transport failed, for a further cause if one is known. -/
  | transport (text : String) (cause : Option String)
  | coordinate (cause : CoordinateError)
  | unsupported (what : Unsupported)
  | response (cause : ResponseError)
  | request (cause : RequestError)
  /-- A timeout of less than zero seconds. -/
  | negativeTimeout (seconds : Int)
  | closed (what : Closable)
  | cache (cause : CacheError)
  deriving DecidableEq, Repr

namespace ClientError

/-- The wording of an error. -/
def message : ClientError → String
  | identifier cause => "identifier parse error: " ++ cause.message
  | serverFault fault =>
    let code := match fault.code with
      | some code => " [" ++ code ++ "]"
      | none => ""
    "server fault" ++ code ++ ": " ++ fault.description
  | timedOut bound => "query timeout after " ++ bound.text
  | cancelled => "statement cancelled"
  | transport text _ => "transport failure: " ++ text
  | coordinate cause => "invalid coordinate: " ++ cause.message
  | unsupported what => "unsupported operation: " ++ what.message
  | response cause => "invalid response: " ++ cause.message
  | request cause => "invalid request: " ++ cause.message
  | negativeTimeout seconds =>
    "invalid argument: timeout must not be negative, got " ++ toString seconds
  | closed what => what.word ++ " is closed"
  | cache cause => "response cache failure: " ++ cause.message

/-- The wording of what lies beneath the error, where something does. -/
def cause? : ClientError → Option String
  | identifier cause => some cause.message
  | transport _ cause => cause
  | cache cause => some cause.message
  | _ => none

/-- A cancelled execution. -/
def isCancelled : ClientError → Bool
  | cancelled => true
  | _ => false

/-- An execution without a response in time. -/
def isTimeout : ClientError → Bool
  | timedOut _ => true
  | _ => false

/-- The error of a statement for an error of its cache. -/
def ofCache : CacheError → ClientError
  | .unsupported what => .unsupported what
  | cause => .cache cause

end ClientError

end OlapClient
