import OlapClient.Error
import OlapClient.Interchange.Value

/-!
# Structured errors

An error as an object: the name of its kind, its wording, and what else is known of it. What the
database says stays inside; only that it was the database is told.
-/

namespace OlapClient.Interchange

open Value

/-- The name of the kind of an error of a statement. -/
def clientErrorKind : ClientError → String
  | .identifier _ => "Parse"
  | .serverFault _ => "ProtocolFault"
  | .timedOut _ => "Timeout"
  | .cancelled => "Cancelled"
  | .transport _ _ => "Transport"
  | .coordinate _ => "InvalidCoordinate"
  | .unsupported _ => "UnsupportedOperation"
  | .response _ => "InvalidResponse"
  | .request _ => "InvalidRequest"
  | .negativeTimeout _ => "InvalidArgument"
  | .closed _ => "Closed"
  | .cache _ => "Cache"

/-- The name of the kind of an error of a cache. -/
def cacheErrorKind : CacheError → String
  | .settings _ => "InvalidConfig"
  | .unsupported _ => "Unsupported"
  | .unknownSession _ => "UnknownSession"
  | .file _ _ => "Io"
  | .format _ _ _ => "Format"
  | .database => "Sqlite"
  | .reported _ => "Reported"

/-- The kind and the wording of an error. -/
def errorFields (kind message : String) : List (String × Value) :=
  [("error", text kind), ("message", text message)]

/-- An error of an identifier, tuple or list as a structured value. -/
def ofIdentifierError (e : IdentifierError) : Value :=
  let kind := match e with
    | .empty => "EmptyIdentifier"
    | .refused _ _ => "ParseError"
  object (errorFields kind e.message ++ [("position", optional natural e.position?)])

/-- A fault of the server as a structured value. -/
def ofFault (f : Fault) : Value :=
  object [("code", optional text f.code), ("message", text f.description),
    ("detail", optional text f.detail)]

/-- What is known of an error besides its wording and its cause. -/
def errorDetails : ClientError → List (String × Value)
  | .identifier cause => [("position", optional natural cause.position?)]
  | .serverFault fault => [("fault", ofFault fault)]
  | _ => []

/-- An error of a statement as a structured value. -/
def ofClientError (e : ClientError) : Value :=
  match e with
  | .cache .database =>
    object [("error", text (clientErrorKind e)), ("source", text (cacheErrorKind .database))]
  | _ =>
    object (errorFields (clientErrorKind e) e.message ++
      (e.cause?.map fun cause => ("source", text cause)).toList ++ errorDetails e)

/-- An error of a cache as a structured value. -/
def ofCacheError (e : CacheError) : Value :=
  match e with
  | .database => object [("error", text (cacheErrorKind e))]
  | _ => object (errorFields (cacheErrorKind e) e.message)

/-- A line that is no record, as a structured value. -/
def ofRecordFault (f : RecordFault) : Value := object (errorFields "Record" f.message)

end OlapClient.Interchange
