/-!
# Errors of response caches

What a cache, its settings, its storage and its record lines can report.
-/

namespace OlapClient

/-- A capability that is left out on purpose. -/
inductive Unsupported where
  /-- Axes in the format that crosses sets. -/
  | crossedAxes
  /-- Recording to a cache file that was opened for reading. -/
  | noOutputFile
  | tableDriver (name : String)
  /-- A capability that a caller words. -/
  | other (text : String)
  deriving DecidableEq, Repr

namespace Unsupported

/-- The wording of what is missing. -/
def message : Unsupported → String
  | crossedAxes => "ClusterFormat axes (CrossProduct) are not supported, request TupleFormat"
  | noOutputFile => "file cache has no output file and cannot record"
  | tableDriver name => "table driver '" ++ name ++ "' is not available, only sqlite"
  | other text => text

end Unsupported

/-- Why cache properties are refused. -/
inductive SettingsFault where
  | notBoolean (key value : String)
  | notNumber (key value : String)
  | unknownBackend (name : String)
  /-- A fault that a caller words. -/
  | other (text : String)
  deriving DecidableEq, Repr

namespace SettingsFault

/-- The wording of a fault. -/
def message : SettingsFault → String
  | notBoolean key value => key ++ " must be a boolean, got '" ++ value ++ "'"
  | notNumber key value => key ++ " must be a non-negative integer, got '" ++ value ++ "'"
  | unknownBackend name =>
    "unknown backend '" ++ name ++ "', expected memory, file or table"
  | other text => text

end SettingsFault

/-- Why a line is no record. -/
inductive RecordFault where
  /-- The byte column, counted from one, at which a field or separator is not as expected. -/
  | column (n : Nat)
  | urlNotText
  /-- A fault that a caller words. -/
  | other (text : String)
  deriving DecidableEq, Repr

namespace RecordFault

/-- The wording of a fault. -/
def message : RecordFault → String
  | column n => "unexpected input at column " ++ toString n
  | urlNotText => "url is not UTF-8"
  | other text => text

end RecordFault

/-- Why the system does not open a file to which a path leads. -/
inductive Denial where
  | permissionDenied
  /-- The medium can only be read. -/
  | readOnly
  /-- The file is a program that runs. -/
  | busy
  /-- Any other reason, as the system words it. -/
  | other (text : String)
  deriving DecidableEq, Repr

namespace Denial

/-- The wording of a reason. -/
def message : Denial → String
  | permissionDenied => "Permission denied (os error 13)"
  | readOnly => "Read-only file system (os error 30)"
  | busy => "Text file busy (os error 26)"
  | other text => text

end Denial

/-- Why a file cannot be opened or read. -/
inductive FileFault where
  | notFound
  | isDirectory
  | notDirectory
  | nameTooLong
  | zeroInName
  | denied (why : Denial)
  | notText
  deriving DecidableEq, Repr

namespace FileFault

/-- The wording of a fault. -/
def message : FileFault → String
  | notFound => "No such file or directory (os error 2)"
  | isDirectory => "Is a directory (os error 21)"
  | notDirectory => "Not a directory (os error 20)"
  | nameTooLong => "File name too long (os error 36)"
  | zeroInName => "file name contained an unexpected NUL byte"
  | denied why => why.message
  | notText => "stream did not contain valid UTF-8"

end FileFault

/-- What can go wrong while a cache is configured or used. -/
inductive CacheError where
  | settings (fault : SettingsFault)
  | unsupported (what : Unsupported)
  /-- A session that the cache never issued. -/
  | unknownSession (id : String)
  | file (path : String) (fault : FileFault)
  /-- A line of a cache file, counted from one, that is no record. -/
  | format (path : String) (line : Nat) (fault : RecordFault)
  /-- The database refused a statement. -/
  | database
  /-- An error that a cache of the caller reports. -/
  | reported (text : String)
  deriving DecidableEq, Repr

namespace CacheError

/-- The wording of an error. -/
def message : CacheError → String
  | settings fault => "invalid cache configuration: " ++ fault.message
  | unsupported what => "unsupported: " ++ what.message
  | unknownSession id => "unknown cache session '" ++ id ++ "'"
  | file path fault => "I/O error at " ++ path ++ ": " ++ fault.message
  | format path line fault =>
    "malformed record at " ++ path ++ ":" ++ toString line ++ ": " ++ fault.message
  | database => "SQLite error"
  | reported text => text

end CacheError

end OlapClient
