import OlapClient.Cache.Error
import OlapClient.Dictionary
import OlapClient.Text.Utf8

/-!
# Files

A tree of named files and directories, as far as caches see it. Paths start at one directory or at
the root; of the directories above, nothing but themselves is known. A path is followed name by
name: each name but the last has to lead to a directory. What a path leads to may still be refused
by the system, which wants a permission, has a medium that is only read, or a file in use.
-/

namespace OlapClient

/-- What stands at a place. -/
inductive FileEntry where
  | file (content : Bytes)
  | directory
  deriving DecidableEq, Repr

/-- The names that lead to a file or a directory. Double points at the front lead above the
directory at which paths start, a slash at the front leads to the root. -/
abbrev Place := List Bytes

namespace Place

/-- The name of a directory in itself. -/
def here : Bytes := Text.ascii "."

/-- The name of the directory above. -/
def above : Bytes := Text.ascii ".."

/-- The root, above which there is no directory. -/
def root : Bytes := Text.ascii "/"

/-- The place that a name leads to from a directory. -/
def step (place : Place) (name : Bytes) : Place :=
  if name = here then place
  else if name = above then
    match place.getLast? with
    | none => [above]
    | some last =>
      if last = above then place ++ [above] else if last = root then place else place.dropLast
  else place ++ [name]

/-- The directory at which a path starts. -/
def start (path : Bytes) : Place := if path.head? = some (Text.byte '/') then [root] else []

/-- The names on a path. -/
def names (path : Bytes) : List Bytes :=
  (path.splitOn (Text.byte '/')).filter fun name => !name.isEmpty

/-- Whether a path can only name a directory. -/
def endsInSlash (path : Bytes) : Bool := path.getLast? == some (Text.byte '/')

end Place

/-- What the system refuses at a place. -/
structure Guard where
  reading : Option Denial := none
  /-- Writing a file that is there, and making one that is not. -/
  writing : Option Denial := none
  deriving DecidableEq, Repr

/-- Files and directories by their places, and what is refused there. -/
structure Files where
  entries : Dictionary Place FileEntry := {}
  guards : Dictionary Place Guard := {}
  deriving DecidableEq, Repr

namespace Files

/-- The entry at a place. -/
def find? (files : Files) (place : Place) : Option FileEntry := files.entries.find? place

/-- The files with another entry at a place. What is refused there stays refused. -/
def insert (files : Files) (place : Place) (entry : FileEntry) : Files :=
  { files with entries := files.entries.insert place entry }

/-- What is refused at a place. -/
def guard (files : Files) (place : Place) : Guard := (files.guards.find? place).getD {}

/-- The most bytes of a name. -/
def nameLimit : Nat := 255

/-- The most bytes of a path. -/
def pathLimit : Nat := 4095

/-! ### Following paths -/

/-- What stands at a place. The directory at which paths start is there, and so are those above
it. -/
def entry? (files : Files) (place : Place) : Option FileEntry :=
  if place.all fun name => name == Place.above || name == Place.root then some .directory
  else files.find? place

/-- The place that names lead to, one after the other. -/
def follow (files : Files) (place : Place) : List Bytes → Except FileFault Place
  | [] => .ok place
  | name :: rest =>
    match files.entry? place with
    | some .directory =>
      if name.length > nameLimit then .error .nameTooLong
      else follow files (place.step name) rest
    | some _ => .error .notDirectory
    | none => .error .notFound

/-- The place that names on a path lead to, unless the path as a whole is at fault. -/
def locate (files : Files) (path : Bytes) (names : List Bytes) : Except FileFault Place :=
  if path.contains 0 then .error .zeroInName
  else if path.isEmpty then .error .notFound
  else if path.length > pathLimit then .error .nameTooLong
  else files.follow (.start path) names

/-- What a path names, with its place. -/
def named (files : Files) (path : String) : Except FileFault (Place × FileEntry) := do
  let path := Utf8.encode path
  let place ← files.locate path (Place.names path)
  match files.entry? place with
  | none => .error .notFound
  | some .directory => .ok (place, .directory)
  | some (.file content) =>
    if Place.endsInSlash path then .error .notDirectory else .ok (place, .file content)

/-- What a path names. -/
def get (files : Files) (path : String) : Except FileFault FileEntry :=
  (files.named path).map (·.2)

/-! ### Reading and writing -/

/-- The bytes of a file. -/
def read (files : Files) (path : String) : Except FileFault Bytes := do
  let (place, entry) ← files.named path
  match (files.guard place).reading, entry with
  | some why, _ => .error (.denied why)
  | none, .file content => .ok content
  | none, .directory => .error .isDirectory

/-- Opens a file for writing; it is created if it is missing, and emptied on demand. A path that
ends in a slash is refused before its last name is looked up, and a file that the system does not
let be written is neither created nor emptied. -/
def openOutput (files : Files) (path : String) (truncate : Bool) :
    Except FileFault (Files × Place) := do
  let path := Utf8.encode path
  let names := Place.names path
  if Place.endsInSlash path then
    let _ ← files.locate path (names.dropLast ++ [Place.here])
    .error .isDirectory
  else
    let place ← files.locate path names
    match files.entry? place, (files.guard place).writing with
    | some .directory, _ => .error .isDirectory
    | _, some why => .error (.denied why)
    | some (.file _), none =>
      .ok (if truncate then files.insert place (.file []) else files, place)
    | none, none => .ok (files.insert place (.file []), place)

/-- A content with bytes written over it from a position on. A gap before them is filled with
zeros. -/
def writeOver (content : Bytes) (position : Nat) (bytes : Bytes) : Bytes :=
  content.take position ++ List.replicate (position - content.length) 0 ++ bytes ++
    content.drop (position + bytes.length)

/-- A content with bytes written into it, from a position on or at its end. -/
def written (content : Bytes) (position : Option Nat) (bytes : Bytes) : Bytes :=
  match position with
  | none => content ++ bytes
  | some n => writeOver content n bytes

/-- Writes bytes into the file at a place. -/
def write (files : Files) (place : Place) (position : Option Nat) (bytes : Bytes) : Files :=
  if bytes.isEmpty then files
  else match files.find? place with
    | some (.file content) => files.insert place (.file (written content position bytes))
    | _ => files

/-! ### Making files and directories -/

/-- Makes the directories that names lead to and that are missing, up to the first name that
leads to no directory. -/
def makeDirectories (files : Files) (place : Place) : List Bytes → Files
  | [] => files
  | name :: rest =>
    let next := place.step name
    match files.entry? next with
    | some .directory => makeDirectories files next rest
    | some _ => files
    | none =>
      if name.length > nameLimit then files
      else makeDirectories (files.insert next .directory) next rest

/-- Makes a directory, and those that lead to it. A path that ends in the name of a directory in
itself asks for one that is there already, and only those that lead to it are made. -/
def makeDirectory (files : Files) (path : String) : Files :=
  let path := Utf8.encode path
  let names := Place.names path
  let made :=
    if names.getLast? = some Place.here then
      ((names.reverse.dropWhile (· == Place.here)).drop 1).reverse
    else names
  if path.contains 0 || path.length > pathLimit then files
  else files.makeDirectories (.start path) made

/-- Makes a file, unless its path is at fault. -/
def makeFile (files : Files) (path : String) (content : Bytes) : Files :=
  match files.openOutput path true with
  | .ok (files, place) => files.write place none content
  | .error _ => files

end Files

end OlapClient
