import OlapClient.Files
import OlapClient.Text.Number

/-!
# Locations of databases

A location is the path of a file, or a URI of it. A URI is `file:`, perhaps an authority that is
blank or `localhost`, a path, and options after a question mark. Its octets may be escaped; what
follows an escaped zero does not count, and neither does a fragment.
-/

namespace OlapClient

/-- What may be done with the file of a database. -/
inductive DatabaseAccess where
  | read
  | write
  /-- The file is made if it is missing. -/
  | create
  /-- There is no file. -/
  | memory
  deriving DecidableEq, Repr

namespace DatabaseAccess

/-- The access that an option names. -/
def named? : String → Option DatabaseAccess
  | "ro" => some read
  | "rw" => some write
  | "rwc" => some create
  | "memory" => some memory
  | _ => none

/-- How far an access goes. -/
def rank : DatabaseAccess → Nat
  | read => 0
  | write => 1
  | create => 2
  | memory => 3

/-- Whether an option may ask for another access. It may do without a file, but else go no
further than what is allowed already. -/
def allows (allowed wanted : DatabaseAccess) : Bool :=
  wanted == memory || wanted.rank ≤ allowed.rank

end DatabaseAccess

/-- Where a database is and what may be done with it. -/
structure DatabaseLocation where
  /-- The path of its file; none for a database that nobody else sees. -/
  path : Option Bytes := none
  access : DatabaseAccess := .create
  /-- Whether the file is taken for one that never changes. -/
  isFrozen : Bool := false
  deriving DecidableEq, Repr

namespace DatabaseLocation

/-- The octets of a part of a URI, up to an escaped zero. A percent sign without two hexadecimal
digits stands for itself. -/
def unescape : List Char → Bytes
  | '%' :: a :: b :: rest =>
    match Text.digitValue? 16 a, Text.digitValue? 16 b with
    | some high, some low =>
      if high = 0 ∧ low = 0 then [] else UInt8.ofNat (high * 16 + low) :: unescape rest
    | _, _ => Text.byte '%' :: unescape (a :: b :: rest)
  | c :: rest => String.utf8EncodeChar c ++ unescape rest
  | [] => []

/-- The options of a query, by name. One without a name does not count. -/
def options (query : List Char) : List (String × String) :=
  (query.splitOn '&').filterMap fun option =>
    let (name, value) := option.span (· != '=')
    let name := Utf8.decodeLossy (unescape name)
    if name.isEmpty then none else some (name, Utf8.decodeLossy (unescape (value.drop 1)))

/-- Whether an option is switched on: by a word, or by a number that is not zero in its last
byte. -/
def isOn (value : String) : Bool :=
  let digits := value.toList.takeWhile Char.isDigit
  if digits.isEmpty then
    ["on", "yes", "true"].contains (String.ofList (value.toList.map Char.toLower))
  else
    let n := digits.foldl (fun n c => n * 10 + (c.toNat - '0'.toNat)) 0
    n < 0x80000000 && n % 256 != 0

/-- The access after one more option; none if the option is refused. -/
def narrow (access : DatabaseAccess) : String × String → Option DatabaseAccess
  | ("mode", value) => (DatabaseAccess.named? value).filter access.allows
  | ("cache", value) => if value = "shared" ∨ value = "private" then some access else none
  | _ => some access

/-- The file systems that an option can choose. Only the last one has no files. -/
def fileSystems : List String := ["unix", "unix-none", "unix-dotfile", "unix-excl", "memdb"]

/-- A URI without its authority; none if that is another host. -/
def withoutAuthority? (uri : List Char) : Option (List Char) :=
  match uri with
  | '/' :: '/' :: rest =>
    let authority := String.ofList (rest.takeWhile (· != '/'))
    if authority = "" ∨ authority = "localhost" then some (rest.dropWhile (· != '/')) else none
  | _ => some uri

/-- The location of a URI, which stands here without its scheme. -/
def ofUri? (uri : List Char) : Option DatabaseLocation := do
  let uri := (← withoutAuthority? uri).takeWhile (· != '#')
  let path := unescape (uri.takeWhile (· != '?'))
  let options := options ((uri.dropWhile (· != '?')).drop 1)
  let access ← options.foldlM narrow .create
  let fileSystem := (options.reverse.lookup "vfs").getD "unix"
  if !fileSystems.contains fileSystem then none
  else
    let hasFile := access ≠ .memory ∧ path ≠ [] ∧ path ≠ Text.ascii ":memory:"
    return {
      path := if hasFile ∧ fileSystem ≠ "memdb" then some path else none
      access := access
      isFrozen := hasFile && (options.lookup "immutable").any isOn }

/-- The location that a text names; none if it is at fault. -/
def parse? (text : String) : Option DatabaseLocation :=
  if text.toList.contains '\x00' then none
  else if text.startsWith "file:" then ofUri? (text.toList.drop 5)
  else some { path := some (Utf8.encode text) }

/-! ### Finding the file -/

/-- The place that names lead to if double points take back the name before them, whether or not
there is such a directory. None if a file stands on the way, or a name in a directory is too long.
-/
def resolve? (files : Files) (place : Place) : List Bytes → Option Place
  | [] => some place
  | name :: rest =>
    if name = Place.here ∨ name = Place.above then resolve? files (place.step name) rest
    else match files.entry? place with
      | some .directory =>
        if name.length > Files.nameLimit then none else resolve? files (place.step name) rest
      | some _ => none
      | none => resolve? files (place.step name) rest

/-- Whether the database may be changed. -/
def mayChange (l : DatabaseLocation) : Bool := l.access ≠ .read && !l.isFrozen

/-- The journal of a change has the name of the database with this at its end. -/
def journalEnding : Bytes := Text.ascii "-journal"

/-- Whether there can be a journal beside the database at a place. -/
def allowsJournal (place : Place) : Bool :=
  (place.getLast?.getD []).length + journalEnding.length ≤ Files.nameLimit

/-- Opens the file of a location, with its place. -/
def openFile? (l : DatabaseLocation) (files : Files) (path : Bytes) : Option (Files × Place) := do
  let place ← resolve? files (.start path) (Place.names path)
  match files.entry? place, files.entry? place.dropLast with
  | some .directory, _ => none
  | some (.file _), _ => if (files.guard place).reading.isSome then none else return (files, place)
  | none, some .directory =>
    if l.access = .create ∧ (files.guard place).writing = none then
      return (files.insert place (.file []), place)
    else none
  | none, _ => none

end DatabaseLocation

end OlapClient
