import OlapClient.Cache.Memory
import OlapClient.Cache.Record
import OlapClient.Files
import OlapClient.Log

/-!
# Exchanges in a file

A capture reads its input file once, when it is opened, and appends a record for each exchange
to its output file. The last record of a key counts. Lines wait in a buffer until they are
flushed.
-/

namespace OlapClient

/-- Exchanges by address and key, the last one first. -/
abbrev ExchangeIndex := List (ExchangeKey × Bytes)

namespace ExchangeIndex

/-- The response under a key. -/
def find? (index : ExchangeIndex) (key : ExchangeKey) : Option Bytes := index.lookup key

/-- The index with one more exchange, in place of an earlier one under its key. -/
def insert (index : ExchangeIndex) (key : ExchangeKey) (response : Bytes) : ExchangeIndex :=
  (key, response) :: index.filter fun entry => entry.1 != key

end ExchangeIndex

/-- The output of a capture. -/
structure CaptureOutput where
  place : Place
  /-- The position of the next byte; none at the end, wherever that is. -/
  position : Option Nat := none
  /-- Bytes that are not in the file yet. -/
  buffer : Bytes := []
  deriving DecidableEq, Repr

/-- Exchanges kept in files. -/
structure Capture where
  index : ExchangeIndex := []
  /-- The output; without it, nothing can be recorded. -/
  output : Option CaptureOutput := none
  deriving DecidableEq, Repr

namespace Capture

/-- The number of exchanges. -/
def size (c : Capture) : Nat := c.index.length

/-- A capture without exchanges. -/
def isEmpty (c : Capture) : Bool := c.index.isEmpty

/-- A capture without an output file. -/
def isReadOnly (c : Capture) : Bool := c.output.isNone

/-! ### Reading a file -/

/-- The lines of a file, without their ends. -/
def lines (current : Bytes) : Bytes → List Bytes
  | [] => if current.isEmpty then [] else [current.reverse]
  | b :: bs => if b = 0x0A then current.reverse :: lines [] bs else lines (b :: current) bs

/-- A line without the carriage returns at its end. -/
def trimReturns (line : String) : String :=
  String.ofList (line.toList.reverse.dropWhile (· = '\r')).reverse

/-- The index with the records of further lines, numbered on from `number`. -/
def loadLines (path : String) (number : Nat) (index : ExchangeIndex) :
    List Bytes → Except CacheError ExchangeIndex
  | [] => .ok index
  | line :: rest =>
    match Utf8.decode? line with
    | none => .error (.file path .notText)
    | some text =>
      let text := trimReturns text
      if text.isEmpty then loadLines path (number + 1) index rest
      else match Record.decode text with
        | .error fault => .error (.format path number fault)
        | .ok record =>
          loadLines path (number + 1) (index.insert (record.url, record.key) record.response) rest

/-- The index of an input file; a missing file is empty. -/
def load (files : Files) (path : String) : Logged (Except CacheError ExchangeIndex) :=
  match files.read path with
  | .error .notFound => ([.inputMissing], .ok [])
  | .error fault => ([], .error (.file path fault))
  | .ok content =>
    match loadLines path 1 [] (lines [] content) with
    | .ok index => ([.inputLoaded], .ok index)
    | .error e => ([], .error e)

/-! ### Opening, storing, flushing -/

/-- Opens the output file. On demand it is emptied and then written from its start; else it is
written at its end. -/
def openOutput (files : Files) (init : Bool) (output : Option String) :
    Logged (Except CacheError (Files × Option CaptureOutput)) :=
  match output with
  | none => ([], .ok (files, none))
  | some path =>
    match files.openOutput path init with
    | .error fault => ([], .error (.file path fault))
    | .ok (files, place) =>
      ([.outputOpened],
        .ok (files, some { place := place, position := if init then some 0 else none }))

/-- Opens a capture: first its output, then its input. -/
def openFiles (files : Files) (s : FileSettings) (init : Bool) :
    Logged (Files × Except CacheError Capture) :=
  match openOutput files init s.output with
  | (events, .error e) => (events, files, .error e)
  | (events, .ok (files, output)) =>
    match s.input with
    | none => (events, files, .ok { output := output })
    | some path =>
      let (more, loaded) := load files path
      (events ++ more, files, loaded.map fun index => { index := index, output := output })

/-- Looks up a response. -/
def lookup (c : Capture) (key : ExchangeKey) : Option Bytes := c.index.find? key

/-- The bytes of a record with its line end. -/
def lineBytes (record : Record) : Bytes := Utf8.encodeChars (record.chars ++ ['\n'])

/-- Records an exchange. -/
def store (c : Capture) (now : Stamp) (key : ExchangeKey) (response : Bytes) :
    Except CacheError Capture :=
  match c.output with
  | none => .error (.unsupported .noOutputFile)
  | some output =>
    .ok {
      index := c.index.insert key response
      output := some { output with
        buffer := output.buffer ++ lineBytes ⟨now, key.1, key.2, response⟩ } }

/-- Writes what waits in the buffer. -/
def flush (c : Capture) (files : Files) : Files × Capture :=
  match c.output with
  | none => (files, c)
  | some output =>
    (files.write output.place output.position output.buffer,
      { c with output := some { output with
          position := output.position.map (· + output.buffer.length), buffer := [] } })

end Capture

end OlapClient
