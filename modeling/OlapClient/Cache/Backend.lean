import OlapClient.Cache.Capture
import OlapClient.Cache.Table

/-!
# Storage of a cache

A cache keeps its exchanges in memory, in files or in a table. All three are used alike: they
are opened by settings, store a response under an address and a key, and look it up again.
-/

namespace OlapClient

/-- Storage that was opened. -/
inductive Backend (κ : Type) where
  | memory (store : MemoryStore)
  | capture (capture : Capture)
  | table (store : TableStore κ)
  deriving DecidableEq, Repr

namespace Backend

variable {κ : Type} [SqlLibrary κ]

/-- What a call on storage leaves behind: the files, the storage, and its answer or error. -/
abbrev Outcome (κ α : Type) := Files × Backend κ × Except CacheError α

/-- Opens the storage of a cache. -/
def openStorage (files : Files) (now : Moment) (s : CacheSettings) :
    Logged (Files × Except CacheError (Backend κ)) :=
  let (events, files, opened) : Logged (Files × Except CacheError (Backend κ)) :=
    match s.backend with
    | .memory => ([], files, .ok (.memory (.ofSettings s.memory)))
    | .file =>
      let (events, files, opened) := Capture.openFiles files s.file s.init
      (events, files, opened.map .capture)
    | .table =>
      let (events, files, opened) := TableStore.openTable files now s.table s.init
      (events, files, opened.map .table)
  match opened with
  | .ok backend => (events ++ [.backendOpened], files, .ok backend)
  | .error e => (events, files, .error e)

/-- Looks up the response stored under an address and a key. -/
def lookup (b : Backend κ) (files : Files) (now : Moment) (key : ExchangeKey) :
    Outcome κ (Option Bytes) :=
  match b with
  | .memory m => let (m, found) := m.lookup now.clock key; (files, .memory m, .ok found)
  | .capture c => (files, .capture c, .ok (c.lookup key))
  | .table t => let (files, t, found) := t.lookup files now key; (files, .table t, found)

/-- Stores a response under an address and a key. -/
def store (b : Backend κ) (files : Files) (now : Moment) (key : ExchangeKey)
    (response : Bytes) : Outcome κ Unit :=
  match b with
  | .memory m => (files, .memory (m.store now.clock key response), .ok ())
  | .capture c =>
    match c.store now.stamp key response with
    | .ok c => (files, .capture c, .ok ())
    | .error e => (files, .capture c, .error e)
  | .table t => let (files, t, stored) := t.store files now key response; (files, .table t, stored)

/-- Writes what waits in a buffer. -/
def flush (b : Backend κ) (files : Files) : Files × Backend κ :=
  match b with
  | .capture c => let (files, c) := c.flush files; (files, .capture c)
  | .memory _ | .table _ => (files, b)

end Backend

end OlapClient
