import OlapClient.Cache.Backend
import OlapClient.Digest.Basic

/-!
# The recording cache

A cache is configured once, by the first call that succeeds; later calls only issue session
ids. When it neither records nor plays it does nothing and touches no storage. When it plays
without recording, responses that were put are replayed in the same run, so that a repeated
request hits although nothing reaches storage.
-/

namespace OlapClient

/-- What the first configuration of a cache settles. -/
structure CacheSession (κ : Type) where
  settings : CacheSettings
  /-- The storage; none for a cache that does nothing. -/
  backend : Option (Backend κ)
  /-- The session ids that were issued. -/
  ids : List String
  deriving DecidableEq, Repr

/-- A recording cache. -/
structure Recorder (κ : Type) where
  session : Option (CacheSession κ) := none
  /-- The exchanges of this run. -/
  replayed : ExchangeIndex := []
  deriving DecidableEq, Repr

namespace Recorder

variable {κ : Type}

/-- The settings in effect. -/
def settings? (r : Recorder κ) : Option CacheSettings := r.session.map (·.settings)

/-- The cache as messages show it. -/
def shown (r : Recorder κ) : String :=
  Text.record "RecordingCache"
    [("settings", Text.optional CacheSettings.shown r.settings?),
      ("replayed", toString r.replayed.length)]
    false

/-! ### Configuration -/

/-- What a call on a cache leaves behind: the files, the cache, and its answer or error. -/
abbrev Outcome (κ α : Type) := Files × Recorder κ × Except CacheError α

variable [SqlLibrary κ]

/-- The storage that settings call for. -/
def openIfEnabled (files : Files) (now : Moment) (s : CacheSettings) :
    Logged (Files × Except CacheError (Option (Backend κ))) :=
  if s.isEnabled then
    let (events, files, opened) := Backend.openStorage files now s
    (events, files, opened.map some)
  else ([], files, .ok none)

/-- The first configuration. -/
def configureFirst (r : Recorder κ) (files : Files) (now : Moment) (id : String)
    (settings : CacheSettings) : Logged (Outcome κ String) :=
  match openIfEnabled files now settings with
  | (events, files, .error e) => (events, files, r, .error e)
  | (events, files, .ok backend) =>
    (events ++ [.cacheConfigured], files,
      { r with session := some ⟨settings, backend, [id]⟩ }, .ok id)

/-- A further configuration, which only issues an id. -/
def configureAgain (r : Recorder κ) (files : Files) (id : String) (settings : CacheSettings)
    (session : CacheSession κ) : Logged (Outcome κ String) :=
  let event :=
    if settings.agree session.settings then LogEvent.cacheKept else .cachePropertiesIgnored
  let ids := if session.ids.contains id then session.ids else session.ids ++ [id]
  ([event], files, { r with session := some { session with ids := ids } }, .ok id)

/-- Configures the cache for a connection and issues a session id. -/
def configure (r : Recorder κ) (files : Files) (now : Moment) (connection cache : Properties) :
    Logged (Outcome κ String) :=
  let id := Digest.sessionId connection cache
  match CacheSettings.ofProperties cache with
  | .error fault => ([], files, r, .error (.settings fault))
  | .ok settings =>
    match r.session with
    | none => r.configureFirst files now id settings
    | some session => r.configureAgain files id settings session

/-! ### Exchanges -/

/-- The key of a request. -/
def keyOf (s : CacheSettings) (request : Bytes) : Bytes :=
  if s.digestKeys then Utf8.encode (Digest.ofBytes request) else request

/-- The session and its storage, for an id that was issued; none if the cache does nothing. -/
def active (r : Recorder κ) (id : String) :
    Except CacheError (Option (CacheSession κ × Backend κ)) :=
  match r.session with
  | none => .ok none
  | some session =>
    match session.backend with
    | none => .ok none
    | some backend =>
      if session.ids.contains id then .ok (some (session, backend))
      else .error (.unknownSession id)

/-- The cache with its storage changed. -/
def withBackend (r : Recorder κ) (session : CacheSession κ) (backend : Backend κ) : Recorder κ :=
  { r with session := some { session with backend := some backend } }

/-- Looks up the response to a request. -/
def get (r : Recorder κ) (files : Files) (now : Moment) (id url : String) (request : Bytes) :
    Logged (Outcome κ (Option Bytes)) :=
  match r.active id with
  | .error e => ([], files, r, .error e)
  | .ok none => ([], files, r, .ok none)
  | .ok (some (session, backend)) =>
    if session.settings.play then
      let key := (url, keyOf session.settings request)
      match r.replayed.find? key with
      | some response => ([.replayed], files, r, .ok (some response))
      | none =>
        match backend.lookup files now key with
        | (files, backend, .error e) => ([], files, r.withBackend session backend, .error e)
        | (files, backend, .ok found) =>
          ([.backendLookup], files, r.withBackend session backend, .ok found)
    else ([], files, r, .ok none)

/-- Takes the response to a request. -/
def put (r : Recorder κ) (files : Files) (now : Moment) (id url : String)
    (request response : Bytes) : Logged (Outcome κ Unit) :=
  match r.active id with
  | .error e => ([], files, r, .error e)
  | .ok none => ([], files, r, .ok ())
  | .ok (some (session, backend)) =>
    let key := (url, keyOf session.settings request)
    if session.settings.record then
      match backend.store files now key response with
      | (files, backend, .error e) => ([], files, r.withBackend session backend, .error e)
      | (files, backend, .ok ()) => ([.recorded], files, r.withBackend session backend, .ok ())
    else if session.settings.play then
      ([], files, { r with replayed := r.replayed.insert key response }, .ok ())
    else ([], files, r, .ok ())

/-- Writes what waits in a buffer of the storage. -/
def flush (r : Recorder κ) (files : Files) : Files × Recorder κ :=
  match r.session with
  | none => (files, r)
  | some session =>
    match session.backend with
    | none => (files, r)
    | some backend =>
      let (files, backend) := backend.flush files
      (files, r.withBackend session backend)

end Recorder

end OlapClient
