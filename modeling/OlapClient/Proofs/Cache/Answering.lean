import OlapClient.Proofs.Cache.History
import OlapClient.Proofs.Cache.Recorder
import OlapClient.Proofs.Cache.SmallLibrary

/-!
# What a cache answers

A cache that plays is one map. What was put into it lies either over its storage or in it; the last
put of a request counts, and without one the storage as it was opened. For storage in a table that
rests on its statement for lookups, which has to be one that only looks up. A cache that does not
play answers nothing.
-/

namespace OlapClient

/-! ### Storage that answers as it did -/

namespace Backend

variable {κ : Type} [SqlLibrary κ] {files files' files'' : Files} {b b' b'' : Backend κ}
  {now : Moment} {settings : CacheSettings}

/-- Storage whose lookups depend on no time, and change nothing that is found later: memory without
entries, files, and a table whose statement only looks up. -/
def IsSteady : Backend κ → Prop
  | .memory m => m.entries = []
  | .capture _ => True
  | .table t => SqlLibrary.IsQuery κ t.selectSql

/-- The storage finds at all times what the other one finds, each with its files. -/
def AnswersAs (b : Backend κ) (files : Files) (b' : Backend κ) (files' : Files) : Prop :=
  ∀ now now' key, (b.lookup files now key).2.2 = (b'.lookup files' now' key).2.2

theorem AnswersAs.trans (h : b.AnswersAs files b' files') (h' : b'.AnswersAs files' b'' files'') :
    b.AnswersAs files b'' files'' := fun now now' key => (h now now' key).trans (h' now' now' key)

theorem steady_of_opened
    (hquery : settings.backend = .table → SqlLibrary.IsQuery κ settings.table.selectSql)
    (h : (openStorage files now settings).2 = (files', .ok b)) : b.IsSteady := by
  cases opens_as h with
  | memory => exact rfl
  | capture => trivial
  | table _ t hs hopen =>
    obtain ⟨-, hselect, -⟩ := TableStore.prepared_of_opened hopen
    show SqlLibrary.IsQuery κ t.selectSql
    rw [hselect]
    exact hquery hs

namespace IsSteady

theorem refl (hb : b.IsSteady) (files : Files) : b.AnswersAs files b files := by
  intro now now' key
  cases b with
  | memory m =>
    have hempty : m.entries = [] := hb
    simp only [lookup, MemoryStore.lookup, hempty, List.find?_nil]
  | capture c => rfl
  | table t => exact congrArg TableStore.result (SqlLibrary.IsQuery.timeless hb ..)

/-- A lookup leaves storage that answers as before. -/
theorem lookup (hb : b.IsSteady) (files : Files) (now : Moment) (key : ExchangeKey) :
    (b.lookup files now key).2.1.IsSteady ∧
      (b.lookup files now key).2.1.AnswersAs (b.lookup files now key).1 b files := by
  cases b with
  | memory m =>
    have hempty : m.entries = [] := hb
    have hsame : (Backend.memory (κ := κ) m).lookup files now key =
        (files, .memory m, .ok none) := by
      simp only [Backend.lookup, MemoryStore.lookup, hempty, List.find?_nil]
    rw [hsame]
    exact ⟨hb, refl (b := .memory m) hb files⟩
  | capture c => exact ⟨hb, refl (b := .capture c) hb files⟩
  | table t =>
    refine ⟨hb, fun now' now'' key' => ?_⟩
    refine congrArg TableStore.result ((SqlLibrary.IsQuery.repeatable hb ..).trans ?_)
    exact SqlLibrary.IsQuery.timeless hb ..

/-- Writing what waits in a buffer leaves storage that answers as before. -/
theorem flush (hb : b.IsSteady) (files : Files) :
    (b.flush files).2.IsSteady ∧ (b.flush files).2.AnswersAs (b.flush files).1 b files := by
  cases b with
  | memory m => exact ⟨hb, hb.refl files⟩
  | table t => exact ⟨hb, hb.refl files⟩
  | capture c =>
    obtain ⟨index, output⟩ := c
    cases output with
    | none => exact ⟨hb, fun _ _ _ => rfl⟩
    | some output => exact ⟨hb, fun _ _ _ => rfl⟩

end IsSteady

theorem capture_of_opened (hbackend : settings.backend = .file)
    (h : (openStorage files now settings).2 = (files', .ok b)) :
    ∃ capture, b = .capture capture ∧ capture.output.isSome = settings.file.output.isSome := by
  cases opens_as h with
  | memory hs => cases hs.symm.trans hbackend
  | table _ _ hs => cases hs.symm.trans hbackend
  | capture _ capture _ hopen =>
    refine ⟨capture, rfl, ?_⟩
    obtain ⟨houtput, -⟩ := Recorder.openFiles_eq_ok settings.file settings.init capture hopen
    cases hpath : settings.file.output with
    | none =>
      rw [hpath] at houtput
      rw [← (Prod.mk.inj (Except.ok.inj houtput)).2]
      rfl
    | some path =>
      rw [hpath] at houtput
      obtain ⟨place, -, hfresh⟩ := Recorder.openOutput_some _ _ houtput
      rw [hfresh]
      rfl

end Backend

namespace Recorder

variable {κ : Type} {r : Recorder κ} {session : CacheSession κ} {backend : Backend κ}

theorem withBackend_same (hsession : r.session = some session)
    (hbackend : session.backend = some backend) : r.withBackend session backend = r := by
  obtain ⟨session', replayed⟩ := r
  obtain ⟨settings, backend', ids⟩ := session
  obtain rfl := hsession
  obtain rfl := hbackend
  rfl

/-- A get leaves the files and the cache to themselves, or to what a lookup makes of them. -/
theorem get_leaves [SqlLibrary κ] (hsession : r.session = some session)
    (hbackend : session.backend = some backend) (files : Files) (now : Moment) (id url : String)
    (request : Bytes) :
    ((r.get files now id url request).2.1 = files ∧ (r.get files now id url request).2.2.1 = r) ∨
    ∃ key, (r.get files now id url request).2.1 = (backend.lookup files now key).1 ∧
      (r.get files now id url request).2.2.1 =
        r.withBackend session (backend.lookup files now key).2.1 := by
  unfold get
  obtain hactive | hactive := active_cases hsession hbackend id
  · rw [hactive]
    exact .inl ⟨rfl, rfl⟩
  · rw [hactive]
    simp only
    split
    · split
      · exact .inl ⟨rfl, rfl⟩
      · refine .inr ⟨(url, keyOf session.settings request), ?_⟩
        rcases backend.lookup files now (url, keyOf session.settings request) with
          ⟨files', backend', e | found⟩
        · exact ⟨rfl, rfl⟩
        · exact ⟨rfl, rfl⟩
    · exact .inl ⟨rfl, rfl⟩

end Recorder

/-! ### Keys -/

theorem Recorder.keyOf_eq_iff {settings : CacheSettings} {request request' : Bytes}
    (h : settings.digestKeys = true → Digest.ofBytes request = Digest.ofBytes request' →
      request = request') :
    keyOf settings request = keyOf settings request' ↔ request = request' := by
  constructor
  · intro hkey
    unfold keyOf at hkey
    split at hkey
    · rename_i hdigests
      apply h hdigests
      exact String.toList_injective (Utf8.encodeChars_injective _ _ hkey)
    · exact hkey
  · rintro rfl
    rfl

structure CachePut where
  url : String
  request : Bytes
  response : Bytes
  deriving DecidableEq

namespace CachePut

def exchange (settings : CacheSettings) (put : CachePut) : ExchangeKey × Bytes :=
  Recorder.exchange settings put.url put.request put.response

def IsOf (put : CachePut) (url : String) (request : Bytes) : Prop :=
  put.url = url ∧ put.request = request

/-- No other request that was put has the digest of this one. -/
def DigestsDiffer (settings : CacheSettings) (puts : List CachePut) (request : Bytes) : Prop :=
  settings.digestKeys = true → ∀ put ∈ puts,
    Digest.ofBytes put.request = Digest.ofBytes request → put.request = request

theorem lastOf_exchanges {settings : CacheSettings} {puts : List CachePut} {url : String}
    {request : Bytes} (hdigests : DigestsDiffer settings puts request) {last : Option CachePut}
    (h : LastOf (fun put => put.IsOf url request) puts last) :
    LastOf (fun entry : ExchangeKey × Bytes => entry.1 = (url, Recorder.keyOf settings request))
      (puts.map (exchange settings)) (last.map (exchange settings)) := by
  apply LastOf.map
  apply h.congr_mem
  intro put hput
  have hkey := Recorder.keyOf_eq_iff fun hdigest => hdigests hdigest put hput
  show put.url = url ∧ put.request = request ↔ (put.url, _) = (url, _)
  rw [Prod.mk.injEq, hkey]

end CachePut

namespace CacheState

variable {κ : Type} [SqlLibrary κ]

def putBy (s : CacheState κ) : CacheAct → List CachePut
  | .call (.put now id url request response) =>
    match (s.put now id url request response).2.2 with
    | .ok () => [⟨url, request, response⟩]
    | .error _ => []
  | _ => []

/-- The responses that were put with success in a history. -/
def puts (s : CacheState κ) (acts : List CacheAct) : List CachePut := s.gather putBy acts

/-! ### Puts over the storage -/

variable {s : CacheState κ} {settings : CacheSettings} {files : Files} {backend : Backend κ}
  {taken : List CachePut} {now : Moment} {id url : String} {request response : Bytes}

/-- What was put lies over the storage; and if that was steady when it was opened, it answers as it
did then. -/
structure Overlays (s : CacheState κ) (settings : CacheSettings) (files : Files)
    (backend : Backend κ) (taken : List CachePut) : Prop where
  replayed : s.cache.replayed = .ofExchanges (taken.map (CachePut.exchange settings))
  session : ∃ b ids, s.cache.session = some ⟨settings, some b, ids⟩ ∧
    (backend.IsSteady → b.IsSteady ∧ b.AnswersAs s.files backend files)

namespace Overlays

theorem configure (h : s.Overlays settings files backend taken) (now : Moment)
    (connection cache : Properties) :
    (s.after (.call (.configure now connection cache))).Overlays settings files backend taken := by
  obtain ⟨hreplayed, b, ids, hsession, hsame⟩ := h
  obtain ⟨ids', result, -, -, -, hconfigure⟩ :=
    s.cache.configure_configured s.files now hsession connection cache
  rw [(after_configure hconfigure).1]
  exact ⟨hreplayed, b, ids', rfl, hsame⟩

theorem get (h : s.Overlays settings files backend taken) (now : Moment) (id url : String)
    (request : Bytes) :
    (s.after (.call (.get now id url request))).Overlays settings files backend taken := by
  obtain ⟨hreplayed, b, ids, hsession, hsame⟩ := h
  rw [CacheState.after, got]
  obtain ⟨hfiles, hcache⟩ | ⟨key, hfiles, hcache⟩ :=
    Recorder.get_leaves hsession rfl s.files now id url request
  · rw [hfiles, hcache]
    exact ⟨hreplayed, b, ids, hsession, hsame⟩
  · rw [hfiles, hcache]
    refine ⟨hreplayed, _, ids, rfl, fun hbackend => ?_⟩
    obtain ⟨hsteady, hsame⟩ := hsame hbackend
    obtain ⟨hsteady', hsame'⟩ := hsteady.lookup s.files now key
    exact ⟨hsteady', hsame'.trans hsame⟩

theorem put (h : s.Overlays settings files backend taken) (hrecord : settings.record = false)
    (hplay : settings.play = true) (now : Moment) (id url : String) (request response : Bytes) :
    (∃ e, s.cache.active id = .error e ∧
      s.put now id url request response = (s.files, s.cache, .error e)) ∨
    s.put now id url request response = (s.files, { s.cache with
      replayed := s.cache.replayed.insert (url, Recorder.keyOf settings request) response },
      .ok ()) := by
  obtain ⟨b, ids, hsession, -⟩ := h.session
  unfold CacheState.put
  obtain hactive | hactive := Recorder.active_cases hsession rfl id
  · exact .inl ⟨_, hactive, Recorder.put_refused hactive⟩
  · right
    unfold Recorder.put
    rw [hactive]
    simp only [hrecord, hplay]
    rfl

theorem after (h : s.Overlays settings files backend taken) (hrecord : settings.record = false)
    (hplay : settings.play = true) (call : CacheCall) :
    (s.after (.call call)).Overlays settings files backend (taken ++ s.putBy (.call call)) := by
  cases call with
  | configure now connection cache =>
    show Overlays _ _ _ _ (taken ++ [])
    rw [List.append_nil]
    exact h.configure now connection cache
  | get now id url request =>
    show Overlays _ _ _ _ (taken ++ [])
    rw [List.append_nil]
    exact h.get now id url request
  | put now id url request response =>
    obtain ⟨e, -, hput⟩ | hput := h.put hrecord hplay now id url request response
    · simp only [CacheState.after, putBy, hput, List.append_nil]
      exact h
    · simp only [CacheState.after, putBy, hput]
      refine ⟨?_, h.session⟩
      show s.cache.replayed.insert _ response = _
      rw [List.map_append, h.replayed]
      exact (ExchangeIndex.ofExchanges_concat ..).symm
  | flush =>
    obtain ⟨hreplayed, b, ids, hsession, hsame⟩ := h
    show Overlays _ _ _ _ (taken ++ [])
    rw [List.append_nil, CacheState.after, Recorder.flush_active hsession rfl]
    refine ⟨hreplayed, _, ids, rfl, fun hbackend => ?_⟩
    obtain ⟨hsteady, hsame⟩ := hsame hbackend
    obtain ⟨hsteady', hsame'⟩ := hsteady.flush s.files
    exact ⟨hsteady', hsame'.trans hsame⟩

theorem run (h : s.Overlays settings files backend []) (hrecord : settings.record = false)
    (hplay : settings.play = true) (calls : List CacheCall) :
    (s.run (calls.map .call)).Overlays settings files backend (s.puts (calls.map .call)) := by
  apply run_keeps (P := fun s taken => s.Overlays settings files backend taken) h
  intro s taken act hact htaken
  obtain ⟨call, -, rfl⟩ := List.mem_map.mp hact
  exact htaken.after hrecord hplay call

/-- What lies over the storage is found first. -/
theorem answer_of_found (h : s.Overlays settings files backend taken)
    (hplay : settings.play = true) (hactive : ∀ e, s.cache.active id ≠ .error e)
    (hfound : (ExchangeIndex.ofExchanges (taken.map (CachePut.exchange settings))).find?
      (url, Recorder.keyOf settings request) = some response) (now : Moment) :
    (s.got now id url request).2.2 = .ok (some response) := by
  obtain ⟨b, ids, hsession, -⟩ := h.session
  unfold got Recorder.get
  obtain hno | hactive' := Recorder.active_cases hsession rfl id
  · exact absurd hno (hactive _)
  · rw [hactive', h.replayed]
    simp only [hplay, if_true, hfound]

/-- Where nothing lies over the storage, it is looked up as if it had just been opened. -/
theorem answer_of_missing (h : s.Overlays settings files backend taken)
    (hsteady : backend.IsSteady) (hplay : settings.play = true)
    (hactive : ∀ e, s.cache.active id ≠ .error e)
    (hmissing : (ExchangeIndex.ofExchanges (taken.map (CachePut.exchange settings))).find?
      (url, Recorder.keyOf settings request) = none) (now now₀ : Moment) :
    (s.got now id url request).2.2 =
      (backend.lookup files now₀ (url, Recorder.keyOf settings request)).2.2 := by
  obtain ⟨b, ids, hsession, hsame⟩ := h.session
  unfold got Recorder.get
  obtain hno | hactive' := Recorder.active_cases hsession rfl id
  · exact absurd hno (hactive _)
  · rw [hactive', h.replayed]
    simp only [hplay, if_true, hmissing]
    rw [← (hsame hsteady).2 now now₀]
    rcases b.lookup s.files now (url, Recorder.keyOf settings request) with
      ⟨files', b', e | found⟩
    · rfl
    · rfl

end Overlays

/-! ### Puts in a file -/

/-- The cache records to a file, and the index of the file holds what was put. -/
structure Keeps (s : CacheState κ) (settings : CacheSettings) (index : ExchangeIndex)
    (taken : List CachePut) : Prop where
  replayed : s.cache.replayed = []
  session : ∃ output ids, s.cache.session = some ⟨settings, some (.capture ⟨
      (taken.map (CachePut.exchange settings)).foldl
        (fun index entry => index.insert entry.1 entry.2) index, output⟩), ids⟩ ∧
    output.isSome = settings.file.output.isSome

namespace Keeps

variable {index : ExchangeIndex}

theorem configure (h : s.Keeps settings index taken) (now : Moment)
    (connection cache : Properties) :
    (s.after (.call (.configure now connection cache))).Keeps settings index taken := by
  obtain ⟨hreplayed, output, ids, hsession, houtput⟩ := h
  obtain ⟨ids', result, -, -, -, hconfigure⟩ :=
    s.cache.configure_configured s.files now hsession connection cache
  rw [(after_configure hconfigure).1]
  exact ⟨hreplayed, output, ids', rfl, houtput⟩

theorem get (h : s.Keeps settings index taken) (now : Moment) (id url : String) (request : Bytes) :
    (s.after (.call (.get now id url request))).Keeps settings index taken := by
  obtain ⟨output, ids, hsession, houtput⟩ := h.session
  rw [CacheState.after, got]
  obtain ⟨hfiles, hcache⟩ | ⟨key, hfiles, hcache⟩ :=
    Recorder.get_leaves hsession rfl s.files now id url request
  · rw [hfiles, hcache]
    exact h
  · rw [hfiles, hcache]
    exact ⟨h.replayed, output, ids, rfl, houtput⟩

theorem put (h : s.Keeps settings index taken) (hrecord : settings.record = true) (now : Moment)
    (id url : String) (request response : Bytes) :
    (∃ e, ((∃ refusal, s.cache.active id = .error refusal) ∨ settings.file.output.isSome = false) ∧
      s.put now id url request response = (s.files, s.cache, .error e)) ∨
    ∃ cache, s.put now id url request response = (s.files, cache, .ok ()) ∧
      Keeps ⟨s.files, cache⟩ settings index (taken ++ [⟨url, request, response⟩]) := by
  obtain ⟨hreplayed, output, ids, hsession, houtput⟩ := h
  unfold CacheState.put
  obtain hactive | hactive := Recorder.active_cases hsession rfl id
  · exact .inl ⟨_, .inl ⟨_, hactive⟩, Recorder.put_refused hactive⟩
  · unfold Recorder.put
    rw [hactive]
    simp only [hrecord]
    cases output with
    | none =>
      -- a capture that is only read takes no response
      refine .inl ⟨.unsupported .noOutputFile, .inr houtput.symm, ?_⟩
      show (s.files, s.cache.withBackend _ _, _) = _
      rw [Recorder.withBackend_same hsession rfl]
    | some output =>
      let record : Record := ⟨now.stamp, url, Recorder.keyOf settings request, response⟩
      refine .inr ⟨_, rfl, hreplayed, some { output with
        buffer := output.buffer ++ Capture.lineBytes record }, ids, ?_, houtput⟩
      rw [List.map_append, List.foldl_append]
      rfl

theorem after (h : s.Keeps settings index taken) (hrecord : settings.record = true)
    (call : CacheCall) :
    (s.after (.call call)).Keeps settings index (taken ++ s.putBy (.call call)) := by
  cases call with
  | configure now connection cache =>
    show Keeps _ _ _ (taken ++ [])
    rw [List.append_nil]
    exact h.configure now connection cache
  | get now id url request =>
    show Keeps _ _ _ (taken ++ [])
    rw [List.append_nil]
    exact h.get now id url request
  | put now id url request response =>
    obtain ⟨e, -, hput⟩ | ⟨cache, hput, hkeeps⟩ := h.put hrecord now id url request response
    · simp only [CacheState.after, putBy, hput, List.append_nil]
      exact h
    · simp only [CacheState.after, putBy, hput]
      exact hkeeps
  | flush =>
    obtain ⟨hreplayed, output, ids, hsession, houtput⟩ := h
    show Keeps _ _ _ (taken ++ [])
    rw [List.append_nil, CacheState.after, Recorder.flush_active hsession rfl]
    cases output with
    | none => exact ⟨hreplayed, none, ids, rfl, houtput⟩
    | some output => exact ⟨hreplayed, some _, ids, rfl, houtput⟩

theorem run (h : s.Keeps settings index []) (hrecord : settings.record = true)
    (calls : List CacheCall) :
    (s.run (calls.map .call)).Keeps settings index (s.puts (calls.map .call)) := by
  apply run_keeps (P := fun s taken => s.Keeps settings index taken) h
  intro s taken act hact htaken
  obtain ⟨call, -, rfl⟩ := List.mem_map.mp hact
  exact htaken.after hrecord call

theorem answer (h : s.Keeps settings index taken) (hplay : settings.play = true)
    (hactive : ∀ e, s.cache.active id ≠ .error e) (now : Moment) (url : String)
    (request : Bytes) :
    (s.got now id url request).2.2 =
      .ok (((taken.map (CachePut.exchange settings)).foldl
        (fun index entry => index.insert entry.1 entry.2) index).find?
          (url, Recorder.keyOf settings request)) := by
  obtain ⟨hreplayed, output, ids, hsession, -⟩ := h
  unfold got Recorder.get
  obtain hno | hactive' := Recorder.active_cases hsession rfl id
  · exact absurd hno (hactive _)
  · rw [hactive', hreplayed]
    simp only [hplay, if_true]
    rfl

end Keeps

/-! ### Answers -/

theorem got_without_play {session : CacheSession κ} (hsession : s.cache.session = some session)
    (hid : id ∈ session.ids) (hplay : session.settings.play = false) (now : Moment) (url : String)
    (request : Bytes) : (s.got now id url request).2.2 = .ok none := by
  cases hbackend : session.backend with
  | none => exact congrArg (·.2.2) (Recorder.get_inactive (Recorder.active_idle hsession hbackend))
  | some backend =>
    unfold got Recorder.get
    obtain hno | hactive := Recorder.active_cases hsession hbackend id
    · exact absurd hno (Recorder.active_ne_error hsession hid _)
    · rw [hactive]
      simp only [hplay]
      rfl

theorem opened_of_configured {files files₀ : Files} {now₀ : Moment} {r₀ : Recorder κ}
    {id₀ : String} {connection cache : Properties}
    (hsettings : CacheSettings.ofProperties cache = .ok settings)
    (hconfigured : (({} : Recorder κ).configure files now₀ connection cache).2 =
      (files₀, r₀, .ok id₀)) (hplay : settings.play = true) :
    ∃ backend, (Backend.openStorage files now₀ settings).2 = (files₀, .ok backend) ∧
      r₀ = { session := some ⟨settings, some backend, [id₀]⟩ } := by
  obtain ⟨backend, hopened, rfl⟩ := Recorder.configure_first connection cache hsettings hconfigured
  have henabled : settings.isEnabled = true := by rw [CacheSettings.isEnabled, hplay, Bool.or_true]
  obtain ⟨found, hfound, rfl⟩ := Recorder.storage_opened backend henabled hopened
  exact ⟨found, hfound, rfl⟩

/-! ### Caches that play from a table -/

def playing : Properties := [("PLAY", "true"), ("BACKEND", "table")]

def playingId : String := Digest.sessionId [] playing

/-- A put of the first moment. -/
def onePut : CacheCall := .put ⟨0, .epoch⟩ playingId "u" [1] [2]

/-- Properties whose statement for lookups deletes what it finds. -/
def taking : Properties :=
  [("PLAY", "true"), ("BACKEND", "table"), ("TABLE_URL", "c.db"),
    ("TABLE_SELECT_SQL", "DELETE FROM xmla_cache WHERE request = ?1 RETURNING response")]

def takingId : String := Digest.sessionId [] taking

/-- A database with one response. -/
def takingFiles : Files where
  entries :=
    ⟨[([Text.ascii "c.db"], Sql.fileOf ⟨[("xmla_cache", Sql.cacheTable [([1], [2])])]⟩)]⟩

end CacheState

end OlapClient
