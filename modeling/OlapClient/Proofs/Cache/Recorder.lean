import OlapClient.Cache.Recorder
import OlapClient.Proofs.Cache.Capture

/-!
# Recording and playing

A cache opens the storage that its settings lead to. One that records keeps the records of all that
it was given, in order, and answers nothing. One that plays answers from what it was given in the
same run, and then from its file.
-/

namespace OlapClient

/-! ### Storage -/

namespace Backend

variable {κ : Type} [SqlLibrary κ] {files files' : Files} {now : Moment} {s : CacheSettings}
  {b : Backend κ}

/-- The storage that settings lead to, with the files behind its opening. -/
inductive OpensAs (files : Files) (now : Moment) (s : CacheSettings) : Files → Backend κ → Prop
    where
  | memory (hs : s.backend = .memory) : OpensAs files now s files (.memory (.ofSettings s.memory))
  | capture (files' : Files) (c : Capture) (hs : s.backend = .file)
      (h : (Capture.openFiles files s.file s.init).2 = (files', .ok c)) :
      OpensAs files now s files' (.capture c)
  | table (files' : Files) (t : TableStore κ) (hs : s.backend = .table)
      (h : (TableStore.openTable files now s.table s.init).2 = (files', .ok t)) :
      OpensAs files now s files' (.table t)

/-- Storage that was opened is what its settings lead to. -/
theorem opens_as (h : (openStorage files now s).2 = (files', .ok b)) :
    OpensAs files now s files' b := by
  unfold openStorage at h
  cases hs : s.backend with
  | memory =>
    rw [hs] at h
    cases h
    exact .memory hs
  | file =>
    rw [hs] at h
    rcases hopen : Capture.openFiles files s.file s.init with ⟨events, opened, e | c⟩
    · simp only [hopen] at h
      cases h
    · simp only [hopen] at h
      cases h
      exact .capture _ c hs (by rw [hopen])
  | table =>
    rw [hs] at h
    rcases hopen : @TableStore.openTable κ _ files now s.table s.init with ⟨events, opened, e | t⟩
    · simp only [hopen] at h
      cases h
    · simp only [hopen] at h
      cases h
      exact .table _ t hs (by rw [hopen])

end Backend

namespace Recorder

variable {κ : Type} {files files' : Files} {r r' : Recorder κ} {id : String}
  {settings : CacheSettings} {place : Place} {path : String}

/-- The exchange as it is stored under the settings of a cache. -/
def exchange (settings : CacheSettings) (url : String) (request response : Bytes) :
    ExchangeKey × Bytes := ((url, keyOf settings request), response)

/-- The cache records, and these records wait to be written. -/
def Recording (r : Recorder κ) (id : String) (settings : CacheSettings) (place : Place)
    (records : List Record) : Prop :=
  ∃ index ids, r.session = some ⟨settings, some (.capture ⟨index, some ⟨place,
      if settings.init then some 0 else none, records.flatMap Capture.lineBytes⟩⟩), ids⟩ ∧
    ids.contains id = true

/-- The cache plays the exchanges of an index, and has taken these in the same run. -/
def Playing (r : Recorder κ) (id : String) (settings : CacheSettings) (index : ExchangeIndex)
    (taken : List (ExchangeKey × Bytes)) : Prop :=
  r.replayed = ExchangeIndex.ofExchanges taken ∧
    ∃ output ids, r.session = some ⟨settings, some (.capture ⟨index, output⟩), ids⟩ ∧
      ids.contains id = true

theorem active_of_session (session : CacheSession κ) (backend : Backend κ)
    (hr : r.session = some session) (hbackend : session.backend = some backend)
    (hid : session.ids.contains id = true) : r.active id = .ok (some (session, backend)) := by
  rw [active, hr]
  simp only [hbackend, hid]
  rfl

/-! ### Opening files -/

theorem openOutput_some (init : Bool) (output : Option CaptureOutput)
    (h : (Capture.openOutput files init (some path)).2 = .ok (files', output)) :
    ∃ place, files.openOutput path init = .ok (files', place) ∧
      output = some ⟨place, if init then some 0 else none, []⟩ := by
  simp only [Capture.openOutput] at h
  cases hopen : files.openOutput path init with
  | error e =>
    rw [hopen] at h
    cases h
  | ok opened =>
    obtain ⟨files'', place⟩ := opened
    rw [hopen] at h
    cases h
    exact ⟨place, rfl, rfl⟩

theorem openFiles_eq_ok (s : FileSettings) (init : Bool) (capture : Capture)
    (h : (Capture.openFiles files s init).2 = (files', .ok capture)) :
    (Capture.openOutput files init s.output).2 = .ok (files', capture.output) ∧
      ∀ path, s.input = some path → (Capture.load files' path).2 = .ok capture.index := by
  unfold Capture.openFiles at h
  rcases hopen : Capture.openOutput files init s.output with ⟨events, e | ⟨files'', output⟩⟩
  · rw [hopen] at h
    cases h
  · rw [hopen] at h
    cases hinput : s.input with
    | none =>
      rw [hinput] at h
      cases h
      exact ⟨rfl, fun path hpath => by cases hpath⟩
    | some input =>
      rw [hinput] at h
      simp only [Prod.mk.injEq] at h
      obtain ⟨rfl, hload⟩ := h
      obtain ⟨index, hindex, rfl⟩ := map_eq_ok.mp hload
      refine ⟨rfl, fun path hpath => ?_⟩
      cases hpath
      exact hindex

theorem openOutput_opens (init : Bool) (output : Option String)
    (h : ∀ path, output = some path → ∃ opened, files.openOutput path init = .ok opened) :
    ∃ opened, (Capture.openOutput files init output).2 = .ok opened := by
  cases output with
  | none => exact ⟨_, rfl⟩
  | some path =>
    obtain ⟨⟨files', place⟩, hopened⟩ := h path rfl
    simp only [Capture.openOutput, hopened]
    exact ⟨_, rfl⟩

/-- Opening the output leaves a file alone that it does not empty. -/
theorem stands_of_opened {content : Bytes} {output : Option CaptureOutput}
    (hstands : files.Stands path place content)
    (hkept : ∀ output, settings.file.output = some output → settings.init = true →
      ¬ files.Names output place)
    (h : (Capture.openOutput files settings.init settings.file.output).2 = .ok (files', output)) :
    files'.Stands path place content := by
  cases houtput : settings.file.output with
  | none =>
    rw [houtput] at h
    obtain ⟨rfl, -⟩ := Prod.mk.inj (Except.ok.inj h)
    exact hstands
  | some output =>
    rw [houtput] at h
    obtain ⟨place', hplace', -⟩ := openOutput_some _ _ h
    refine hstands.openOutput _ hplace' fun hinit => ?_
    rintro rfl
    obtain ⟨hends, hleads, -⟩ := Files.openOutput_eq_ok _ hplace'
    exact hkept output houtput hinit ⟨hleads, hends⟩

/-- Opening the output refuses nothing that was not refused before. -/
theorem guard_of_opened {init : Bool} {output : Option String} {opened : Option CaptureOutput}
    (h : (Capture.openOutput files init output).2 = .ok (files', opened)) (place : Place) :
    files'.guard place = files.guard place := by
  cases output with
  | none =>
    obtain ⟨rfl, -⟩ := Prod.mk.inj (Except.ok.inj h)
    rfl
  | some path =>
    obtain ⟨place', hplace', -⟩ := openOutput_some _ _ h
    exact Files.guard_openOutput _ hplace' place

/-! ### Configuring -/

section

variable [SqlLibrary κ] {now : Moment}

theorem configure_first (connection cache : Properties)
    (hsettings : CacheSettings.ofProperties cache = .ok settings)
    (h : (({} : Recorder κ).configure files now connection cache).2 = (files', r, .ok id)) :
    ∃ backend, (openIfEnabled files now settings).2 = (files', .ok backend) ∧
      r = { session := some ⟨settings, backend, [id]⟩ } := by
  unfold configure at h
  rw [hsettings] at h
  simp only [configureFirst] at h
  rcases hopen : @openIfEnabled κ _ files now settings with ⟨events, files'', e | backend⟩
  · rw [hopen] at h
    cases h
  · rw [hopen] at h
    cases h
    exact ⟨backend, rfl, rfl⟩

/-- A cache that records or plays opens its storage. -/
theorem storage_opened (backend : Option (Backend κ)) (henabled : settings.isEnabled = true)
    (h : (openIfEnabled files now settings).2 = (files', .ok backend)) :
    ∃ b, (Backend.openStorage files now settings).2 = (files', .ok b) ∧ backend = some b := by
  rw [openIfEnabled, if_pos henabled] at h
  rcases hopen : @Backend.openStorage κ _ files now settings with ⟨events, files'', e | b⟩
  · rw [hopen] at h
    cases h
  · rw [hopen] at h
    cases h
    exact ⟨b, rfl, rfl⟩

theorem open_capture (backend : Option (Backend κ)) (henabled : settings.isEnabled = true)
    (hbackend : settings.backend = .file)
    (h : (openIfEnabled files now settings).2 = (files', .ok backend)) :
    ∃ capture, (Capture.openFiles files settings.file settings.init).2 = (files', .ok capture) ∧
      backend = some (.capture capture) := by
  obtain ⟨b, hopened, rfl⟩ := storage_opened backend henabled h
  cases Backend.opens_as hopened with
  | memory hs => cases hs.symm.trans hbackend
  | capture _ c _ hcapture => exact ⟨c, hcapture, rfl⟩
  | table _ _ hs => cases hs.symm.trans hbackend

/-- The first configuration of a cache that is to record to a fresh file. -/
theorem recording_of_configure (connection cache : Properties)
    (hsettings : CacheSettings.ofProperties cache = .ok settings)
    (hrecord : settings.record = true) (hbackend : settings.backend = .file)
    (houtput : settings.file.output = some path) (hfresh : files.Fresh path settings.init)
    (h : (({} : Recorder κ).configure files now connection cache).2 = (files', r, .ok id)) :
    ∃ place, r.Recording id settings place [] ∧ files'.Stands path place [] := by
  obtain ⟨backend, hopened, rfl⟩ := configure_first connection cache hsettings h
  have henabled : settings.isEnabled = true := by
    rw [CacheSettings.isEnabled, hrecord, Bool.true_or]
  obtain ⟨capture, hcapture, rfl⟩ := open_capture backend henabled hbackend hopened
  obtain ⟨hout, -⟩ := openFiles_eq_ok _ _ capture hcapture
  rw [houtput] at hout
  obtain ⟨place, hplace, hposition⟩ := openOutput_some _ _ hout
  obtain ⟨index, output⟩ := capture
  obtain rfl : output = _ := hposition
  exact ⟨place, ⟨index, [id], rfl, by simp⟩, Files.stands_of_openOutput _ hfresh hplace⟩

/-- A cache that is to play a file of records can be configured, if that file may be read, and if
its output can be opened and does not empty that file. -/
theorem configure_plays (connection cache : Properties) {records : List Record}
    (hsettings : CacheSettings.ofProperties cache = .ok settings)
    (hplay : settings.play = true) (hbackend : settings.backend = .file)
    (hinput : settings.file.input = some path)
    (hstands : files.Stands path place (records.flatMap Capture.lineBytes))
    (hreading : (files.guard place).reading = none) (hdated : ∀ record ∈ records, record.IsDated)
    (hkept : ∀ output, settings.file.output = some output → settings.init = true →
      ¬ files.Names output place)
    (hopens : ∀ output, settings.file.output = some output →
      ∃ opened, files.openOutput output settings.init = .ok opened) :
    (({} : Recorder κ).configure files now connection cache).2.2.2 =
      .ok (Digest.sessionId connection cache) := by
  -- the output is opened before the input is loaded
  obtain ⟨⟨files', output⟩, hopened⟩ := openOutput_opens settings.init settings.file.output hopens
  obtain ⟨index, hload⟩ := Capture.load_dated (stands_of_opened hstands hkept hopened)
    (by rw [guard_of_opened hopened, hreading]) hdated
  have henabled : settings.isEnabled = true := by rw [CacheSettings.isEnabled, hplay, Bool.or_true]
  have hfiles : (Capture.openFiles files settings.file settings.init).2 =
      (files', .ok ⟨index, output⟩) := by
    unfold Capture.openFiles
    rcases hout : Capture.openOutput files settings.init settings.file.output with ⟨events, opened⟩
    rw [hout] at hopened
    subst hopened
    simp only [hinput, hload]
    rfl
  unfold configure
  rw [hsettings]
  simp only [configureFirst, openIfEnabled, henabled, if_true, Backend.openStorage, hbackend]
  rcases hcapture : Capture.openFiles files settings.file settings.init with ⟨events, opened⟩
  rw [hcapture] at hfiles
  subst hfiles
  rfl

/-- The first configuration of a cache that is to play a file. Its output, if it has one, must not
empty that file. -/
theorem playing_of_configure (connection cache : Properties) (records : List Record)
    (hsettings : CacheSettings.ofProperties cache = .ok settings)
    (hplay : settings.play = true) (hbackend : settings.backend = .file)
    (hinput : settings.file.input = some path)
    (hstands : files.Stands path place (records.flatMap Capture.lineBytes))
    (hkept : ∀ output, settings.file.output = some output → settings.init = true →
      ¬ files.Names output place)
    (h : (({} : Recorder κ).configure files now connection cache).2 = (files', r, .ok id)) :
    r.Playing id settings (.ofExchanges (records.map Record.exchange)) [] := by
  obtain ⟨backend, hopened, rfl⟩ := configure_first connection cache hsettings h
  have henabled : settings.isEnabled = true := by rw [CacheSettings.isEnabled, hplay, Bool.or_true]
  obtain ⟨capture, hcapture, rfl⟩ := open_capture backend henabled hbackend hopened
  obtain ⟨hout, hload⟩ := openFiles_eq_ok _ _ capture hcapture
  have hindex := Capture.load_records (stands_of_opened hstands hkept hout) (hload path hinput)
  obtain ⟨index, output⟩ := capture
  obtain rfl : index = _ := hindex
  exact ⟨rfl, output, [id], rfl, by simp⟩

end

/-! ### Recording -/

namespace Recording

variable {records : List Record} (h : r.Recording id settings place records)

include h

theorem get [SqlLibrary κ] (hplay : settings.play = false) (now : Moment) (url : String)
    (request : Bytes) : (r.get files now id url request).2 = (files, r, .ok none) := by
  obtain ⟨index, ids, hsession, hid⟩ := h
  rw [Recorder.get, active_of_session _ _ hsession rfl hid]
  simp only [hplay]
  rfl

theorem put [SqlLibrary κ] (hrecord : settings.record = true) (now : Moment) (url : String)
    (request response : Bytes) :
    ∃ r', (r.put files now id url request response).2 = (files, r', .ok ()) ∧
      r'.Recording id settings place
        (records ++ [⟨now.stamp, url, keyOf settings request, response⟩]) := by
  obtain ⟨index, ids, hsession, hid⟩ := h
  rw [Recorder.put, active_of_session _ _ hsession rfl hid]
  simp only [hrecord, if_true]
  refine ⟨_, rfl, index.insert (url, keyOf settings request) response, ids, ?_, hid⟩
  rw [List.flatMap_append, List.flatMap_singleton]
  rfl

/-- What was recorded is in the file after a flush. -/
theorem flush (hstands : files.Stands path place []) :
    (r.flush files).1.Stands path place (records.flatMap Capture.lineBytes) := by
  obtain ⟨index, ids, hsession, -⟩ := h
  unfold Recorder.flush
  rw [hsession]
  exact hstands.write settings.init _

end Recording

/-! ### Playing -/

namespace Playing

variable {index : ExchangeIndex} {taken : List (ExchangeKey × Bytes)}
  (h : r.Playing id settings index taken)

include h

theorem get [SqlLibrary κ] (hplay : settings.play = true) (now : Moment) (url : String)
    (request : Bytes) : (r.get files now id url request).2 =
      (files, r, .ok (((ExchangeIndex.ofExchanges taken).find? (url, keyOf settings request)).or
        (index.find? (url, keyOf settings request)))) := by
  obtain ⟨hreplayed, output, ids, hsession, hid⟩ := h
  rw [Recorder.get, active_of_session _ _ hsession rfl hid]
  simp only [hplay, if_true, hreplayed]
  cases (ExchangeIndex.ofExchanges taken).find? (url, keyOf settings request) with
  | some response => rfl
  | none =>
    show (files, r.withBackend _ _, _) = _
    obtain ⟨session, replayed⟩ := r
    cases hsession
    rfl

theorem put [SqlLibrary κ] (hrecord : settings.record = false) (hplay : settings.play = true)
    (now : Moment) (url : String) (request response : Bytes) :
    ∃ r', (r.put files now id url request response).2 = (files, r', .ok ()) ∧
      r'.Playing id settings index (taken ++ [exchange settings url request response]) := by
  obtain ⟨hreplayed, output, ids, hsession, hid⟩ := h
  rw [Recorder.put, active_of_session _ _ hsession rfl hid]
  simp only [hrecord, hplay, if_true]
  refine ⟨_, rfl, ?_, output, ids, hsession, hid⟩
  rw [exchange, ExchangeIndex.ofExchanges_concat, ← hreplayed]

end Playing

end Recorder

end OlapClient
