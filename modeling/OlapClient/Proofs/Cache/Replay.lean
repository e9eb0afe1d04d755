import OlapClient.Cache.SmallLibrary
import OlapClient.Proofs.Cache.Recorder
import OlapClient.Proofs.Cache.Undisturbed
import OlapClient.Proofs.Request.Envelope

/-!
# Recorded runs, replayed

A run is recorded to a file, and another run plays the file. Executions with a request that was
answered in the recorded run get the last of these answers, and nothing is submitted for them; a
request that was answered in neither run is submitted.
-/

namespace OlapClient

/-! ### Requests and what becomes of them -/

/-- A request tells whether the result is to be multidimensional. -/
theorem Job.read_request (job : Job) (config : Config) (body : Bytes)
    (h : job.request config = .ok body) :
    (job.isMultidimensional = true ∧ ∃ mdx,
      Markup.readDocument body = .ok (Request.executeTree mdx config .multidimensional)) ∨
    (job.isMultidimensional = false ∧
      ((∃ mdx, Markup.readDocument body = .ok (Request.executeTree mdx config .tabular)) ∨
        ∃ type restrictions,
          Markup.readDocument body = .ok (Request.discoverTree type restrictions config))) := by
  cases job with
  | rows mdx =>
    have hbody : Request.execute mdx config .tabular = body := Except.ok.inj h
    rw [← hbody]
    exact .inr ⟨rfl, .inl ⟨mdx, Request.execute_reads_as_tree mdx config .tabular⟩⟩
  | cells mdx =>
    have hbody : Request.execute mdx config .multidimensional = body := Except.ok.inj h
    rw [← hbody]
    exact .inl ⟨rfl, mdx, Request.execute_reads_as_tree mdx config .multidimensional⟩
  | discover type restrictions =>
    exact .inr ⟨rfl, .inr ⟨type, restrictions,
      Request.discover_reads_as_tree type restrictions config body h⟩⟩

theorem Job.not_tabular (job job' : Job) (m : Message) (h : job.Asks m) (h' : job'.Asks m)
    (hcells : job.isMultidimensional = true) : job'.isMultidimensional = true := by
  obtain ⟨config, hbody, -⟩ := h
  obtain ⟨config', hbody', -⟩ := h'
  obtain ⟨-, mdx, hread⟩ | ⟨hrows, -⟩ := job.read_request config m.body hbody
  · obtain ⟨hcells', -⟩ | ⟨-, ⟨mdx', hread'⟩ | ⟨type, restrictions, hread'⟩⟩ :=
      job'.read_request config' m.body hbody'
    · exact hcells'
    · have hsame := Except.ok.inj (hread.symm.trans hread')
      exact absurd (Request.executeTree_injective _ _ _ _ _ _ hsame).2.1 (by decide)
    · have hsame := Except.ok.inj (hread.symm.trans hread')
      exact absurd hsame (Request.executeTree_ne_discoverTree _ _ _ _ _ _)
  · rw [hcells] at hrows
    cases hrows

/-- Jobs with the same request make the same of a response. -/
theorem Job.content_of_asks (job job' : Job) (m : Message) (h : job.Asks m) (h' : job'.Asks m)
    (response : Bytes) : job.content response = job'.content response := by
  have hsame : job.isMultidimensional = job'.isMultidimensional := by
    rw [Bool.eq_iff_iff]
    exact ⟨job.not_tabular job' m h h', job'.not_tabular job m h' h⟩
  rw [content, content, hsame]

/-! ### The two kinds of caches -/

/-- An exchange as a cache with these settings keeps it. -/
def kept (settings : CacheSettings) (exchange : Message × Bytes) : ExchangeKey × Bytes :=
  Recorder.exchange settings exchange.1.url exchange.1.body exchange.2

/-- The key of a request in a cache with these settings. -/
def keyOf (settings : CacheSettings) (m : Message) : ExchangeKey :=
  (m.url, Recorder.keyOf settings m.body)

/-- The records were made at times that the clock has shown. -/
def Circumstances.Dates (c : Circumstances) (records : List Record) : Prop :=
  ∀ record ∈ records, ∃ n, record.recordedAt = (c.now n).stamp

section

variable {κ : Type} [SqlLibrary κ]

/-- The cache has recorded these exchanges. -/
def Recorded (c : Circumstances) (settings : CacheSettings) (id : String) (place : Place)
    (taken : Exchanges) (r : Recorder κ) : Prop :=
  ∃ records, r.Recording id settings place records ∧
    records.map Record.exchange = taken.map (kept settings) ∧ c.Dates records

theorem serves_recording (c : Circumstances) (id : String) (settings : CacheSettings)
    (place : Place) (hrecord : settings.record = true) (hplay : settings.play = false) :
    @Serves κ _ c id (Recorded c settings id place) fun _ _ => none where
  get := by
    rintro taken r ⟨records, hr, -, -⟩ files n m
    exact hr.get hplay _ _ _
  put := by
    rintro taken r ⟨records, hr, hsame, hdates⟩ files n m response
    obtain ⟨r', hput, hr'⟩ := hr.put hrecord (c.now n) m.url m.body response
    refine ⟨r', hput, _, hr', ?_, fun record hmem => ?_⟩
    · rw [List.map_append, List.map_append, hsame]
      rfl
    · obtain hold | hnew := List.mem_append.mp hmem
      · exact hdates record hold
      · rw [List.mem_singleton.mp hnew]
        exact ⟨n, rfl⟩

/-- The cache plays an index, and has taken these exchanges. -/
def Played (settings : CacheSettings) (id : String) (index : ExchangeIndex) (taken : Exchanges)
    (r : Recorder κ) : Prop := r.Playing id settings index (taken.map (kept settings))

/-- What a cache finds that plays the exchanges of an index. -/
def played (settings : CacheSettings) (index : ExchangeIndex) (taken : Exchanges) (m : Message) :
    Option Bytes :=
  ((ExchangeIndex.ofExchanges (taken.map (kept settings))).find? (keyOf settings m)).or
    (index.find? (keyOf settings m))

theorem serves_playing (c : Circumstances) (id : String) (settings : CacheSettings)
    (index : ExchangeIndex) (hrecord : settings.record = false) (hplay : settings.play = true) :
    @Serves κ _ c id (Played settings id index) (played settings index) where
  get h files n m := Recorder.Playing.get h hplay (c.now n) m.url m.body
  put h files n m response := by
    obtain ⟨r', hput, hr'⟩ :=
      Recorder.Playing.put h hrecord hplay (c.now n) m.url m.body response
    refine ⟨r', hput, ?_⟩
    rw [Played, List.map_append]
    exact hr'

end

/-! ### The two runs -/

section

variable {κ : Type} [SqlLibrary κ]

/-- Executions on a connection whose cache records to a fresh file and does not play. -/
structure RecordedRun (κ : Type) [SqlLibrary κ] where
  circumstances : Circumstances
  jobs : List Job
  connection : Properties
  cache : Properties
  settings : CacheSettings
  id : String
  path : String
  files : Files
  opening : Moment
  /-- The connection, when its cache was just configured. -/
  site : Site κ
  valid : CacheSettings.ofProperties cache = .ok settings
  record : settings.record = true
  play : settings.play = false
  backend : settings.backend = .file
  output : settings.file.output = some path
  fresh : files.Fresh path settings.init
  configured : (({} : Recorder κ).configure files opening connection cache).2 =
    (site.files, site.cache, .ok id)

namespace RecordedRun

def outcome (r : RecordedRun κ) : List Episode × Site κ :=
  r.circumstances.episodes r.id r.jobs r.site

def episodes (r : RecordedRun κ) : List Episode := r.outcome.1

/-- The files after the cache was flushed. -/
def flushed (r : RecordedRun κ) : Files := (r.outcome.2.cache.flush r.outcome.2.files).1

/-- The clock shows years of four digits, as the dates in a record have them. -/
def Dated (r : RecordedRun κ) : Prop :=
  ∀ n, 0 ≤ (r.circumstances.now n).stamp.date.year ∧
    (r.circumstances.now n).stamp.date.year ≤ 9999

end RecordedRun

/-- Executions on a new connection, whose new cache plays the recorded file and does not record. -/
structure PlayedRun (r : RecordedRun κ) where
  circumstances : Circumstances
  jobs : List Job
  connection : Properties
  cache : Properties
  settings : CacheSettings
  path : String
  opening : Moment
  /-- The connection, but for its cache and the files. -/
  site : Site κ
  valid : CacheSettings.ofProperties cache = .ok settings
  record : settings.record = false
  play : settings.play = true
  backend : settings.backend = .file
  input : settings.file.input = some path
  sameFile : r.flushed.SameFile r.path path
  sameKeys : settings.digestKeys = r.settings.digestKeys

namespace PlayedRun

variable {r : RecordedRun κ}

def id (p : PlayedRun r) : String := Digest.sessionId p.connection p.cache

def configured (p : PlayedRun r) : Recorder.Outcome κ String :=
  (({} : Recorder κ).configure r.flushed p.opening p.connection p.cache).2

def Connects (p : PlayedRun r) : Prop := p.configured.2.2 = .ok p.id

def episodes (p : PlayedRun r) : List Episode :=
  (p.circumstances.episodes p.id p.jobs
    { p.site with files := p.configured.1, cache := p.configured.2.1 }).1

/-- The recorded file can be read, and the output, if there is one, can be opened. -/
structure FilesOpen (p : PlayedRun r) : Prop where
  input : ∃ content, r.flushed.read p.path = .ok content
  output : ∀ output, p.settings.file.output = some output →
    ∃ opened, r.flushed.openOutput output p.settings.init = .ok opened

/-- The configuration does not empty the recorded file. -/
def KeepsInput (p : PlayedRun r) : Prop :=
  p.settings.init = true → ∀ output, p.settings.file.output = some output →
    ¬ r.flushed.SameFile r.path output

/-- Some execution of the two runs looked this request up. -/
def Requested (p : PlayedRun r) (m : Message) : Prop :=
  ∃ e ∈ r.episodes ++ p.episodes, e.Requests m

/-- No two requests have the same digest. -/
def DigestsDiffer (p : PlayedRun r) : Prop :=
  r.settings.digestKeys = true → ∀ m m', p.Requested m → p.Requested m' →
    Digest.ofBytes m.body = Digest.ofBytes m'.body → m.body = m'.body

end PlayedRun

/-- What the recorded run leaves in the file. -/
theorem RecordedRun.leaves (r : RecordedRun κ) :
    ∃ (place : Place) (records : List Record),
      r.flushed.Stands r.path place (records.flatMap Capture.lineBytes) ∧
      records.map Record.exchange = (r.episodes.flatMap Episode.taken).map (kept r.settings) ∧
      r.circumstances.Dates records ∧ ∀ e ∈ r.episodes, e.Went r.id fun _ => none := by
  obtain ⟨place, hrecording, hstands⟩ := Recorder.recording_of_configure r.connection r.cache
    r.valid r.record r.backend r.output r.fresh r.configured
  have hserves := @serves_recording κ _ r.circumstances r.id r.settings place r.record r.play
  have hstart : Recorded r.circumstances r.settings r.id place [] r.site.cache :=
    ⟨[], hrecording, rfl, by simp [Circumstances.Dates]⟩
  obtain ⟨⟨records, hrecords, hsame, hdates⟩, hfiles, hwent⟩ := episodes_fate hserves r.jobs hstart
  refine ⟨place, records, ?_, ?_, hdates, fun e he => ?_⟩
  · rw [flushed, outcome, hfiles]
    exact hrecords.flush hstands
  · rw [List.nil_append] at hsame
    exact hsame
  · obtain ⟨front, back, hsplit⟩ := List.append_of_mem he
    exact hwent front e back hsplit

theorem RecordedRun.went (r : RecordedRun κ) (e : Episode) (he : e ∈ r.episodes) :
    e.Went r.id fun _ => none := by
  obtain ⟨-, -, -, -, -, hwent⟩ := r.leaves
  exact hwent e he

/-! ### Finding what was recorded -/

section

variable {settings : CacheSettings} {taken : Exchanges} {m : Message}

theorem keyOf_injective {m m' : Message} (hdigest : settings.digestKeys = true →
    Digest.ofBytes m.body = Digest.ofBytes m'.body → m.body = m'.body)
    (h : keyOf settings m = keyOf settings m') : m = m' := by
  obtain ⟨hurl, hkey⟩ := Prod.mk.inj h
  have hbody : m.body = m'.body := by
    unfold Recorder.keyOf at hkey
    split at hkey
    · rename_i hdigests
      refine hdigest hdigests ?_
      exact String.toList_injective (Utf8.encodeChars_injective _ _ hkey)
    · exact hkey
  obtain ⟨url, body⟩ := m
  obtain ⟨url', body'⟩ := m'
  simp only at hurl hbody
  rw [hurl, hbody]

/-- The last exchange of a request is found, if no other request has its key. -/
theorem find?_kept (hkeys : ∀ exchange ∈ taken, keyOf settings exchange.1 = keyOf settings m →
    exchange.1 = m) {last : Option (Message × Bytes)}
    (h : LastOf (fun exchange => exchange.1 = m) taken last) :
    (ExchangeIndex.ofExchanges (taken.map (kept settings))).find? (keyOf settings m) =
      last.map (·.2) := by
  have hsame : ∀ exchange ∈ taken,
      (exchange.1 = m ↔ (kept settings exchange).1 = keyOf settings m) := by
    intro exchange hmem
    refine ⟨fun hm => ?_, hkeys exchange hmem⟩
    rw [← hm]
    rfl
  rw [ExchangeIndex.find?_ofExchanges ((h.congr_mem hsame).map (kept settings)), Option.map_map]
  rfl

end

namespace Episode.Went

variable {e : Episode} {id : String} {found : Message → Option Bytes}

theorem requests_taken (h : e.Went id found) (exchange : Message × Bytes)
    (hmem : exchange ∈ e.taken) : e.Requests exchange.1 ∧ found exchange.1 = none := by
  obtain ⟨timeout, hfate⟩ := h
  obtain ⟨-, -, hnone, hrequests, -⟩ := hfate.of_taken hmem
  exact ⟨hrequests, hnone⟩

end Episode.Went

namespace PlayedRun

variable {r : RecordedRun κ} (p : PlayedRun r)

def source (_ : PlayedRun r) : Exchanges := r.episodes.flatMap Episode.taken

def index : ExchangeIndex := .ofExchanges (p.source.map (kept p.settings))

theorem kept_eq : kept r.settings = kept p.settings := by
  funext exchange
  rw [kept, kept, Recorder.exchange, Recorder.exchange, Recorder.keyOf, Recorder.keyOf, p.sameKeys]

/-- An output that is emptied is at another place than the recorded file. -/
theorem preserves (hkept : p.KeepsInput) {place : Place} {content : Bytes}
    (hstands : r.flushed.Stands r.path place content) (output : String)
    (houtput : p.settings.file.output = some output) (hinit : p.settings.init = true) :
    ¬ r.flushed.Names output place := fun hnames =>
  hkept hinit output houtput ⟨place, ⟨hstands.leads, hstands.ends⟩, hnames⟩

/-- A recorded file can be played. -/
theorem connects (hkept : p.KeepsInput) (hdated : r.Dated) (hopens : p.FilesOpen) :
    p.Connects := by
  obtain ⟨place, records, hstands, -, hdates, -⟩ := r.leaves
  have hinput := hstands.of_sameFile p.sameFile
  obtain ⟨content, hread⟩ := hopens.input
  refine Recorder.configure_plays p.connection p.cache p.valid p.play p.backend p.input hinput
    (hinput.of_read hread).1 (fun record hmem => ?_) (p.preserves hkept hstands) hopens.output
  obtain ⟨n, hn⟩ := hdates record hmem
  rw [Record.IsDated, hn]
  exact hdated n

/-- The executions of the second run are answered from the recorded run and from what was taken
before in the same run. -/
theorem went (hkept : p.KeepsInput) (hconnects : p.Connects) (front back : List Episode)
    (e : Episode) (hsplit : p.episodes = front ++ e :: back) :
    e.Went p.id (played p.settings p.index (front.flatMap Episode.taken)) := by
  obtain ⟨place, records, hstands, hrecords, -, -⟩ := r.leaves
  have hconfigured : (({} : Recorder κ).configure r.flushed p.opening p.connection p.cache).2 =
      (p.configured.1, p.configured.2.1, .ok p.id) := by
    rw [← hconnects]
    rfl
  have hplaying := Recorder.playing_of_configure p.connection p.cache records p.valid p.play
    p.backend p.input (hstands.of_sameFile p.sameFile) (p.preserves hkept hstands) hconfigured
  rw [hrecords, p.kept_eq] at hplaying
  have hserves := @serves_playing κ _ p.circumstances p.id p.settings p.index p.record p.play
  have hstart : Played p.settings p.id p.index [] p.configured.2.1 := hplaying
  obtain ⟨-, -, hwent⟩ := episodes_fate hserves p.jobs
    (w := { p.site with files := p.configured.1, cache := p.configured.2.1 }) hstart
  exact hwent front e back hsplit

theorem keys_differ (hdigests : p.DigestsDiffer) {m m' : Message} (h : p.Requested m)
    (h' : p.Requested m') (hkey : keyOf p.settings m = keyOf p.settings m') : m = m' := by
  refine keyOf_injective (fun hdigest => hdigests ?_ m m' h h') hkey
  rw [← p.sameKeys]
  exact hdigest

theorem requested_of_source (exchange : Message × Bytes)
    (hmem : exchange ∈ p.source) : p.Requested exchange.1 := by
  obtain ⟨u, hu, htaken⟩ := List.mem_flatMap.mp hmem
  exact ⟨u, List.mem_append_left _ hu, ((r.went u hu).requests_taken exchange htaken).1⟩

theorem went_of_front (hkept : p.KeepsInput) (hconnects : p.Connects)
    {front back : List Episode} (hsplit : p.episodes = front ++ back) (u : Episode)
    (hu : u ∈ front) : ∃ id found, u.Went id found ∧
      (∀ m, found m = none → p.index.find? (keyOf p.settings m) = none) := by
  obtain ⟨before, behind, rfl⟩ := List.append_of_mem hu
  have hwent := p.went hkept hconnects before (behind ++ back) u (by rw [hsplit]; simp)
  exact ⟨_, _, hwent, fun m hnone => (Option.or_eq_none_iff.mp hnone).2⟩

theorem requested_of_front (hkept : p.KeepsInput) (hconnects : p.Connects)
    {front back : List Episode} (hsplit : p.episodes = front ++ back) (exchange : Message × Bytes)
    (hmem : exchange ∈ front.flatMap Episode.taken) :
    p.Requested exchange.1 ∧ p.index.find? (keyOf p.settings exchange.1) = none := by
  obtain ⟨u, hu, htaken⟩ := List.mem_flatMap.mp hmem
  obtain ⟨id, found, hwent, hindex⟩ := p.went_of_front hkept hconnects hsplit u hu
  obtain ⟨hrequests, hnone⟩ := hwent.requests_taken exchange htaken
  refine ⟨⟨u, ?_, hrequests⟩, hindex _ hnone⟩
  rw [hsplit]
  simp [hu]

/-- What the second run finds for a request: the last answer of the first run; without one, nothing
that was not answered before in the second run. -/
theorem played_eq (hkept : p.KeepsInput) (hconnects : p.Connects)
    (hdigests : p.DigestsDiffer) {front back : List Episode}
    (hsplit : p.episodes = front ++ back) {m : Message} (hm : p.Requested m) :
    (∀ last, LastOf (fun exchange => exchange.1 = m) p.source last →
      p.index.find? (keyOf p.settings m) = last.map (·.2)) ∧
    (∀ response, p.index.find? (keyOf p.settings m) = some response →
      played p.settings p.index (front.flatMap Episode.taken) m = some response) ∧
    (p.index.find? (keyOf p.settings m) = none →
      LastOf (fun exchange => exchange.1 = m) (front.flatMap Episode.taken) none →
      played p.settings p.index (front.flatMap Episode.taken) m = none) := by
  have hfront : ∀ exchange ∈ front.flatMap Episode.taken,
      keyOf p.settings exchange.1 = keyOf p.settings m → exchange.1 = m :=
    fun exchange hmem hkey =>
      p.keys_differ hdigests (p.requested_of_front hkept hconnects hsplit exchange hmem).1 hm hkey
  refine ⟨fun last hlast => find?_kept (fun exchange hmem hkey => ?_) hlast,
    fun response hresponse => ?_, fun hindex hnone => ?_⟩
  · exact p.keys_differ hdigests (p.requested_of_source exchange hmem) hm hkey
  · -- the request was found, so that no execution in front had it taken
    have hno : LastOf (fun exchange => exchange.1 = m) (front.flatMap Episode.taken) none := by
      rintro exchange hmem rfl
      obtain ⟨-, hnone⟩ := p.requested_of_front hkept hconnects hsplit exchange hmem
      rw [hnone] at hresponse
      cases hresponse
    rw [played, find?_kept hfront hno, hresponse]
    rfl
  · rw [played, find?_kept hfront hnone, hindex]
    rfl

end PlayedRun

theorem RecordedRun.answered (r : RecordedRun κ) {u : Episode}
    (hu : u ∈ r.episodes) {m : Message} {response : Bytes} (h : u.Answered m response) :
    u.taken = [(m, response)] ∧ u.job.Asks m ∧
      (u.outcome = .error (.closed .statement) ∨ u.outcome = u.job.content response) := by
  have htaken := ((r.went u hu).answered_iff m response).mp h
  obtain ⟨timeout, hfate⟩ := r.went u hu
  have hmem : (m, response) ∈ u.taken := by simp [htaken]
  obtain ⟨-, hasks, -, -, hout⟩ := hfate.of_taken hmem
  exact ⟨htaken, hasks, hout⟩

namespace PlayedRun

variable {r : RecordedRun κ} (p : PlayedRun r) {front back : List Episode} {e : Episode}
  {m : Message}

/-- An execution is answered from the recorded run, if it can be. -/
theorem answers (hkept : p.KeepsInput) (hconnects : p.Connects) (hdigests : p.DigestsDiffer)
    (hsplit : p.episodes = front ++ e :: back) (hm : e.Requests m)
    (hcancelled : e.result ≠ .error .cancelled) {u : Episode}
    (hu : LastOf (fun u => ∃ response, u.Answered m response) r.episodes (some u)) :
    (∃ response, u.Answered m response ∧
      e.errands = [⟨.get p.id m, .got (.ok (some response))⟩]) ∧
    (e.result ≠ .error (.closed .statement) → u.result ≠ .error (.closed .statement) →
      e.outcome = u.outcome) := by
  obtain ⟨timeout, hfate⟩ := p.went hkept hconnects front back e hsplit
  obtain ⟨hasks, hway⟩ := hfate.of_request hm (mt e.outcome_cancelled_iff.mp hcancelled)
  obtain ⟨hindex, hhit, -⟩ :=
    p.played_eq hkept hconnects hdigests hsplit ⟨e, by simp [hsplit], hm⟩
  obtain ⟨hmem, response, hanswered⟩ := hu.mem
  obtain ⟨htaken, hasked, hgot⟩ := r.answered hmem hanswered
  -- the last execution that was answered had the last record of this request written
  have hlast := Episode.lastOf_taken r.episodes (fun u hu => ⟨_, _, r.went u hu⟩) m hu
  have hresponse : p.index.find? (keyOf p.settings m) = some response := by
    rw [hindex _ hlast]
    simp [htaken]
  obtain ⟨response', hfound, hlog, hout⟩ | ⟨hfound, -⟩ := hway
  · obtain rfl := Option.some.inj (hfound.symm.trans (hhit response hresponse))
    refine ⟨⟨response', hanswered, hlog⟩, fun hopen hopen' => ?_⟩
    rw [hout.resolve_left (mt e.outcome_closed_iff.mp hopen),
      hgot.resolve_left (mt u.outcome_closed_iff.mp hopen')]
    exact Job.content_of_asks e.job u.job m hasks hasked response'
  · rw [hhit response hresponse] at hfound
    cases hfound

/-- An execution is submitted, if neither run has its answer. -/
theorem submits (hkept : p.KeepsInput) (hconnects : p.Connects) (hdigests : p.DigestsDiffer)
    (hsplit : p.episodes = front ++ e :: back) (hm : e.Requests m)
    (hcancelled : e.result ≠ .error .cancelled)
    (hnone : ∀ u ∈ r.episodes ++ front, ¬ ∃ response, u.Answered m response) : e.Submits m := by
  obtain ⟨timeout, hfate⟩ := p.went hkept hconnects front back e hsplit
  obtain ⟨-, hway⟩ := hfate.of_request hm (mt e.outcome_cancelled_iff.mp hcancelled)
  obtain ⟨hindex, -, hmiss⟩ :=
    p.played_eq hkept hconnects hdigests hsplit ⟨e, by simp [hsplit], hm⟩
  -- nothing was taken for the request, neither into the file nor in front of this execution
  have hsource : LastOf (fun exchange => exchange.1 = m) p.source none :=
    Episode.none_taken r.episodes (fun u hu => ⟨_, _, r.went u hu⟩) m
      fun u hu => hnone u (List.mem_append_left _ hu)
  have hwents : ∀ u ∈ front, ∃ id found, u.Went id found := by
    intro u hu
    obtain ⟨id, found, hwent, -⟩ := p.went_of_front hkept hconnects hsplit u hu
    exact ⟨id, found, hwent⟩
  have hfront : LastOf (fun exchange => exchange.1 = m) (front.flatMap Episode.taken) none :=
    Episode.none_taken front hwents m fun u hu => hnone u (List.mem_append_right _ hu)
  obtain ⟨response, hfound, -⟩ | ⟨-, hsubmits⟩ := hway
  · rw [hmiss (hindex none hsource) hfront] at hfound
    cases hfound
  · exact hsubmits

end PlayedRun

/-- A recorded file can be played. A request that was answered in the recorded run is then answered
from the cache: the lookup is the only call of the execution, and the caller gets what the last
execution got that was answered. A request that was not answered before in either run is submitted.
Executions that are cancelled are left aside, and so is what a caller gets whose statement is closed
meanwhile. -/
theorem recorded_responses_replayed (r : RecordedRun κ) (p : PlayedRun r) (hkept : p.KeepsInput)
    (hdigests : p.DigestsDiffer) :
    p.episodes.map Episode.job = p.jobs ∧ (r.Dated → p.FilesOpen → p.Connects) ∧
    (p.Connects → ∀ front e back, p.episodes = front ++ e :: back →
      ((∃ m, e.Requests m ∧ e.job.Asks m) ∨ ∃ error, e.result = .error error) ∧
      ∀ m, e.Requests m → e.result ≠ .error .cancelled →
        (∀ u, LastOf (fun u => ∃ response, u.Answered m response) r.episodes (some u) →
          (∃ response, u.Answered m response ∧
            e.errands = [⟨.get p.id m, .got (.ok (some response))⟩]) ∧
          (e.result ≠ .error (.closed .statement) → u.result ≠ .error (.closed .statement) →
            e.outcome = u.outcome)) ∧
        ((∀ u ∈ r.episodes ++ front, ¬ ∃ response, u.Answered m response) → e.Submits m)) := by
  refine ⟨episodes_jobs _ _ _ _, p.connects hkept, fun hconnects front e back hsplit =>
    ⟨?_, fun m hm hcancelled => ?_⟩⟩
  · obtain ⟨timeout, hfate⟩ := p.went hkept hconnects front back e hsplit
    exact hfate.requests.imp_right fun ⟨error, herror⟩ => ⟨error, e.outcome_error error herror⟩
  · exact ⟨fun u hu => p.answers hkept hconnects hdigests hsplit hm hcancelled hu,
      p.submits hkept hconnects hdigests hsplit hm hcancelled⟩

end

/-! ### Small runs -/

def quiet : Circumstances where
  others _ w := w
  submit _ := .ok 0
  wait _ := .ok (Text.ascii "<root/>")
  now _ := ⟨0, .epoch⟩

theorem quiet_undisturbed : quiet.Undisturbed :=
  ⟨fun _ _ => rfl, fun _ => not_interrupted_ok _, fun _ => not_interrupted_ok _⟩

def smallRequest : Message := ⟨"", Request.execute "A" {} .tabular⟩

theorem quiet_episode {κ : Type} [SqlLibrary κ] (id : String) (w : Site κ)
    (hstatement : w.statement = {}) (hconfig : w.config = {}) :
    (∀ m, (quiet.episode id (.rows "A") w).1.Requests m ↔ m = smallRequest) ∧
      ¬ Interrupted (quiet.episode id (.rows "A") w).1.result := by
  obtain ⟨body, hbody⟩ : ∃ body, body = Request.execute "A" {} .tabular := ⟨_, rfl⟩
  have hrequest : Job.request w.config (.rows "A") = .ok body := by
    rw [hconfig, hbody, Job.request]
  have haccepts : w.statement.Accepts := by
    rw [hstatement]
    refine ⟨rfl, ?_, rfl⟩
    intro hbusy
    cases hbusy
  have h := quiet_undisturbed.episode id w _ body haccepts hrequest
  rw [smallRequest, ← hbody]
  rw [hconfig] at h
  exact h

theorem episodes_singleton {κ : Type} [SqlLibrary κ] (c : Circumstances) (id : String) (job : Job)
    (w : Site κ) :
    (c.episodes id [job] w).1 = [(c.episode id job w).1] := rfl

def smallConnection : Properties := [("Url", "u")]

def recordingCache : Properties :=
  [("RECORD", "true"), ("DIGEST_KEYS", "true"), ("FILE_OUTPUT", "f")]

def smallRecordedRun : RecordedRun Sql.Connection where
  circumstances := quiet
  jobs := [.rows "A"]
  connection := smallConnection
  cache := recordingCache
  settings :=
    { record := true, digestKeys := true, backend := .file, file := { output := some "f" } }
  id := Digest.sessionId smallConnection recordingCache
  path := "f"
  files := {}
  opening := ⟨0, .epoch⟩
  site :=
    { files := (({} : Recorder Sql.Connection).configure {} ⟨0, .epoch⟩ smallConnection
        recordingCache).2.1
      cache := (({} : Recorder Sql.Connection).configure {} ⟨0, .epoch⟩ smallConnection
        recordingCache).2.2.1 }
  valid := by decide +kernel
  record := rfl
  play := rfl
  backend := rfl
  output := rfl
  fresh := .inr (.inl (by decide +kernel))
  configured := by decide +kernel

theorem smallRecordedRun_answered : ∃ u response, smallRecordedRun.episodes = [u] ∧
    u.Answered smallRequest response ∧ ¬ Interrupted u.result ∧
    ∀ m, u.Requests m → m = smallRequest := by
  obtain ⟨hrequests, hresult⟩ := quiet_episode smallRecordedRun.id smallRecordedRun.site rfl rfl
  have hepisodes : smallRecordedRun.episodes =
      [(quiet.episode smallRecordedRun.id (.rows "A") smallRecordedRun.site).1] :=
    episodes_singleton quiet smallRecordedRun.id (.rows "A") smallRecordedRun.site
  have htaken : smallRecordedRun.episodes.map (fun u => u.taken.length) = [1] := by
    decide +kernel
  generalize (quiet.episode smallRecordedRun.id (.rows "A") smallRecordedRun.site).1 = u at *
  have hwent := smallRecordedRun.went u (by simp [hepisodes])
  rw [hepisodes] at htaken
  obtain ⟨exchange, hexchange⟩ := List.length_eq_one_iff.mp (List.cons.inj htaken).1
  have hrequest := (hrequests _).mp (hwent.requests_taken exchange (by simp [hexchange])).1
  refine ⟨u, exchange.2, hepisodes, ?_, hresult, fun m => (hrequests m).mp⟩
  rw [hwent.answered_iff, hexchange, ← hrequest]

theorem RecordedRun.sameFile {κ : Type} [SqlLibrary κ] (r : RecordedRun κ) :
    r.flushed.SameFile r.path r.path := by
  obtain ⟨place, records, hstands, -⟩ := r.leaves
  have hnames : r.flushed.Names r.path place := ⟨hstands.leads, hstands.ends⟩
  exact ⟨place, hnames, hnames⟩

def smallPlayedRun : PlayedRun smallRecordedRun where
  circumstances := quiet
  jobs := [.rows "A"]
  connection := smallConnection
  cache := [("PLAY", "true"), ("DIGEST_KEYS", "true"), ("FILE_INPUT", "f")]
  settings :=
    { play := true, digestKeys := true, backend := .file, file := { input := some "f" } }
  path := "f"
  opening := ⟨0, .epoch⟩
  site := {}
  valid := by decide +kernel
  record := rfl
  play := rfl
  backend := rfl
  input := rfl
  sameFile := smallRecordedRun.sameFile
  sameKeys := rfl

/-- The same, but the recorded file is emptied first, and then found empty. -/
def smallEmptiedRun : PlayedRun smallRecordedRun where
  circumstances := quiet
  jobs := [.rows "A"]
  connection := smallConnection
  cache :=
    [("PLAY", "true"), ("DIGEST_KEYS", "true"), ("INIT", "true"), ("FILE_INPUT", "f"),
      ("FILE_OUTPUT", "f")]
  settings :=
    { play := true, digestKeys := true, init := true, backend := .file
      file := { input := some "f", output := some "f" } }
  path := "f"
  opening := ⟨0, .epoch⟩
  site := {}
  valid := by decide +kernel
  record := rfl
  play := rfl
  backend := rfl
  input := rfl
  sameFile := smallRecordedRun.sameFile
  sameKeys := rfl

/-- The second run has one execution, and both have the same request. -/
theorem small_episodes (p : PlayedRun smallRecordedRun) (hc : p.circumstances = quiet)
    (hjobs : p.jobs = [.rows "A"]) (hsite : p.site = {}) :
    p.DigestsDiffer ∧ ∃ e, p.episodes = [e] ∧ e.Requests smallRequest ∧ ¬ Interrupted e.result := by
  obtain ⟨u, response, hu, -, -, hunique⟩ := smallRecordedRun_answered
  obtain ⟨hrequests, hresult⟩ := quiet_episode p.id
    { p.site with files := p.configured.1, cache := p.configured.2.1 }
    (by rw [hsite]) (by rw [hsite])
  have hepisodes : p.episodes = [(quiet.episode p.id (.rows "A")
      { p.site with files := p.configured.1, cache := p.configured.2.1 }).1] := by
    rw [PlayedRun.episodes, hc, hjobs, episodes_singleton]
  generalize (quiet.episode p.id (.rows "A")
    { p.site with files := p.configured.1, cache := p.configured.2.1 }).1 = e at *
  refine ⟨?_, e, hepisodes, (hrequests _).mpr rfl, hresult⟩
  have hall : ∀ m, p.Requested m → m = smallRequest := by
    rintro m ⟨e', hmem, hm⟩
    rw [hu, hepisodes] at hmem
    obtain rfl | rfl : e' = u ∨ e' = e := by simpa using hmem
    · exact hunique m hm
    · exact (hrequests m).mp hm
  intro _ m m' hm hm' _
  rw [hall m hm, hall m' hm']

theorem small_run_replayed : ∃ u e response, smallRecordedRun.episodes = [u] ∧
    smallPlayedRun.episodes = [e] ∧ u.Answered smallRequest response ∧
    e.errands = [⟨.get smallPlayedRun.id smallRequest, .got (.ok (some response))⟩] ∧
    e.outcome = u.outcome := by
  obtain ⟨u, _, hu, hanswered, huncut, -⟩ := smallRecordedRun_answered
  obtain ⟨hdigests, e, he, hrequests, huncut'⟩ := small_episodes smallPlayedRun rfl rfl rfl
  obtain ⟨-, hconnects, hreplayed⟩ :=
    recorded_responses_replayed smallRecordedRun smallPlayedRun nofun hdigests
  have hdated : smallRecordedRun.Dated := by
    intro n
    show 0 ≤ Stamp.epoch.date.year ∧ Stamp.epoch.date.year ≤ 9999
    decide
  have hread : (smallRecordedRun.flushed.read "f").toOption.isSome = true := by decide +kernel
  obtain ⟨content, hcontent⟩ := Option.isSome_iff_exists.mp hread
  have hopens : smallPlayedRun.FilesOpen := ⟨⟨content, toOption_eq_some.mp hcontent⟩, nofun⟩
  obtain ⟨-, hanswers⟩ := hreplayed (hconnects hdated hopens) [] e [] he
  obtain ⟨hhit, -⟩ := hanswers smallRequest hrequests fun h => huncut' ⟨_, h, rfl⟩
  have hlast : LastOf (fun u => ∃ response, u.Answered smallRequest response)
      smallRecordedRun.episodes (some u) := by
    rw [hu]
    exact ⟨[], [], rfl, ⟨_, hanswered⟩, nofun⟩
  obtain ⟨⟨response, hresponse, herrands⟩, hsame⟩ := hhit u hlast
  exact ⟨u, e, response, hu, he, hresponse, herrands,
    hsame (fun h => huncut' ⟨_, h, rfl⟩) fun h => huncut ⟨_, h, rfl⟩⟩

/-- A second run that starts by emptying the recorded file has nothing to answer from. -/
theorem emptied_recording_not_replayed : ¬ ∀ (r : RecordedRun Sql.Connection) (p : PlayedRun r),
    p.DigestsDiffer → p.Connects → ∀ e ∈ p.episodes, ∀ m, e.Requests m →
      e.result ≠ .error .cancelled →
      (∃ u ∈ r.episodes, ∃ response, u.Answered m response) → ¬ ∃ m', e.Submits m' := by
  intro h
  obtain ⟨u, response, hu, hanswered, -, -⟩ := smallRecordedRun_answered
  obtain ⟨hdigests, e, he, hrequests, huncut⟩ := small_episodes smallEmptiedRun rfl rfl rfl
  have hconnects : smallEmptiedRun.Connects := by
    rw [PlayedRun.Connects]
    decide +kernel
  have hsubmits : smallEmptiedRun.episodes.any (fun e => e.errands.any fun errand =>
      match errand.demand with
      | .submit _ => true
      | _ => false) = true := by
    decide +kernel
  refine h smallRecordedRun smallEmptiedRun hdigests hconnects e (by simp [he]) smallRequest
    hrequests (fun h => huncut ⟨_, h, rfl⟩) ⟨u, by simp [hu], response, hanswered⟩ ?_
  rw [he, List.any_cons, List.any_nil, Bool.or_false, List.any_eq_true] at hsubmits
  obtain ⟨errand, hmem, hsubmit⟩ := hsubmits
  cases hdemand : errand.demand with
  | submit m => exact ⟨m, errand, hmem, hdemand⟩
  | _ => simp [hdemand] at hsubmit

end OlapClient
