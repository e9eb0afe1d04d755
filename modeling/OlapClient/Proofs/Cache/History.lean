import OlapClient.Cache.Recorder
import OlapClient.Proofs.Cache.Table
import OlapClient.Proofs.Traversal

/-!
# Histories of a cache

A cache is called again and again, with any properties and ids, and in between others may change
its files. The first configuration that succeeds settles its settings and its storage. All other
calls leave the settings as they are and the storage to itself, and a configuration that fails
leaves everything as it was.
-/

namespace OlapClient

/-! ### Storage that is used -/

namespace Backend

variable {κ : Type} [SqlLibrary κ]

/-- What storage can become while a cache uses it. -/
inductive Becomes (b : Backend κ) : Backend κ → Prop where
  | same : Becomes b b
  | lookup {b' : Backend κ} (h : Becomes b b') (files : Files) (now : Moment) (key : ExchangeKey) :
      Becomes b (b'.lookup files now key).2.1
  | store {b' : Backend κ} (h : Becomes b b') (files : Files) (now : Moment) (key : ExchangeKey)
      (response : Bytes) : Becomes b (b'.store files now key response).2.1
  | flush {b' : Backend κ} (h : Becomes b b') (files : Files) : Becomes b (b'.flush files).2

theorem Becomes.trans {a b c : Backend κ} (hab : Becomes a b) (hbc : Becomes b c) :
    Becomes a c := by
  induction hbc with
  | same => exact hab
  | lookup _ files now key ih => exact ih.lookup files now key
  | store _ files now key response ih => exact ih.store files now key response
  | flush _ files ih => exact ih.flush files

theorem lookup_error {b : Backend κ} {files : Files} {now : Moment} {key : ExchangeKey}
    {e : CacheError} (h : (b.lookup files now key).2.2 = .error e) : e = .database := by
  cases b with
  | memory m => cases h
  | capture c => cases h
  | table t => exact TableStore.result_error h

theorem store_error {b : Backend κ} {files : Files} {now : Moment} {key : ExchangeKey}
    {response : Bytes} {e : CacheError} (h : (b.store files now key response).2.2 = .error e) :
    e = .database ∨ e = .unsupported .noOutputFile := by
  cases b with
  | memory m => cases h
  | capture c =>
    obtain ⟨index, output⟩ := c
    cases output with
    | none => exact .inr (Except.error.inj h).symm
    | some output => cases h
  | table t => exact .inl (TableStore.result_error h)

end Backend

namespace CacheSession

variable {κ : Type} [SqlLibrary κ]

/-- What calls that issue ids make of a session: its settings stay, and its storage is used. -/
structure Grows (a b : CacheSession κ) (issued : List String) : Prop where
  settings : b.settings = a.settings
  backend : Option.Rel Backend.Becomes a.backend b.backend
  ids : ∀ id, id ∈ b.ids ↔ id ∈ a.ids ∨ id ∈ issued

variable {a b c : CacheSession κ} {issued more : List String} {backend backend' : Backend κ}

theorem Grows.refl (a : CacheSession κ) : a.Grows a [] where
  settings := rfl
  backend := by
    cases a.backend with
    | none => exact .none
    | some b => exact .some .same
  ids := by simp

theorem rel_becomes_trans {a b c : Option (Backend κ)} (hab : Option.Rel Backend.Becomes a b)
    (hbc : Option.Rel Backend.Becomes b c) : Option.Rel Backend.Becomes a c := by
  cases hab with
  | none => exact hbc
  | some hab =>
    cases hbc with
    | some hbc => exact .some (hab.trans hbc)

theorem Grows.trans (hab : a.Grows b issued) (hbc : b.Grows c more) :
    a.Grows c (issued ++ more) where
  settings := hbc.settings.trans hab.settings
  backend := rel_becomes_trans hab.backend hbc.backend
  ids := by
    intro id
    rw [hbc.ids, hab.ids, List.mem_append, or_assoc]

theorem Grows.of_becomes (ha : a.backend = some backend) (h : backend.Becomes backend') :
    a.Grows { a with backend := some backend' } [] where
  settings := rfl
  backend := by
    rw [ha]
    exact .some h
  ids := by simp

end CacheSession

namespace Recorder

variable {κ : Type} {r : Recorder κ} {files : Files} {now : Moment}
  {id url : String} {request response : Bytes} {session : CacheSession κ} {backend : Backend κ}
  {e : CacheError}

/-! ### Ids and storage -/

theorem active_issued (hsession : r.session = some session)
    (hbackend : session.backend = some backend) (hid : id ∈ session.ids) :
    r.active id = .ok (some (session, backend)) := by
  unfold active
  rw [hsession]
  simp only [hbackend]
  rw [if_pos (by simpa using hid)]

theorem active_unissued (hsession : r.session = some session)
    (hbackend : session.backend = some backend) (hid : id ∉ session.ids) :
    r.active id = .error (.unknownSession id) := by
  unfold active
  rw [hsession]
  simp only [hbackend]
  rw [if_neg (by simpa using hid)]

theorem active_cases (hsession : r.session = some session)
    (hbackend : session.backend = some backend) (id : String) :
    r.active id = .error (.unknownSession id) ∨ r.active id = .ok (some (session, backend)) := by
  by_cases hid : id ∈ session.ids
  · exact .inr (active_issued hsession hbackend hid)
  · exact .inl (active_unissued hsession hbackend hid)

theorem active_unconfigured (h : r.session = none) : r.active id = .ok none := by
  rw [active, h]

theorem active_idle (hsession : r.session = some session) (hbackend : session.backend = none) :
    r.active id = .ok none := by
  unfold active
  rw [hsession]
  simp only [hbackend]

theorem active_ne_error (hsession : r.session = some session) (hid : id ∈ session.ids)
    (e : CacheError) : r.active id ≠ .error e := by
  intro hactive
  cases hbackend : session.backend with
  | none =>
    rw [active_idle hsession hbackend] at hactive
    cases hactive
  | some backend =>
    rw [active_issued hsession hbackend hid] at hactive
    cases hactive

theorem flush_unconfigured (h : r.session = none) : r.flush files = (files, r) := by
  rw [flush, h]

theorem flush_idle (h : r.session = some session) (hbackend : session.backend = none) :
    r.flush files = (files, r) := by
  unfold flush
  rw [h]
  simp only [hbackend]

theorem flush_active (h : r.session = some session) (hbackend : session.backend = some backend) :
    r.flush files =
      ((backend.flush files).1, r.withBackend session (backend.flush files).2) := by
  unfold flush
  rw [h]
  simp only [hbackend]

/-! ### What a call leaves of the session -/

variable [SqlLibrary κ]

theorem configure_opens {settings : CacheSettings} {files' : Files}
    {backend : Option (Backend κ)} (h : r.session = none) (connection : Properties)
    {cache : Properties} (hsettings : CacheSettings.ofProperties cache = .ok settings)
    (hopen : (openIfEnabled files now settings).2 = (files', .ok backend)) :
    (r.configure files now connection cache).2 = (files',
      { r with session := some ⟨settings, backend, [Digest.sessionId connection cache]⟩ },
      .ok (Digest.sessionId connection cache)) := by
  rcases hopened : @openIfEnabled κ _ files now settings with ⟨events, result⟩
  rw [hopened] at hopen
  obtain rfl : result = (files', .ok backend) := hopen
  unfold configure
  simp only [hsettings, h, configureFirst, hopened]

theorem configure_unconfigured (r : Recorder κ) (files : Files) (now : Moment)
    (h : r.session = none) (connection cache : Properties) :
    (∃ files' e, (r.configure files now connection cache).2 = (files', r, .error e)) ∨
    ∃ files' settings backend, CacheSettings.ofProperties cache = .ok settings ∧
      (openIfEnabled files now settings).2 = (files', .ok backend) ∧
      (r.configure files now connection cache).2 = (files',
        { r with session := some ⟨settings, backend, [Digest.sessionId connection cache]⟩ },
        .ok (Digest.sessionId connection cache)) := by
  cases hsettings : CacheSettings.ofProperties cache with
  | error fault =>
    left
    rw [configure, hsettings]
    exact ⟨_, _, rfl⟩
  | ok settings =>
    rcases hopen : @openIfEnabled κ _ files now settings with ⟨events, files', e | backend⟩
    · left
      unfold configure
      simp only [hsettings, h, configureFirst, hopen]
      exact ⟨_, _, rfl⟩
    · right
      have hopened : (openIfEnabled files now settings).2 = (files', .ok backend) := by rw [hopen]
      exact ⟨files', settings, backend, rfl, hopened,
        configure_opens h connection hsettings hopened⟩

theorem configure_configured (r : Recorder κ) (files : Files) (now : Moment)
    (h : r.session = some session) (connection cache : Properties) :
    ∃ ids result, (∀ id, id ∈ ids ↔ id ∈ session.ids ∨ result = .ok id) ∧
      (∀ e, result = .error e → ids = session.ids) ∧
      ((∃ id, result = .ok id) ↔ ∃ asked, CacheSettings.ofProperties cache = .ok asked) ∧
      (r.configure files now connection cache).2 =
        (files, { r with session := some { session with ids := ids } }, result) := by
  unfold configure
  cases CacheSettings.ofProperties cache with
  | error fault =>
    refine ⟨session.ids, .error (.settings fault), by simp, fun _ _ => rfl, by simp, ?_⟩
    obtain ⟨_, replayed⟩ := r
    obtain rfl := h
    rfl
  | ok settings =>
    rw [h]
    refine ⟨_, .ok (Digest.sessionId connection cache), fun id => ?_, by simp, by simp, rfl⟩
    split
    · rename_i hcontains
      have hmem : Digest.sessionId connection cache ∈ session.ids := by simpa using hcontains
      constructor
      · exact .inl
      · rintro (hid | hid)
        · exact hid
        · cases hid
          exact hmem
    · simp [eq_comm]

theorem get_refused (h : r.active id = .error e) :
    (r.get files now id url request).2 = (files, r, .error e) := by
  rw [get, h]

theorem put_refused (h : r.active id = .error e) :
    (r.put files now id url request response).2 = (files, r, .error e) := by
  rw [put, h]

theorem get_inactive (h : r.active id = .ok none) :
    (r.get files now id url request).2 = (files, r, .ok none) := by
  rw [get, h]

theorem put_inactive (h : r.active id = .ok none) :
    (r.put files now id url request response).2 = (files, r, .ok ()) := by
  rw [put, h]

theorem get_grows (h : r.session = some session) :
    ∃ after, (r.get files now id url request).2.2.1.session = some after ∧
      session.Grows after [] := by
  have hkept : ∃ after, r.session = some after ∧ session.Grows after [] :=
    ⟨session, h, .refl session⟩
  cases hbackend : session.backend with
  | none =>
    rw [get_inactive (active_idle h hbackend)]
    exact hkept
  | some backend =>
    obtain hactive | hactive := active_cases h hbackend id
    · rw [get_refused hactive]
      exact hkept
    · unfold get
      rw [hactive]
      simp only
      split
      · split
        · exact hkept
        · have hused := CacheSession.Grows.of_becomes hbackend
            (.lookup .same files now (url, keyOf session.settings request))
          split
          · rename_i hlookup
            rw [hlookup] at hused
            exact ⟨_, rfl, hused⟩
          · rename_i hlookup
            rw [hlookup] at hused
            exact ⟨_, rfl, hused⟩
      · exact hkept

theorem put_grows (h : r.session = some session) :
    ∃ after, (r.put files now id url request response).2.2.1.session = some after ∧
      session.Grows after [] := by
  have hkept : ∃ after, r.session = some after ∧ session.Grows after [] :=
    ⟨session, h, .refl session⟩
  cases hbackend : session.backend with
  | none =>
    rw [put_inactive (active_idle h hbackend)]
    exact hkept
  | some backend =>
    obtain hactive | hactive := active_cases h hbackend id
    · rw [put_refused hactive]
      exact hkept
    · unfold put
      rw [hactive]
      simp only
      split
      · have hused := CacheSession.Grows.of_becomes hbackend
          (.store .same files now (url, keyOf session.settings request) response)
        split
        · rename_i hstore
          rw [hstore] at hused
          exact ⟨_, rfl, hused⟩
        · rename_i hstore
          rw [hstore] at hused
          exact ⟨_, rfl, hused⟩
      · split
        · exact hkept
        · exact hkept

theorem flush_grows (h : r.session = some session) :
    ∃ after, (r.flush files).2.session = some after ∧ session.Grows after [] := by
  cases hbackend : session.backend with
  | none =>
    rw [flush_idle h hbackend]
    exact ⟨session, h, .refl session⟩
  | some backend =>
    rw [flush_active h hbackend]
    exact ⟨_, rfl, .of_becomes hbackend (.flush .same files)⟩

/-! ### What a call answers -/

/-- With an id that was issued, only the storage can fail. -/
theorem get_accepted (h : ∀ e, r.active id ≠ .error e)
    (hget : (r.get files now id url request).2.2.2 = .error e) : e = .database := by
  unfold get at hget
  cases hactive : r.active id with
  | error e => exact absurd hactive (h e)
  | ok found =>
    rw [hactive] at hget
    cases found with
    | none => cases hget
    | some found =>
      simp only at hget
      split at hget
      · split at hget
        · cases hget
        · split at hget
          · rename_i hlookup
            cases hget
            exact Backend.lookup_error (congrArg (·.2.2) hlookup)
          · cases hget
      · cases hget

theorem put_accepted (h : ∀ e, r.active id ≠ .error e)
    (hput : (r.put files now id url request response).2.2.2 = .error e) :
    e = .database ∨ e = .unsupported .noOutputFile := by
  unfold put at hput
  cases hactive : r.active id with
  | error e => exact absurd hactive (h e)
  | ok found =>
    rw [hactive] at hput
    cases found with
    | none => cases hput
    | some found =>
      simp only at hput
      split at hput
      · split at hput
        · rename_i hstore
          cases hput
          exact Backend.store_error (congrArg (·.2.2) hstore)
        · cases hput
      · split at hput
        · cases hput
        · cases hput

end Recorder

/-! ### Histories -/

inductive CacheCall where
  | configure (now : Moment) (connection cache : Properties)
  | get (now : Moment) (id url : String) (request : Bytes)
  | put (now : Moment) (id url : String) (request response : Bytes)
  | flush

/-- A call on a cache, or what others make of its files. -/
inductive CacheAct where
  | call (call : CacheCall)
  | others (files : Files)

structure CacheState (κ : Type) where
  files : Files
  cache : Recorder κ := {}

namespace CacheState

variable {κ : Type} [SqlLibrary κ]

def configured (s : CacheState κ) (now : Moment) (connection cache : Properties) :
    Recorder.Outcome κ String :=
  (s.cache.configure s.files now connection cache).2

def got (s : CacheState κ) (now : Moment) (id url : String) (request : Bytes) :
    Recorder.Outcome κ (Option Bytes) :=
  (s.cache.get s.files now id url request).2

def put (s : CacheState κ) (now : Moment) (id url : String) (request response : Bytes) :
    Recorder.Outcome κ Unit :=
  (s.cache.put s.files now id url request response).2

def after (s : CacheState κ) : CacheAct → CacheState κ
  | .call (.configure now connection cache) =>
    ⟨(s.configured now connection cache).1, (s.configured now connection cache).2.1⟩
  | .call (.get now id url request) =>
    ⟨(s.got now id url request).1, (s.got now id url request).2.1⟩
  | .call (.put now id url request response) =>
    ⟨(s.put now id url request response).1, (s.put now id url request response).2.1⟩
  | .call .flush => ⟨(s.cache.flush s.files).1, (s.cache.flush s.files).2⟩
  | .others files => ⟨files, s.cache⟩

def run (s : CacheState κ) (acts : List CacheAct) : CacheState κ := acts.foldl after s

/-- What is noted of each act of a history. -/
def gather {α : Type} (note : CacheState κ → CacheAct → List α) (s : CacheState κ) :
    List CacheAct → List α
  | [] => []
  | act :: acts => note s act ++ gather note (s.after act) acts

def issuedBy (s : CacheState κ) : CacheAct → List String
  | .call (.configure now connection cache) =>
    (s.configured now connection cache).2.2.toOption.toList
  | _ => []

/-- The ids that were issued in a history. -/
def issued (s : CacheState κ) (acts : List CacheAct) : List String := s.gather issuedBy acts

theorem run_concat (s : CacheState κ) (acts : List CacheAct) (act : CacheAct) :
    s.run (acts ++ [act]) = (s.run acts).after act := List.foldl_concat ..

theorem gather_concat {α : Type} (note : CacheState κ → CacheAct → List α) (s : CacheState κ)
    (acts : List CacheAct) (act : CacheAct) :
    s.gather note (acts ++ [act]) = s.gather note acts ++ note (s.run acts) act := by
  induction acts generalizing s with
  | nil =>
    show note s act ++ [] = [] ++ note s act
    rw [List.append_nil, List.nil_append]
  | cons first acts ih =>
    show note s first ++ (s.after first).gather note (acts ++ [act]) = _
    rw [ih, ← List.append_assoc]
    rfl

/-- What each act keeps is kept in a history, with all that was noted. -/
theorem run_keeps {α : Type} {note : CacheState κ → CacheAct → List α}
    {P : CacheState κ → List α → Prop} {s : CacheState κ} (h : P s []) (acts : List CacheAct)
    (hstep : ∀ s taken, ∀ act ∈ acts, P s taken → P (s.after act) (taken ++ note s act)) :
    P (s.run acts) (s.gather note acts) := by
  -- from the end, since an act is noted in what the acts before it leave
  induction acts using List.reverseRecOn with
  | nil => exact h
  | append_singleton acts act ih =>
    rw [run_concat, gather_concat]
    apply hstep _ _ act (by simp)
    apply ih
    intro s taken act hact
    exact hstep s taken act (List.mem_append_left _ hact)

theorem after_configure {s : CacheState κ} {now : Moment} {connection cache : Properties}
    {files : Files} {r : Recorder κ} {result : Except CacheError String}
    (h : (s.cache.configure s.files now connection cache).2 = (files, r, result)) :
    s.after (.call (.configure now connection cache)) = ⟨files, r⟩ ∧
      s.issuedBy (.call (.configure now connection cache)) = result.toOption.toList := by
  simp only [after, issuedBy, configured, h, and_self]

/-! ### Sessions in a history -/

theorem session_after (s : CacheState κ) (act : CacheAct) {session : CacheSession κ}
    (h : s.cache.session = some session) :
    ∃ after, (s.after act).cache.session = some after ∧
      session.Grows after (s.issuedBy act) := by
  cases act with
  | others files => exact ⟨session, h, .refl session⟩
  | call call =>
    cases call with
    | get now id url request => exact Recorder.get_grows h
    | put now id url request response => exact Recorder.put_grows h
    | flush => exact Recorder.flush_grows h
    | configure now connection cache =>
      obtain ⟨ids, result, hids, -, -, hconfigure⟩ :=
        s.cache.configure_configured s.files now h connection cache
      rw [(after_configure hconfigure).1, (after_configure hconfigure).2]
      refine ⟨_, rfl, rfl, (CacheSession.Grows.refl session).backend, fun id => ?_⟩
      rw [Option.mem_toList, toOption_eq_some]
      exact hids id

theorem unconfigured_after (s : CacheState κ) (act : CacheAct) (h : s.cache.session = none) :
    (s.issuedBy act = [] ∧ (s.after act).cache = s.cache) ∨
      ∃ id session, s.issuedBy act = [id] ∧ (s.after act).cache.session = some session ∧
        session.ids = [id] := by
  cases act with
  | others files => exact .inl ⟨rfl, rfl⟩
  | call call =>
    cases call with
    | get now id url request =>
      left
      rw [after, got, Recorder.get_inactive (Recorder.active_unconfigured h)]
      exact ⟨rfl, rfl⟩
    | put now id url request response =>
      left
      rw [after, put, Recorder.put_inactive (Recorder.active_unconfigured h)]
      exact ⟨rfl, rfl⟩
    | flush =>
      left
      rw [after, Recorder.flush_unconfigured h]
      exact ⟨rfl, rfl⟩
    | configure now connection cache =>
      obtain ⟨files, e, hconfigure⟩ | ⟨files, settings, backend, -, -, hconfigure⟩ :=
        s.cache.configure_unconfigured s.files now h connection cache
      · rw [(after_configure hconfigure).1, (after_configure hconfigure).2]
        exact .inl ⟨rfl, rfl⟩
      · rw [(after_configure hconfigure).1, (after_configure hconfigure).2]
        exact .inr ⟨_, _, rfl, rfl, rfl⟩

/-- The cache is new, or it holds the ids that were issued. -/
def Holds (s : CacheState κ) (ids : List String) : Prop :=
  (ids = [] ∧ s.cache = {}) ∨
    ids ≠ [] ∧ ∃ session, s.cache.session = some session ∧ ∀ id, id ∈ session.ids ↔ id ∈ ids

theorem Holds.after {s : CacheState κ} {ids : List String} (h : s.Holds ids) (act : CacheAct) :
    (s.after act).Holds (ids ++ s.issuedBy act) := by
  obtain ⟨rfl, hnew⟩ | ⟨hsome, session, hsession, hids⟩ := h
  · obtain ⟨hissued, hsame⟩ | ⟨id, session, hissued, hsession, hids⟩ :=
      s.unconfigured_after act (by rw [hnew])
    · left
      rw [hissued, hsame]
      exact ⟨rfl, hnew⟩
    · right
      rw [hissued]
      exact ⟨by simp, session, hsession, fun other => by rw [hids, List.nil_append]⟩
  · obtain ⟨after, hafter, hgrows⟩ := s.session_after act hsession
    right
    refine ⟨by simp [hsome], after, hafter, fun id => ?_⟩
    rw [hgrows.ids, hids, List.mem_append]

theorem holds_issued (files : Files) (acts : List CacheAct) :
    let new : CacheState κ := { files := files }
    (new.run acts).Holds (new.issued acts) := by
  intro new
  refine run_keeps ?_ acts fun s ids act _ hholds => hholds.after act
  exact .inl ⟨rfl, rfl⟩

theorem session_run (s : CacheState κ) (acts : List CacheAct) {session : CacheSession κ}
    (h : s.cache.session = some session) :
    ∃ after, (s.run acts).cache.session = some after ∧ session.Grows after (s.issued acts) := by
  apply run_keeps (P := fun s issued =>
    ∃ after, s.cache.session = some after ∧ session.Grows after issued)
  · exact ⟨session, h, .refl session⟩
  · rintro s issued act - ⟨before, hbefore, hgrown⟩
    obtain ⟨after, hafter, hgrows⟩ := s.session_after act hbefore
    exact ⟨after, hafter, hgrown.trans hgrows⟩

/-- What is settled about a cache that has issued these ids. -/
structure Settled (s : CacheState κ) (ids : List String) : Prop where
  /-- A configuration that fails leaves the cache as it was. -/
  failure : ∀ now connection cache e, (s.configured now connection cache).2.2 = .error e →
    (s.configured now connection cache).2.1 = s.cache
  /-- Before the first success the cache is new, and can be configured in every way in which a new
  cache can be. -/
  retry : ids = [] → s.cache = {} ∧ ∀ now connection cache settings files
      (backend : Option (Backend κ)), CacheSettings.ofProperties cache = .ok settings →
      (Recorder.openIfEnabled s.files now settings).2 = (files, .ok backend) →
        ∃ id, (s.configured now connection cache).2.2 = .ok id
  /-- The first success takes the settings of its own properties, and opens their storage. -/
  first : ids = [] → ∀ now connection cache id, (s.configured now connection cache).2.2 = .ok id →
    ∃ files settings backend, CacheSettings.ofProperties cache = .ok settings ∧
      (Recorder.openIfEnabled s.files now settings).2 = (files, .ok backend) ∧
      s.configured now connection cache =
        (files, { session := some ⟨settings, backend, [id]⟩ }, .ok id)
  /-- A further configuration changes neither the settings nor the storage, and succeeds with all
  properties that are valid. -/
  once : ∀ session, s.cache.session = some session → ∀ now connection cache,
    (∃ after, (s.configured now connection cache).2.1.session = some after ∧
      after.settings = session.settings ∧ after.backend = session.backend) ∧
    ((∃ id, (s.configured now connection cache).2.2 = .ok id) ↔
      ∃ asked, CacheSettings.ofProperties cache = .ok asked)
  /-- The settings stay for good, and the storage becomes what its own use makes of it. -/
  stays : ∀ session, s.cache.session = some session → ∀ acts, ∃ after,
    (s.run acts).cache.session = some after ∧ after.settings = session.settings ∧
      Option.Rel Backend.Becomes session.backend after.backend
  accepts : ∀ id ∈ ids, ∀ now url request response other,
    (s.got now id url request).2.2 ≠ .error (.unknownSession other) ∧
      (s.put now id url request response).2.2 ≠ .error (.unknownSession other)
  refuses : ∀ id, id ∉ ids → ∀ session backend, s.cache.session = some session →
    session.backend = some backend → ∀ now url request response,
      s.got now id url request = (s.files, s.cache, .error (.unknownSession id)) ∧
        s.put now id url request response = (s.files, s.cache, .error (.unknownSession id))

omit [SqlLibrary κ] in
theorem Holds.accepts {s : CacheState κ} {ids : List String} (h : s.Holds ids) {id : String}
    (hid : id ∈ ids) (e : CacheError) : s.cache.active id ≠ .error e := by
  obtain ⟨rfl, -⟩ | ⟨-, session, hsession, hids⟩ := h
  · cases hid
  · exact Recorder.active_ne_error hsession ((hids id).mpr hid) e

omit [SqlLibrary κ] in
theorem Holds.refuses {s : CacheState κ} {ids : List String} (h : s.Holds ids) {id : String}
    (hid : id ∉ ids) {session : CacheSession κ} {backend : Backend κ}
    (hsession : s.cache.session = some session) (hbackend : session.backend = some backend) :
    s.cache.active id = .error (.unknownSession id) := by
  obtain ⟨-, hnew⟩ | ⟨-, found, hfound, hids⟩ := h
  · rw [hnew] at hsession
    cases hsession
  · obtain rfl : found = session := Option.some.inj (hfound.symm.trans hsession)
    exact Recorder.active_unissued hsession hbackend fun hmem => hid ((hids id).mp hmem)

/-- A cache that was new is settled by its first success, in every history of calls and of changes
to its files. -/
theorem configures_once (files : Files) (acts : List CacheAct) :
    let new : CacheState κ := { files := files }
    (new.run acts).Settled (new.issued acts) := by
  intro new
  have hholds : (new.run acts).Holds (new.issued acts) := holds_issued files acts
  constructor
  case failure =>
    intro now connection cache e herror
    unfold configured at herror ⊢
    generalize new.run acts = s at herror ⊢
    cases hsession : s.cache.session with
    | none =>
      obtain ⟨files', e', hconfigure⟩ | ⟨files', settings, backend, -, -, hconfigure⟩ :=
        s.cache.configure_unconfigured s.files now hsession connection cache
      · rw [hconfigure]
      · rw [hconfigure] at herror
        cases herror
    | some session =>
      obtain ⟨ids, result, -, hsame, -, hconfigure⟩ :=
        s.cache.configure_configured s.files now hsession connection cache
      rw [hconfigure] at herror ⊢
      rw [hsame e herror]
      obtain ⟨files, session', replayed⟩ := s
      obtain rfl := hsession
      rfl
  case retry =>
    intro hnone
    obtain ⟨-, hnew⟩ | ⟨hsome, -⟩ := hholds
    · refine ⟨hnew, fun now connection cache settings files' backend hsettings hopen => ?_⟩
      unfold configured
      rw [Recorder.configure_opens (by rw [hnew]) connection hsettings hopen]
      exact ⟨_, rfl⟩
    · exact absurd hnone hsome
  case first =>
    intro hnone now connection cache id hok
    generalize new.run acts = s at hholds hok ⊢
    obtain ⟨-, hnew⟩ | ⟨hsome, -⟩ := hholds
    · unfold configured at hok ⊢
      obtain ⟨files', e, hconfigure⟩ | ⟨files', settings, backend, hsettings, hopen, hconfigure⟩ :=
        s.cache.configure_unconfigured s.files now (by rw [hnew]) connection cache
      · rw [hconfigure] at hok
        cases hok
      · rw [hconfigure] at hok ⊢
        cases hok
        rw [hnew]
        exact ⟨files', settings, backend, hsettings, hopen, rfl⟩
    · exact absurd hnone hsome
  case once =>
    intro session hsession now connection cache
    unfold configured
    obtain ⟨ids, result, -, -, hvalid, hconfigure⟩ :=
      Recorder.configure_configured _ _ _ hsession connection cache
    rw [hconfigure]
    exact ⟨⟨_, rfl, rfl, rfl⟩, hvalid⟩
  case stays =>
    intro session hsession acts
    obtain ⟨after, hafter, hgrows⟩ := session_run _ acts hsession
    exact ⟨after, hafter, hgrows.settings, hgrows.backend⟩
  case accepts =>
    intro id hid now url request response other
    have hactive := hholds.accepts hid
    constructor
    · intro hgot
      cases Recorder.get_accepted hactive hgot
    · intro hput
      obtain hdatabase | hread := Recorder.put_accepted hactive hput
      · cases hdatabase
      · cases hread
  case refuses =>
    intro id hid session backend hsession hbackend now url request response
    have hactive := hholds.refuses hid hsession hbackend
    exact ⟨Recorder.get_refused hactive, Recorder.put_refused hactive⟩

end CacheState

end OlapClient
