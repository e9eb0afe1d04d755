import Mathlib.Data.List.Dedup
import OlapClient.Proofs.Cache.Answering
import OlapClient.Proofs.Cache.Calls
import OlapClient.Proofs.Cache.Table

/-!
# Kinds of storage answer alike

Storage in memory, in files and in a table answers the same calls alike, each from its own picture
of them: entries in the order of their use, an index beside a growing file, and rows by key. In
memory that takes room for all keys and responses that live long enough; in a table, calls of one
address.
-/

namespace OlapClient

open StorageCall

/-! ### In memory -/

namespace MemoryStore

/-- The entries of a store are the latest stores of the calls, in any order. -/
structure Pictures (m : MemoryStore) (calls : List StorageCall) : Prop where
  nodup : (m.entries.map (·.key)).Nodup
  entries : ∀ entry, entry ∈ m.entries ↔
    latest calls entry.key = some ⟨entry.storedAt, entry.response⟩

variable {m : MemoryStore} {calls : List StorageCall} {key : ExchangeKey}

theorem mem_others (entry : MemoryEntry) :
    entry ∈ m.others key ↔ entry ∈ m.entries ∧ entry.key ≠ key := by
  simp [others, List.mem_filter]

theorem nodup_moved (h : (m.entries.map (·.key)).Nodup) (entry : MemoryEntry)
    (hkey : entry.key = key) : ((entry :: m.others key).map (·.key)).Nodup := by
  rw [List.map_cons, List.nodup_cons]
  refine ⟨fun hmem => ?_, h.sublist (List.filter_sublist.map _)⟩
  obtain ⟨other, hother, hsame⟩ := List.mem_map.mp hmem
  exact ((mem_others other).mp hother).2 (hsame.trans hkey)

/-- A store that has room for all keys gives nothing up. -/
theorem Pictures.length_le (h : m.Pictures calls) (keys : List ExchangeKey)
    (hkeys : ∀ call ∈ calls, call.key ∈ keys) (hkey : key ∈ keys) :
    (m.others key).length + 1 ≤ keys.dedup.length := by
  have hsub : ∀ other ∈ key :: (m.others key).map (·.key), other ∈ keys.dedup := by
    intro other hother
    rw [List.mem_dedup]
    rcases List.mem_cons.mp hother with rfl | hother
    · exact hkey
    · obtain ⟨entry, hentry, rfl⟩ := List.mem_map.mp hother
      have hlatest := (h.entries entry).mp ((mem_others entry).mp hentry).1
      obtain ⟨call, hcall, hsame⟩ := List.mem_map.mp (mem_keys_of_latest hlatest)
      exact hsame ▸ hkeys call hcall
  have hnodup : (key :: (m.others key).map (·.key)).Nodup :=
    nodup_moved h.nodup (⟨key, [], 0⟩ : MemoryEntry) rfl
  have hle := (List.subperm_of_subset hnodup hsub).length_le
  rwa [List.length_cons, List.length_map] at hle

theorem Pictures.store (h : m.Pictures calls) (now : Moment) (response : Bytes)
    (hroom : (m.others key).length + 1 ≤ m.capacity) :
    (m.store now.clock key response).Pictures (calls ++ [.store now key response]) := by
  have hentries : (m.store now.clock key response).entries =
      ⟨key, response, now.clock⟩ :: m.others key :=
    List.take_of_length_le (by rwa [List.length_cons])
  refine ⟨by rw [hentries]; exact nodup_moved h.nodup _ rfl, fun entry => ?_⟩
  rw [hentries, List.mem_cons, mem_others]
  by_cases hkey : entry.key = key
  · obtain ⟨key', response', storedAt⟩ := entry
    obtain rfl : key' = key := hkey
    rw [latest_store_self]
    constructor
    · rintro (hnew | ⟨-, hne⟩)
      · cases hnew
        rfl
      · exact absurd rfl hne
    · intro hlatest
      cases hlatest
      exact .inl rfl
  · rw [latest_store_of_ne calls now response hkey, ← h.entries]
    constructor
    · rintro (rfl | ⟨hentry, -⟩)
      · exact absurd rfl hkey
      · exact hentry
    · exact fun hentry => .inr ⟨hentry, hkey⟩

/-- A key has one entry. -/
theorem Pictures.eq_of_key (h : m.Pictures calls) {entry other : MemoryEntry}
    (hentry : entry ∈ m.entries) (hother : other ∈ m.entries) (hkey : other.key = entry.key) :
    other = entry := by
  have hlatest := (h.entries other).mp hother
  rw [hkey, (h.entries entry).mp hentry] at hlatest
  obtain ⟨otherKey, response, storedAt⟩ := other
  cases hkey
  cases hlatest
  rfl

/-- The entry of a key is its latest store. -/
theorem Pictures.find?_eq (h : m.Pictures calls) (key : ExchangeKey) :
    (m.entries.find? fun entry => entry.key == key) =
      (latest calls key).map fun stored => ⟨key, stored.response, stored.storedAt⟩ := by
  cases hlatest : latest calls key with
  | none =>
    rw [Option.map_none, List.find?_eq_none]
    intro entry hentry hsame
    have hkey : entry.key = key := eq_of_beq hsame
    have hstored := (h.entries entry).mp hentry
    rw [hkey, hlatest] at hstored
    cases hstored
  | some stored =>
    have hentry := (h.entries ⟨key, stored.response, stored.storedAt⟩).mpr hlatest
    cases hfind : m.entries.find? fun entry => entry.key == key with
    | none =>
      have hne := List.find?_eq_none.mp hfind _ hentry
      simp at hne
    | some entry =>
      have hkey : entry.key = key := by simpa using List.find?_some hfind
      rw [h.eq_of_key hentry (List.mem_of_find?_eq_some hfind) hkey, Option.map_some]

/-- An entry that moves to the front is one of the same entries. -/
theorem Pictures.moved (h : m.Pictures calls) {entry : MemoryEntry} (hentry : entry ∈ m.entries) :
    ({ m with entries := entry :: m.others entry.key } : MemoryStore).Pictures calls := by
  refine ⟨nodup_moved h.nodup entry rfl, fun other => ?_⟩
  rw [← h.entries, List.mem_cons, mem_others]
  constructor
  · rintro (rfl | ⟨hother, -⟩)
    · exact hentry
    · exact hother
  · intro hother
    by_cases hkey : other.key = entry.key
    · exact .inl (h.eq_of_key hentry hother hkey)
    · exact .inr ⟨hother, hkey⟩

theorem Pictures.looked (h : m.Pictures calls) (now : Moment) (key : ExchangeKey) :
    m.Pictures (calls ++ [.lookup now key]) :=
  ⟨h.nodup, fun entry => by rw [latest_lookup, h.entries]⟩

/-- What is found is the latest store, unless that outlived its time. -/
theorem Pictures.lookup (h : m.Pictures calls) (now : Moment)
    (hlive : ∀ stored, latest calls key = some stored →
      now.clock - stored.storedAt ≤ m.lifetime.nanoseconds) :
    ∃ entries, m.lookup now.clock key = ({ m with entries := entries }, latestResponse calls key) ∧
      ({ m with entries := entries } : MemoryStore).Pictures (calls ++ [.lookup now key]) := by
  have hfind := h.find?_eq key
  cases hlatest : latest calls key with
  | none =>
    rw [hlatest] at hfind
    refine ⟨m.entries, ?_, h.looked now key⟩
    rw [MemoryStore.lookup, hfind, latestResponse, hlatest]
    rfl
  | some stored =>
    rw [hlatest] at hfind
    have hentry : ⟨key, stored.response, stored.storedAt⟩ ∈ m.entries :=
      List.mem_of_find?_eq_some hfind
    have hfresh : m.isExpired now.clock ⟨key, stored.response, stored.storedAt⟩ = false := by
      simpa [isExpired] using hlive stored hlatest
    refine ⟨_, ?_, (h.moved hentry).looked now key⟩
    rw [MemoryStore.lookup, hfind, latestResponse, hlatest]
    simp only [Option.map_some, hfresh]
    rfl

end MemoryStore

/-! ### Faithful kinds of storage -/

/-- The number of keys that the calls are about. -/
def StorageCall.distinctKeys (calls : List StorageCall) : Nat := (calls.map key).dedup.length

/-- No response outlives its time before it is looked up. -/
def StorageCall.NothingExpires (lifetime : Duration) (calls : List StorageCall) : Prop :=
  ∀ front now key behind stored, calls = front ++ .lookup now key :: behind →
    latest front key = some stored → now.clock - stored.storedAt ≤ lifetime.nanoseconds

namespace Backend

variable {κ : Type} [SqlLibrary κ]

/-- In memory, the calls so far and the next one are among calls for whose keys there is room, and
what the next one looks up did not outlive its time. -/
theorem memory_faithful (keys : List ExchangeKey) (capacity : Nat) (lifetime : Duration)
    (hroom : keys.dedup.length ≤ capacity) :
    Faithful
      (fun before _ (b : Backend κ) => ∃ m, b = .memory m ∧ m.capacity = capacity ∧
        m.lifetime = lifetime ∧ m.Pictures before)
      (fun before call => (∀ call' ∈ before ++ [call], call'.key ∈ keys) ∧
        ∀ now key stored, call = .lookup now key → latest before key = some stored →
          now.clock - stored.storedAt ≤ lifetime.nanoseconds) where
  store := by
    rintro before files _ now key response ⟨m, rfl, rfl, rfl, hm⟩ ⟨hkeys, -⟩
    have hkey : key ∈ keys := hkeys (.store now key response) (by simp)
    have hle := hm.length_le keys (fun call hcall => hkeys call (by simp [hcall])) hkey
    exact ⟨files, _, rfl, _, rfl, rfl, rfl, hm.store now response (hle.trans hroom)⟩
  lookup := by
    rintro before files _ now key ⟨m, rfl, rfl, rfl, hm⟩ ⟨-, hlive⟩
    obtain ⟨entries, hlookup, hm'⟩ := hm.lookup now fun stored => hlive now key stored rfl
    refine ⟨files, .memory { m with entries := entries }, ?_, _, rfl, rfl, rfl, hm'⟩
    rw [Backend.lookup, hlookup]

theorem capture_faithful : Faithful
    (fun before _ (b : Backend κ) => ∃ c, b = .capture c ∧ c.output.isSome = true ∧
      ∀ key, c.lookup key = latestResponse before key)
    (fun _ _ => True) where
  store := by
    rintro before files _ now key response ⟨⟨index, output⟩, rfl, houtput, hc⟩ -
    obtain ⟨output, rfl⟩ := Option.isSome_iff_exists.mp houtput
    refine ⟨files, _, rfl, _, rfl, rfl, fun other => ?_⟩
    by_cases hkey : other = key
    · rw [hkey, latestResponse, latest_store_self]
      exact ExchangeIndex.find?_insert_self ..
    · rw [latestResponse, latest_store_of_ne before now response hkey]
      exact (ExchangeIndex.find?_insert_of_ne _ _ _ _ hkey).trans (hc other)
  lookup := by
    rintro before files _ now key ⟨c, rfl, houtput, hc⟩ -
    refine ⟨files, .capture c, by rw [Backend.lookup, hc key], c, rfl, houtput, fun other => ?_⟩
    rw [latestResponse, latest_lookup]
    exact hc other

/-- A table has no column for the address, so that all calls have to be about one. -/
theorem table_faithful {lacks : κ → Files → Prop}
    {shows : κ → Files → (Bytes → Option Bytes) → Prop}
    (laws : SqlLibrary.ServesDefaults κ lacks shows) (url : String) : Faithful
    (fun before files (b : Backend κ) => ∃ t rows, b = .table t ∧ t.Shows shows files rows ∧
      ∀ key, rows key = latestResponse before (url, key))
    (fun _ call => call.key.1 = url) where
  store := by
    rintro before files _ now ⟨url', key⟩ response ⟨t, rows, rfl, ht, hkeys⟩ hurl
    obtain rfl : url' = url := hurl
    obtain ⟨files', t', hstore, ht'⟩ := ht.store laws now (url', key) response
    refine ⟨files', .table t', by rw [Backend.store, hstore], t', _, rfl, ht', fun other => ?_⟩
    by_cases hkey : other = key
    · rw [hkey, Function.update_self, latestResponse, latest_store_self]
      rfl
    · have hne : (url', other) ≠ (url', key) := fun hsame => hkey (congrArg Prod.snd hsame)
      rw [Function.update_of_ne hkey, hkeys, latestResponse, latestResponse,
        latest_store_of_ne _ _ _ hne]
  lookup := by
    rintro before files _ now ⟨url', key⟩ ⟨t, rows, rfl, ht, hkeys⟩ hurl
    obtain rfl : url' = url := hurl
    obtain ⟨files', t', hlookup, ht'⟩ := ht.lookup laws now (url', key)
    refine ⟨files', .table t', ?_, t', rows, rfl, ht', fun other => ?_⟩
    · rw [Backend.lookup, hlookup, ← hkeys]
    · rw [latestResponse, latest_lookup]
      exact hkeys other

theorem table_of_opened {files files' : Files} {now : Moment} {b : Backend κ} {s : CacheSettings}
    (hs : s.backend = .table) (h : (openStorage files now s).2 = (files', .ok b)) :
    ∃ t, b = .table t ∧ (TableStore.openTable files now s.table s.init).2 = (files', .ok t) := by
  cases opens_as h with
  | memory hs' => cases hs'.symm.trans hs
  | capture _ _ hs' => cases hs'.symm.trans hs
  | table _ t _ hopen => exact ⟨t, rfl, hopen⟩

/-! ### Storage that is opened -/

/-- Storage that was opened so that it can answer the calls. In memory there is room for all keys,
and nothing expires; files start empty and are written; a table is made with the default templates
by a library that serves these, and the calls are about one address. -/
inductive Opened (calls : List StorageCall) (files : Files) (b : Backend κ) : Prop where
  | memory (before : Files) (now : Moment) (s : CacheSettings) (hs : s.backend = .memory)
      (h : (openStorage before now s).2 = (files, .ok b))
      (hroom : distinctKeys calls ≤ max 1 s.memory.capacity)
      (hlive : NothingExpires s.memory.lifetime calls)
  | file (before : Files) (now : Moment) (s : CacheSettings) (hs : s.backend = .file)
      (h : (openStorage before now s).2 = (files, .ok b)) (houtput : s.file.output.isSome = true)
      (hempty : ∀ c, b = .capture c → c.isEmpty = true)
  | table (lacks : κ → Files → Prop) (shows : κ → Files → (Bytes → Option Bytes) → Prop)
      (laws : SqlLibrary.ServesDefaults κ lacks shows)
      (before : Files) (now : Moment) (s : CacheSettings) (url : String) (hs : s.backend = .table)
      (h : (openStorage before now s).2 = (files, .ok b))
      (htemplates : s.table.HasDefaultTemplates)
      (hnew : TableStore.MakesTable lacks before now s.table s.init)
      (hurl : ∀ call ∈ calls, call.key.1 = url)

/-- All kinds of storage answer each lookup alike: with the response of the latest store under its
key, or with none if there was no store. -/
theorem answers_of_opened {calls : List StorageCall} {files : Files} {b : Backend κ}
    (h : Opened calls files b) : b.answers files calls = .ok (answersDue [] calls) := by
  cases h with
  | memory before now s hs h hroom hlive =>
    simp only [openStorage, hs] at h
    cases h
    refine (memory_faithful (calls.map key) _ s.memory.lifetime hroom).answers [] calls files _
      ⟨_, rfl, rfl, rfl, by simp [MemoryStore.ofSettings], fun entry => ?_⟩ ?_
    · simp [MemoryStore.ofSettings, latest]
    · intro front call behind hsplit
      refine ⟨fun call' hcall' => ?_, ?_⟩
      · have hmem : call' ∈ calls := by
          rw [hsplit, List.append_cons]
          exact List.mem_append_left behind hcall'
        exact List.mem_map_of_mem hmem
      · rintro now key stored rfl hlatest
        exact hlive front now key behind stored hsplit hlatest
  | file before now s hs h houtput hempty =>
    obtain ⟨c, rfl, hsome⟩ := capture_of_opened hs h
    have hindex : c.index = [] := List.isEmpty_iff.mp (hempty c rfl)
    refine capture_faithful.answers [] calls files _ ⟨c, rfl, hsome.trans houtput, fun key => ?_⟩
      fun _ _ _ _ => trivial
    rw [Capture.lookup, hindex]
    rfl
  | table lacks shows laws before now s url hs h htemplates hnew hurl =>
    obtain ⟨t, rfl, hopen⟩ := table_of_opened hs h
    refine (table_faithful laws url).answers [] calls files _
      ⟨t, _, rfl, TableStore.shows_of_opened laws htemplates hnew hopen, fun key => rfl⟩ ?_
    intro front call behind hsplit
    exact hurl call (by rw [hsplit]; simp)

/-- Calls about two keys, one of them empty, that store an empty response and one in its place. -/
def replacingCalls : List StorageCall :=
  let now : Moment := ⟨0, .epoch⟩
  [.lookup now ("u", []), .store now ("u", []) [], .lookup now ("u", []), .store now ("u", [1]) [2],
    .store now ("u", []) [3], .lookup now ("u", []), .lookup now ("u", [1])]

/-- Nothing was stored at first, the empty response counts as one, and the later one replaces it. -/
theorem three_kinds_answer_alike :
    ∃ (files files' : Files) (memory capture table : Backend Sql.Connection),
      (openStorage {} ⟨0, .epoch⟩ { backend := .memory }).2 = (files, .ok memory) ∧
      (openStorage {} ⟨0, .epoch⟩ { backend := .file, file := { output := some "out" } }).2 =
        (files', .ok capture) ∧
      (openStorage {} ⟨0, .epoch⟩ { backend := .table }).2 = (files, .ok table) ∧
      memory.answers files replacingCalls = .ok [none, some [], some [3], some [2]] ∧
      capture.answers files' replacingCalls = .ok [none, some [], some [3], some [2]] ∧
      table.answers files replacingCalls = .ok [none, some [], some [3], some [2]] := by
  let now : Moment := ⟨0, .epoch⟩
  have hmemory : (openStorage {} now { backend := .memory }).2 =
    ({}, .ok (.memory (.ofSettings {}) : Backend Sql.Connection)) := rfl
  obtain ⟨files', c, hfile, hempty⟩ : ∃ files' c,
      (openStorage {} now { backend := .file, file := { output := some "out" } }).2 =
        (files', .ok (.capture c : Backend Sql.Connection)) ∧ c.isEmpty = true :=
    ⟨_, _, rfl, rfl⟩
  have htable : (openStorage {} now { backend := .table }).2 =
      ({}, .ok (.table (⟨⟨.own ⟨[("xmla_cache", Sql.cacheTable [])]⟩, true⟩,
        ({} : TableSettings).selectSql, ({} : TableSettings).insertSql⟩ :
          TableStore Sql.Connection))) := by decide +kernel
  have hlive : NothingExpires ({} : MemorySettings).lifetime replacingCalls := by
    intro front now key behind stored hsplit _
    have hmem : StorageCall.lookup now key ∈ replacingCalls := by
      rw [hsplit]
      simp
    have hnow : now = ⟨0, .epoch⟩ := by
      simp only [replacingCalls, List.mem_cons, List.not_mem_nil, StorageCall.lookup.injEq] at hmem
      tauto
    rw [hnow, Nat.zero_sub]
    exact Nat.zero_le _
  have hnew : TableStore.MakesTable Sql.Connection.Lacks {} now ({} : TableSettings) false :=
    .inr (.inl (by decide +kernel))
  exact ⟨_, _, _, _, _, hmemory, hfile, htable,
    answers_of_opened (.memory {} now { backend := .memory } rfl hmemory (by decide) hlive),
    answers_of_opened (.file {} now _ rfl hfile rfl (by rintro _ ⟨⟩; exact hempty)),
    answers_of_opened (.table _ _ Sql.Connection.servesDefaults {} now { backend := .table } "u" rfl
      htable ⟨rfl, rfl, rfl, rfl⟩ hnew (by decide))⟩

end Backend

end OlapClient
