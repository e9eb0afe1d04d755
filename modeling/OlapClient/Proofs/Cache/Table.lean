import Mathlib.Logic.Function.Basic
import OlapClient.Cache.Table

/-!
# What tables rest on

What a table store promises rests on its library. A statement that only looks up finds the same
again and again. And if the library does with the statements of the default templates what they say,
then a table that was made when its store was opened starts empty, and under each key it has what
was inserted last.
-/

namespace OlapClient

/-! ### What libraries promise -/

namespace SqlLibrary

/-- The statement only looks up: what it finds does not depend on the time, and running it changes
nothing that it finds later. -/
structure IsQuery (κ : Type) [SqlLibrary κ] (sql : String) : Prop where
  timeless : ∀ (c : κ) files now now' key,
    (queryRow c files now sql key).2.2 = (queryRow c files now' sql key).2.2
  repeatable : ∀ (c : κ) files now key now' key',
    (queryRow (queryRow c files now sql key).2.1 (queryRow c files now sql key).1 now' sql
      key').2.2 = (queryRow c files now' sql key').2.2

/-- What a library does with the default templates. Of a connection to some files, `lacks` says that
the database has no such table; `shows` says that it has one, which can be written, and what that
has under each key. -/
structure ServesDefaults (κ : Type) [SqlLibrary κ] (lacks : κ → Files → Prop)
    (shows : κ → Files → (Bytes → Option Bytes) → Prop) : Prop where
  openInMemory : ∀ files now files' c, openInMemory files now = (files', some c) → lacks c files'
  drop : ∀ c files now files' c',
    executeBatch c files now ({} : TableSettings).dropSql = (files', c', some ()) → lacks c' files'
  create : ∀ c files now files' c', lacks c files →
    executeBatch c files now ({} : TableSettings).createSql = (files', c', some ()) →
    shows c' files' fun _ => none
  insert : ∀ c files now rows key response, shows c files rows →
    ∃ files' c', execute c files now ({} : TableSettings).insertSql key response =
        (files', c', some ()) ∧
      shows c' files' (Function.update rows key (some response))
  select : ∀ c files now rows key, shows c files rows →
    ∃ files' c', queryRow c files now ({} : TableSettings).selectSql key =
        (files', c', some (rows key)) ∧
      shows c' files' rows

end SqlLibrary

/-! ### Stores -/

/-- The templates of the settings are the default ones. -/
structure TableSettings.HasDefaultTemplates (s : TableSettings) : Prop where
  create : s.createSql = ({} : TableSettings).createSql
  drop : s.dropSql = ({} : TableSettings).dropSql
  select : s.selectSql = ({} : TableSettings).selectSql
  insert : s.insertSql = ({} : TableSettings).insertSql

namespace TableStore

variable {κ : Type}

theorem result_error {α : Type} {found : Option α} {e : CacheError} (h : result found = .error e) :
    e = .database := by
  cases found with
  | none => exact (Except.error.inj h).symm
  | some => cases h

/-- A store with the default templates, whose table has this under each key. -/
structure Shows (t : TableStore κ) (shows : κ → Files → (Bytes → Option Bytes) → Prop)
    (files : Files) (rows : Bytes → Option Bytes) : Prop where
  table : shows t.connection files rows
  select : t.selectSql = ({} : TableSettings).selectSql
  insert : t.insertSql = ({} : TableSettings).insertSql

variable [SqlLibrary κ] {lacks : κ → Files → Prop}
  {shows : κ → Files → (Bytes → Option Bytes) → Prop} {files files' : Files} {now : Moment}

namespace Shows

variable {t : TableStore κ} {rows : Bytes → Option Bytes}

theorem lookup (h : t.Shows shows files rows) (laws : SqlLibrary.ServesDefaults κ lacks shows)
    (now : Moment) (key : ExchangeKey) :
    ∃ files' t', t.lookup files now key = (files', t', .ok (rows key.2)) ∧
      t'.Shows shows files' rows := by
  obtain ⟨files', c, hquery, hshows⟩ := laws.select _ files now rows key.2 h.table
  refine ⟨files', { t with connection := c }, ?_, hshows, h.select, h.insert⟩
  rw [← h.select] at hquery
  simp only [TableStore.lookup, hquery]
  rfl

theorem store (h : t.Shows shows files rows) (laws : SqlLibrary.ServesDefaults κ lacks shows)
    (now : Moment) (key : ExchangeKey) (response : Bytes) :
    ∃ files' t', t.store files now key response = (files', t', .ok ()) ∧
      t'.Shows shows files' (Function.update rows key.2 (some response)) := by
  obtain ⟨files', c, hexecute, hshows⟩ := laws.insert _ files now rows key.2 response h.table
  refine ⟨files', { t with connection := c }, ?_, hshows, h.select, h.insert⟩
  rw [← h.insert] at hexecute
  simp only [TableStore.store, hexecute]
  rfl

end Shows

/-! ### Opening -/

variable {s : TableSettings} {init : Bool}

/-- The table is made when the store is opened: it is dropped before, or it was not there. -/
def MakesTable (lacks : κ → Files → Prop) (files : Files) (now : Moment) (s : TableSettings)
    (init : Bool) : Prop :=
  init = true ∨ isPrivate (location s.url) = true ∨
    ∀ located c, connect files now s.url = (located, some c) → lacks c located

/-- A table that was prepared was made, on demand behind the statement that drops it. -/
theorem made_of_prepared {c made : κ}
    (h : (prepare c files now s init).2 = (files', some made)) : ∃ dropped c',
      (init = false ∧ dropped = files ∧ c' = c ∨
        init = true ∧ SqlLibrary.executeBatch c files now s.dropSql = (dropped, c', some ())) ∧
      SqlLibrary.executeBatch c' dropped now s.createSql = (files', made, some ()) := by
  have hcreate : ∀ c files, ((SqlLibrary.executeBatch c files now s.createSql).1,
      (SqlLibrary.executeBatch c files now s.createSql).2.2.map
        fun _ => (SqlLibrary.executeBatch c files now s.createSql).2.1) = (files', some made) →
      SqlLibrary.executeBatch c files now s.createSql = (files', made, some ()) := by
    intro c files h
    rcases hrun : SqlLibrary.executeBatch c files now s.createSql with ⟨files₁, c₁, - | ⟨⟨⟩⟩⟩
    · rw [hrun] at h
      cases h
    · rw [hrun] at h
      cases h
      rfl
  unfold prepare at h
  cases init with
  | false => exact ⟨files, c, .inl ⟨rfl, rfl, rfl⟩, hcreate c files h⟩
  | true =>
    rcases hdrop : SqlLibrary.executeBatch c files now s.dropSql with ⟨dropped, c', - | ⟨⟨⟩⟩⟩
    · simp [hdrop] at h
    · simp only [if_true, hdrop] at h
      exact ⟨dropped, c', .inr ⟨rfl, rfl⟩, hcreate c' dropped h⟩

theorem shows_of_prepared (laws : SqlLibrary.ServesDefaults κ lacks shows)
    (hs : s.HasDefaultTemplates) {c made : κ} (hnew : init = true ∨ lacks c files)
    (h : (prepare c files now s init).2 = (files', some made)) :
    shows made files' fun _ => none := by
  obtain ⟨dropped, c', hdrop, hcreate⟩ := made_of_prepared h
  rw [hs.create] at hcreate
  refine laws.create c' dropped now files' made ?_ hcreate
  obtain ⟨hinit, rfl, rfl⟩ | ⟨-, hdrop⟩ := hdrop
  · exact hnew.resolve_left (by rw [hinit]; decide)
  · rw [hs.drop] at hdrop
    exact laws.drop c files now dropped c' hdrop

/-- A store that was opened has the templates of its settings and a table that was prepared. -/
theorem prepared_of_opened {t : TableStore κ}
    (h : (openTable files now s init).2 = (files', .ok t)) :
    (∃ located c, connect files now s.url = (located, some c) ∧
      (prepare c located now s init).2 = (files', some t.connection)) ∧
    t.selectSql = s.selectSql ∧ t.insertSql = s.insertSql := by
  by_cases hdriver : s.driver ≠ "sqlite"
  · rw [openTable, if_pos hdriver] at h
    cases h
  · rw [openTable, if_neg hdriver] at h
    rcases hconnect : @connect κ _ files now s.url with ⟨located, - | c⟩
    · simp [hconnect] at h
    · rcases hprepare : prepare c located now s init with ⟨events, files₁, - | made⟩
      · simp [hconnect, hprepare, result] at h
      · simp only [hconnect, hprepare] at h
        cases h
        exact ⟨⟨located, c, rfl, by rw [hprepare]⟩, rfl, rfl⟩

/-- A store that makes its table when it is opened starts empty. -/
theorem shows_of_opened (laws : SqlLibrary.ServesDefaults κ lacks shows)
    (hs : s.HasDefaultTemplates) (hnew : MakesTable lacks files now s init) {t : TableStore κ}
    (h : (openTable files now s init).2 = (files', .ok t)) :
    t.Shows shows files' fun _ => none := by
  obtain ⟨⟨located, c, hconnect, hprepare⟩, hselect, hinsert⟩ := prepared_of_opened h
  have hlacks : init = true ∨ lacks c located := by
    obtain hinit | hprivate | hmissing := hnew
    · exact .inl hinit
    · rw [connect, if_pos hprivate] at hconnect
      exact .inr (laws.openInMemory files now located c hconnect)
    · exact .inr (hmissing located c hconnect)
  exact ⟨shows_of_prepared laws hs hlacks hprepare, hselect.trans hs.select,
    hinsert.trans hs.insert⟩

end TableStore

end OlapClient
