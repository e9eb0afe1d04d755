import OlapClient.Cache.SmallLibrary
import OlapClient.Proofs.Cache.Table
import OlapClient.Proofs.Dictionary
import OlapClient.Proofs.Text.Encoding

/-!
# The small library keeps its promises

A database is read back from its file as it was written. So the small library does with the
statements of the default templates what they say, wherever its database is, and its lookups change
nothing.
-/

namespace OlapClient

open Sql

/-! ### Databases as bytes -/

namespace Sql

namespace Codec

variable {α β : Type} {c : Codec α} {d : Codec β}

/-- A value is read from the front of its own bytes, and nothing behind them. -/
def Exact (c : Codec α) : Prop :=
  ∀ value rest, c.decode? (c.encode value ++ rest) = some (value, rest)

theorem byte_exact : byte.Exact := fun _ _ => rfl

theorem count_exact : count.Exact := by
  intro n rest
  show decodeCount? (List.replicate n 1 ++ [0] ++ rest) = some (n, rest)
  induction n with
  | zero => rfl
  | succ n ih =>
    rw [List.replicate_succ, List.cons_append, List.cons_append, decodeCount?, ih]
    rfl

theorem Exact.pair (hc : c.Exact) (hd : d.Exact) : (c.pair d).Exact := by
  intro value rest
  obtain ⟨a, b⟩ := value
  simp only [Codec.pair, List.append_assoc, hc a, hd b, bind, Option.bind]
  rfl

theorem Exact.many (hc : c.Exact) (values : List α) (rest : Bytes) :
    decodeMany? c values.length (values.flatMap c.encode ++ rest) = some (values, rest) := by
  induction values with
  | nil => rfl
  | cons value values ih =>
    rw [List.flatMap_cons, List.append_assoc, List.length_cons, decodeMany?, hc value]
    simp only [bind, Option.bind, ih]
    rfl

theorem Exact.list (hc : c.Exact) : c.list.Exact := by
  intro values rest
  simp only [Codec.list, List.append_assoc, count_exact values.length, bind, Option.bind]
  exact hc.many values rest

theorem Exact.via (hc : c.Exact) {put : β → α} {get : α → Option β}
    (h : ∀ value, get (put value) = some value) : (c.via put get).Exact := by
  intro value rest
  simp only [Codec.via, hc (put value), bind, Option.bind, h]
  rfl

theorem flag_exact : flag.Exact := byte_exact.via fun isSet => by cases isSet <;> rfl

theorem text_exact : text.Exact := by
  refine byte_exact.list.via fun value => ?_
  rw [Utf8.encode, Utf8.decode?_encodeChars, String.ofList_toList]

theorem column_exact : column.Exact :=
  (text_exact.pair (flag_exact.pair flag_exact)).via fun _ => rfl

theorem row_exact : row.Exact := (text_exact.pair byte_exact.list).list

theorem table_exact : table.Exact := (column_exact.list.pair row_exact.list).via fun _ => rfl

theorem database_exact : database.Exact := (text_exact.pair table_exact).list.via fun _ => rfl

end Codec

/-- A database is read back from its file. -/
theorem contentOf_fileOf (db : Database) : contentOf (fileOf db) = some db := by
  have hlong : ¬ (fileHeader ++ Codec.database.encode db).length ≤ 1 := by
    rw [List.length_append, show fileHeader.length = 17 from rfl]
    omega
  have hheader : fileHeader.isPrefixOf (fileHeader ++ Codec.database.encode db) = true :=
    List.isPrefixOf_iff_prefix.mpr (List.prefix_append _ _)
  have hdecode := Codec.database_exact db []
  rw [List.append_nil] at hdecode
  simp only [contentOf, fileOf, if_neg hlong, hheader, if_true, List.drop_left, hdecode]
  rfl

end Sql

/-! ### Rows -/

namespace Sql

/-- The columns of the table that the default templates are about. -/
def cacheColumns : List Column := [⟨"request", true, false⟩, ⟨"response", false, true⟩]

/-- The row of a key and a response. -/
def cacheRow (entry : Bytes × Bytes) : Row := [("request", entry.1), ("response", entry.2)]

/-- The table with rows of keys and responses. -/
def cacheTable (entries : List (Bytes × Bytes)) : Table := ⟨cacheColumns, entries.map cacheRow⟩

/-- The entries after a row was inserted. -/
def upsert (entries : List (Bytes × Bytes)) (key value : Bytes) : List (Bytes × Bytes) :=
  (entries.filter fun entry => entry.1 != key) ++ [(key, value)]

/-- The response in the row of a key. -/
def valueOf (entries : List (Bytes × Bytes)) (key : Bytes) : Option Bytes :=
  (entries.find? fun entry => entry.1 == key).map (·.2)

theorem valueOf_upsert_self (entries : List (Bytes × Bytes)) (key value : Bytes) :
    valueOf (upsert entries key value) key = some value := by
  have hnone : ((entries.filter fun entry => entry.1 != key).find? fun entry => entry.1 == key) =
      none := by
    rw [List.find?_eq_none]
    intro entry hmem
    have hne := (List.mem_filter.mp hmem).2
    simpa using hne
  simp [valueOf, upsert, List.find?_append, hnone]

theorem valueOf_upsert_of_ne (entries : List (Bytes × Bytes)) {key other : Bytes} (value : Bytes)
    (h : other ≠ key) : valueOf (upsert entries key value) other = valueOf entries other := by
  have hlast : ([(key, value)].find? fun entry => entry.1 == other) = none := by
    simp [Ne.symm h]
  have hfilter :
      ((entries.filter fun entry => entry.1 != key).find? fun entry => entry.1 == other) =
        entries.find? fun entry => entry.1 == other := by
    rw [List.find?_filter]
    congr 1
    funext entry
    by_cases he : entry.1 = other <;> simp [he, h]
  simp only [valueOf, upsert, List.find?_append, hlast, hfilter, Option.or_none]

theorem sameKey_cacheRow (entries : List (Bytes × Bytes)) (entry entry' : Bytes × Bytes) :
    (cacheTable entries).sameKey (cacheRow entry) (cacheRow entry') = (entry'.1 == entry.1) := by
  have hkey : (cacheTable entries).keyColumn? = some "request" := rfl
  have hlookup : ∀ entry : Bytes × Bytes, (cacheRow entry).lookup "request" = some entry.1 :=
    fun entry => rfl
  simp only [Table.sameKey, hkey, hlookup, Option.isSome_some, Bool.true_and, Option.some_beq_some]
  exact BEq.comm

/-- A row takes the place of the one with its key. -/
theorem cacheTable_insert (entries : List (Bytes × Bytes)) (key value : Bytes) :
    (cacheTable entries).insert true (cacheRow (key, value)) =
      some (cacheTable (upsert entries key value)) := by
  have hrequired : ((cacheTable entries).columns.any fun c =>
      c.isRequired && ((cacheRow (key, value)).lookup c.name).isNone) = false := rfl
  have hsame : ∀ entry, (cacheTable entries).sameKey (cacheRow (key, value)) (cacheRow entry) =
      (entry.1 == key) := fun entry => sameKey_cacheRow entries _ entry
  have hothers : ((cacheTable entries).rows.filter fun row =>
      !(cacheTable entries).sameKey (cacheRow (key, value)) row) =
        (entries.filter fun entry => entry.1 != key).map cacheRow := by
    show (entries.map cacheRow).filter _ = _
    rw [List.filter_map]
    congr 1
    refine List.filter_congr fun entry _ => ?_
    rw [Function.comp_apply, hsame]
    rfl
  have htable : ∀ rows, rows = (upsert entries key value).map cacheRow →
      ({ cacheTable entries with rows := rows } : Table) =
        cacheTable (upsert entries key value) := by
    intro rows hrows
    rw [hrows]
    rfl
  rw [Table.insert, if_neg (by rw [hrequired]; decide)]
  cases hany : (cacheTable entries).rows.any ((cacheTable entries).sameKey (cacheRow (key, value)))
  · -- No row has to make way.
    have hall : (entries.filter fun entry => entry.1 != key) = entries := by
      rw [List.filter_eq_self]
      intro entry hmem
      have hrow := List.any_eq_false.mp hany (cacheRow entry) (List.mem_map_of_mem hmem)
      rw [hsame] at hrow
      simpa using hrow
    rw [if_neg (by decide)]
    refine congrArg some (htable _ ?_)
    rw [upsert, List.map_append, hall]
    rfl
  · rw [if_pos rfl, if_pos rfl, hothers]
    refine congrArg some (htable _ ?_)
    rw [upsert, List.map_append]
    rfl

end Sql

/-! ### Templates -/

namespace Sql

theorem first_selectSql : first? ({} : TableSettings).selectSql =
    some (.select "response" "xmla_cache" "request") := by decide +kernel

theorem first_insertSql : first? ({} : TableSettings).insertSql =
    some (.insert "xmla_cache" true "request" "response") := by decide +kernel

theorem statements_createSql : ∃ words, statements ({} : TableSettings).createSql = [words] ∧
    statement? words = some (.createTable "xmla_cache" true cacheColumns) := by
  exact ⟨["create", "table", "if", "not", "exists", "xmla_cache", "(", "request", "blob", "primary",
    "key", ",", "response", "blob", "not", "null", ")"], by decide +kernel, by decide +kernel⟩

theorem statements_dropSql : ∃ words, statements ({} : TableSettings).dropSql = [words] ∧
    statement? words = some (.dropTable "xmla_cache" true) :=
  ⟨["drop", "table", "if", "exists", "xmla_cache"], by decide +kernel, by decide +kernel⟩

end Sql

namespace Database

variable {db : Database} {entries : List (Bytes × Bytes)} (key value : Bytes)

theorem insertRow_cache (h : db.find? "xmla_cache" = some (cacheTable entries)) :
    db.insertRow ({} : TableSettings).insertSql key value =
      some (db.insert "xmla_cache" (cacheTable (upsert entries key value))) := by
  have hinsert : (cacheTable entries).insert true [("request", key), ("response", value)] =
      some (cacheTable (upsert entries key value)) := cacheTable_insert entries key value
  have hcolumns : ((cacheTable entries).hasColumn "request" &&
      (cacheTable entries).hasColumn "response") = true := rfl
  rw [insertRow, first_insertSql]
  simp only [h, bind, Option.bind, hcolumns, if_true, hinsert]
  rfl

theorem select_cache (h : db.find? "xmla_cache" = some (cacheTable entries)) :
    db.select "response" "xmla_cache" "request" key = some (valueOf entries key) := by
  have hcolumns : ((cacheTable entries).hasColumn "response" &&
      (cacheTable entries).hasColumn "request") = true := rfl
  have hfind : ((cacheTable entries).rows.find? (Table.holds "request" key)) =
      (entries.find? fun entry => entry.1 == key).map cacheRow := by
    show (entries.map cacheRow).find? _ = _
    rw [List.find?_map]
    rfl
  rw [select]
  simp only [h, bind, Option.bind, hcolumns, if_true, hfind, valueOf]
  cases entries.find? fun entry => entry.1 == key <;> rfl

/-- Without the table a database that drops it stays without it, and one that had it loses it. -/
theorem dropped_find? {db after : Database}
    (h : db.define (.dropTable "xmla_cache" true) = some after) :
    after.find? "xmla_cache" = none := by
  simp only [Database.define] at h
  cases hfind : db.find? "xmla_cache" with
  | none =>
    rw [hfind] at h
    cases h
    exact hfind
  | some table =>
    rw [hfind] at h
    cases h
    simp only [Dictionary.find?, Option.map_eq_none_iff, List.find?_eq_none]
    intro entry hmem hsame
    have hkey : "xmla_cache" = entry.1 := Std.compare_eq_iff_eq.mp (eq_of_beq hsame)
    have hne := (List.mem_filter.mp hmem).2
    simp [← hkey] at hne

/-- A table that was not there is made empty. -/
theorem created_find? {db after : Database} (hnone : db.find? "xmla_cache" = none)
    (h : db.define (.createTable "xmla_cache" true cacheColumns) = some after) :
    after.find? "xmla_cache" = some (cacheTable []) ∧ after ≠ db := by
  have hdefined : Table.isDefined { columns := cacheColumns } = true := by decide
  simp only [Database.define, hnone, hdefined, if_true] at h
  cases h
  have hfind : (Dictionary.insert db "xmla_cache" { columns := cacheColumns }).find? "xmla_cache" =
      some (cacheTable []) := Dictionary.find?_insert_self ..
  refine ⟨hfind, fun hsame => ?_⟩
  rw [hsame, hnone] at hfind
  cases hfind

end Database

/-! ### Connections -/

namespace Sql.Connection

variable {c c' : Connection} {files files' : Files}

/-- What is written is there. -/
theorem write_spec (c : Connection) (files : Files) (db : Database) :
    (c.write files db).2.content? (c.write files db).1 = some db ∧
      (c.write files db).2.mayChange = c.mayChange := by
  obtain ⟨place, mayChange⟩ := c
  cases place with
  | own content => exact ⟨rfl, rfl⟩
  | file place =>
    have hthere : Files.find? (files.insert place (fileOf db)) place = some (fileOf db) :=
      Dictionary.find?_insert_self ..
    refine ⟨?_, rfl⟩
    show (Files.find? (files.insert place (fileOf db)) place).bind contentOf = some db
    rw [hthere, Option.bind_some, contentOf_fileOf]

/-- A statement that was executed changed the database as it says, which may be changed then. -/
theorem executeBatch_done {text : String} {words : List String} {statement : Statement}
    (hwords : statements text = [words]) (hstatement : statement? words = some statement)
    (h : c.executeBatch files text = (files', c', some ())) : ∃ db after,
      c.content? files = some db ∧ db.define statement = some after ∧
      c'.content? files' = some after ∧ c'.mayChange = c.mayChange ∧
      (after ≠ db → c.mayChange = true) := by
  rw [executeBatch, hwords] at h
  cases hcontent : c.content? files with
  | none =>
    rw [hcontent] at h
    cases h
  | some db =>
    rw [hcontent] at h
    cases hdefine : db.define statement with
    | none => simp [Database.perform, hstatement, hdefine] at h
    | some after =>
      by_cases hsame : after = db
      · simp only [Database.perform, hstatement, Option.bind_some, hdefine, if_pos hsame] at h
        cases h
        exact ⟨db, after, rfl, hdefine, hsame ▸ hcontent, rfl, fun hne => absurd hsame hne⟩
      · cases hmay : c.mayChange with
        | false => simp [Database.perform, hstatement, hdefine, hsame, hmay] at h
        | true =>
          simp only [Database.perform, hstatement, Option.bind_some, hdefine, if_neg hsame, hmay,
            if_true] at h
          obtain ⟨hwritten, hkept⟩ := c.write_spec files after
          cases h
          exact ⟨db, after, rfl, hdefine, hwritten, hkept.trans hmay, fun _ => rfl⟩

/-- The database has no table of responses. -/
def Lacks (c : Connection) (files : Files) : Prop :=
  ∀ db, c.content? files = some db → db.find? "xmla_cache" = none

/-- The database has a table with these responses, and may be changed. -/
structure Shows (c : Connection) (files : Files) (rows : Bytes → Option Bytes) : Prop where
  content : ∃ db entries, c.content? files = some db ∧
    db.find? "xmla_cache" = some (cacheTable entries) ∧ ∀ key, valueOf entries key = rows key
  mayChange : c.mayChange = true

theorem servesDefaults : SqlLibrary.ServesDefaults Connection Lacks Shows where
  openInMemory := by
    intro files now files' c h db hdb
    cases h
    cases hdb
    rfl
  drop := by
    intro c files now files' c' h db hdb
    obtain ⟨words, hwords, hstatement⟩ := statements_dropSql
    obtain ⟨before, after, -, hdefine, hafter, -, -⟩ := executeBatch_done hwords hstatement h
    cases hafter.symm.trans hdb
    exact Database.dropped_find? hdefine
  create := by
    intro c files now files' c' hlacks h
    obtain ⟨words, hwords, hstatement⟩ := statements_createSql
    obtain ⟨db, after, hdb, hdefine, hafter, hsame, hmay⟩ :=
      executeBatch_done hwords hstatement h
    obtain ⟨hfind, hne⟩ := Database.created_find? (hlacks db hdb) hdefine
    exact ⟨⟨after, [], hafter, hfind, fun _ => rfl⟩, hsame.trans (hmay hne)⟩
  insert := by
    intro c files now rows key response hshows
    obtain ⟨⟨db, entries, hdb, hfind, hrows⟩, hmay⟩ := hshows
    have hinsert := Database.insertRow_cache key response hfind
    obtain ⟨hwritten, hkept⟩ := c.write_spec files
      (db.insert "xmla_cache" (cacheTable (upsert entries key response)))
    refine ⟨_, _, ?_, ⟨_, _, hwritten, Dictionary.find?_insert_self .., fun other => ?_⟩,
      hkept.trans hmay⟩
    · show c.execute files _ key response = _
      simp only [execute, hdb, Option.bind_some, hinsert, hmay, if_true]
    · by_cases hother : other = key
      · rw [hother, valueOf_upsert_self, Function.update_self]
      · rw [valueOf_upsert_of_ne _ _ hother, Function.update_of_ne hother, hrows]
  select := by
    intro c files now rows key hshows
    obtain ⟨⟨db, entries, hdb, hfind, hrows⟩, hmay⟩ := hshows
    refine ⟨files, c, ?_, ⟨db, entries, hdb, hfind, hrows⟩, hmay⟩
    show c.queryRow files ({} : TableSettings).selectSql key = _
    rw [queryRow, hdb, first_selectSql]
    show (files, c, db.select "response" "xmla_cache" "request" key) = _
    rw [Database.select_cache key hfind, hrows]

/-- A statement that selects only looks up. -/
theorem isQuery_of_select {sql column table keyColumn : String}
    (h : first? sql = some (.select column table keyColumn)) :
    SqlLibrary.IsQuery Connection sql := by
  have hsame : ∀ (c : Connection) files key, (c.queryRow files sql key).1 = files ∧
      (c.queryRow files sql key).2.1 = c := by
    intro c files key
    rw [queryRow, h]
    cases c.content? files <;> exact ⟨rfl, rfl⟩
  refine ⟨fun c files now now' key => rfl, fun c files now key now' key' => ?_⟩
  show ((c.queryRow files sql key).2.1.queryRow (c.queryRow files sql key).1 sql key').2.2 =
    (c.queryRow files sql key').2.2
  rw [(hsame c files key).1, (hsame c files key).2]

end Sql.Connection

end OlapClient
