import OlapClient.Proofs.Traversal
import OlapClient.Rowset

/-!
# Fields and columns of a rowset

Where a result does not say what its rows consist of, the columns are the names of the fields, in
the order in which they first appear, and every row fits. Where it does, the rows fit if each of
their fields is declared. In both cases every row becomes a row of the rowset with an entry for each
column (`IsRow`): fields are filled in one by one, each into the first column of its name, so that
the last field of a name stands.
-/

namespace OlapClient

open Markup

namespace Rowset

/-! ### Columns -/

/-- The names without repetition, in the order in which they first appear. -/
structure FirstAppearances (names fields : List String) : Prop where
  mem_iff : ∀ name, name ∈ names ↔ name ∈ fields
  order : names.Pairwise fun name name' => fields.idxOf name < fields.idxOf name'

theorem FirstAppearances.concat_old {names fields : List String} (h : FirstAppearances names fields)
    (field : String) (hfield : field ∈ names) : FirstAppearances names (fields ++ [field]) := by
  refine ⟨fun name => ?_, ?_⟩
  · rw [h.mem_iff, List.mem_append, List.mem_singleton]
    constructor
    · exact .inl
    · rintro (hname | rfl)
      · exact hname
      · exact (h.mem_iff name).mp hfield
  · refine h.order.imp_of_mem fun {name name'} hname hname' hlt => ?_
    rw [List.idxOf_append_of_mem ((h.mem_iff name).mp hname),
      List.idxOf_append_of_mem ((h.mem_iff name').mp hname')]
    exact hlt

theorem FirstAppearances.concat_new {names fields : List String} (h : FirstAppearances names fields)
    (field : String) (hfield : field ∉ names) :
    FirstAppearances (names ++ [field]) (fields ++ [field]) := by
  have hold : ∀ name ∈ names, (fields ++ [field]).idxOf name = fields.idxOf name :=
    fun name hname => List.idxOf_append_of_mem ((h.mem_iff name).mp hname)
  have hnew : (fields ++ [field]).idxOf field = fields.length := by
    rw [List.idxOf_append_of_notMem fun hmem => hfield ((h.mem_iff field).mpr hmem)]
    simp
  refine ⟨fun name => ?_, List.pairwise_append.mpr ⟨?_, List.pairwise_singleton _ _, ?_⟩⟩
  · rw [List.mem_append, List.mem_append, h.mem_iff]
  · refine h.order.imp_of_mem fun {name name'} hname hname' hlt => ?_
    rw [hold name hname, hold name' hname']
    exact hlt
  · intro name hname name' hname'
    rw [List.mem_singleton.mp hname', hold name hname, hnew]
    exact List.idxOf_lt_length_iff.mpr ((h.mem_iff name).mp hname)

/-- The fields of all rows of a result. -/
def fields (root : Element) : List Element := (root.childrenNamed "row").flatMap (·.children)

theorem foldl_addField (fields : List Element) : ∃ names,
    FirstAppearances names (fields.map (·.name)) ∧
      fields.foldl addField [] = names.map plainColumn := by
  induction fields using List.reverseRecOn with
  | nil => exact ⟨[], ⟨fun name => Iff.rfl, .nil⟩, rfl⟩
  | append_singleton fields field ih =>
    obtain ⟨names, hfirst, hcolumns⟩ := ih
    have hany : ((names.map plainColumn).any fun c => c.name == field.name) = true ↔
        field.name ∈ names := by
      simp [plainColumn]
    rw [List.foldl_append, hcolumns, List.map_append]
    by_cases hfield : field.name ∈ names
    · refine ⟨names, hfirst.concat_old _ hfield, ?_⟩
      exact if_pos (hany.mpr hfield)
    · refine ⟨names ++ [field.name], hfirst.concat_new _ hfield, ?_⟩
      rw [List.map_append]
      exact if_neg (mt hany.mp hfield)

/-- The row type of a result has a declaration for fields of this name. -/
def DeclaresField (rowType : Element) (name : String) : Prop :=
  ∃ sequence, rowType.descendant? "sequence" = some sequence ∧
    ∃ e ∈ sequence.childrenNamed "element", e.attribute? "name" = some name

theorem exists_declaredColumn_iff (rowType : Element) (name : String) :
    (∃ c ∈ declaredColumns rowType, c.name = name) ↔ DeclaresField rowType name := by
  have hcolumn : ∀ e : Element, (∃ c, declaredColumn? e = some c ∧ c.name = name) ↔
      e.attribute? "name" = some name := by
    intro e
    cases ha : e.attribute? "name" <;> simp [declaredColumn?, ha]
  unfold DeclaresField declaredColumns
  cases rowType.descendant? "sequence" with
  | none => simp
  | some sequence =>
    simp only [List.mem_filterMap, Option.some.injEq, exists_eq_left', ← hcolumn]
    exact ⟨fun ⟨c, ⟨e, he, hc⟩, hn⟩ => ⟨e, he, c, hc, hn⟩,
      fun ⟨e, he, c, hc, hn⟩ => ⟨c, ⟨e, he, hc⟩, hn⟩⟩

/-! ### Rows -/

/-- The element is a field of this name. -/
def IsNamed (name : String) (field : Element) : Prop := field.name = name

/-- The entries that a row with these fields has: in the first column of a name the text of the last
field of that name, and nothing in the later ones. -/
structure IsRow (columns : List Column) (fields : List Element) (entries : List (Option String)) :
    Prop where
  length : entries.length = columns.length
  first : ∀ n column, columns[n]? = some column → (∀ c ∈ columns.take n, c.name ≠ column.name) →
    ∃ last, LastOf (IsNamed column.name) fields last ∧ entries[n]? = some (last.map (·.text))
  repeated : ∀ n column, columns[n]? = some column → (∃ c ∈ columns.take n, c.name = column.name) →
    entries[n]? = some none

/-- The first column of a name. -/
def IsFirst (columns : List Column) (name : String) (n : Nat) : Prop :=
  (∃ column, columns[n]? = some column ∧ column.name = name) ∧
    ∀ c ∈ columns.take n, c.name ≠ name

theorem findIdx?_eq_some_iff (columns : List Column) (name : String) (n : Nat) :
    (columns.findIdx? fun c => c.name == name) = some n ↔ IsFirst columns name n := by
  rw [List.findIdx?_eq_some_iff_getElem]
  simp only [beq_iff_eq, IsFirst, List.mem_take_iff_getElem]
  constructor
  · rintro ⟨hn, hname, hbefore⟩
    refine ⟨⟨columns[n], List.getElem?_eq_getElem hn, hname⟩, ?_⟩
    rintro c ⟨j, hj, rfl⟩
    exact hbefore j (by omega)
  · rintro ⟨⟨column, hcolumn, hname⟩, hbefore⟩
    obtain ⟨hn, rfl⟩ := List.getElem?_eq_some_iff.mp hcolumn
    refine ⟨hn, hname, fun j hj => ?_⟩
    exact hbefore columns[j] ⟨j, by omega, rfl⟩

theorem IsFirst.unique {columns : List Column} {name : String} {n n' : Nat}
    (h : IsFirst columns name n) (h' : IsFirst columns name n') : n = n' := by
  rw [← findIdx?_eq_some_iff] at h h'
  rw [h] at h'
  exact Option.some.inj h'

theorem isRow_blank (columns : List Column) :
    IsRow columns [] (List.replicate columns.length none) := by
  have hentry : ∀ (n : Nat) column, columns[n]? = some column →
      (List.replicate columns.length (none : Option String))[n]? = some none := by
    intro n column hcolumn
    obtain ⟨hn, -⟩ := List.getElem?_eq_some_iff.mp hcolumn
    rw [List.getElem?_replicate, if_pos hn]
  refine ⟨List.length_replicate, fun n column hcolumn _ => ?_, fun n column hcolumn _ => ?_⟩
  · exact ⟨none, lastOf_nil_iff.mpr rfl, hentry n column hcolumn⟩
  · exact hentry n column hcolumn

theorem setField_eq_ok_iff {columns : List Column} {row row' : List (Option String)}
    {field : Element} : setField columns row field = .ok row' ↔
      ∃ n, IsFirst columns field.name n ∧ row' = row.set n (some field.text) := by
  simp only [setField, ← findIdx?_eq_some_iff]
  cases columns.findIdx? fun c => c.name == field.name <;> simp [eq_comm]

/-- One more field of a row takes the place of an earlier one of its name. -/
theorem IsRow.set {columns : List Column} {fields : List Element} {entries : List (Option String)}
    (h : IsRow columns fields entries) (field : Element) (n : Nat)
    (hn : IsFirst columns field.name n) :
    IsRow columns (fields ++ [field]) (entries.set n (some field.text)) := by
  refine ⟨by rw [List.length_set, h.length], ?_, ?_⟩
  · intro k column hcolumn hbefore
    obtain ⟨last, hlast, hentry⟩ := h.first k column hcolumn hbefore
    by_cases hname : IsNamed column.name field
    · have hk : IsFirst columns field.name k := by
        have hfield : field.name = column.name := hname
        rw [hfield]
        exact ⟨⟨column, hcolumn, rfl⟩, hbefore⟩
      obtain rfl := hn.unique hk
      refine ⟨some field, (lastOf_concat_of_pos hname).mpr rfl, ?_⟩
      obtain ⟨hk, -⟩ := List.getElem?_eq_some_iff.mp hentry
      rw [List.getElem?_set_self hk]
      rfl
    · have hne : n ≠ k := by
        rintro rfl
        obtain ⟨⟨c, hc, hcname⟩, -⟩ := hn
        rw [hcolumn] at hc
        obtain rfl := Option.some.inj hc
        exact hname hcname.symm
      refine ⟨last, (lastOf_concat_of_neg hname).mpr hlast, ?_⟩
      rw [List.getElem?_set_ne hne, hentry]
  · rintro k column hcolumn ⟨c, hc, hcname⟩
    have hne : n ≠ k := by
      rintro rfl
      obtain ⟨⟨c', hc', hname⟩, hbefore⟩ := hn
      rw [hcolumn] at hc'
      obtain rfl := Option.some.inj hc'
      exact hbefore c hc (hcname.trans hname)
    rw [List.getElem?_set_ne hne]
    exact h.repeated k column hcolumn ⟨c, hc, hcname⟩

theorem isRow_of_rowOf {columns : List Column} {row : Element} {entries : List (Option String)}
    (h : rowOf columns row = .ok entries) : IsRow columns row.children entries := by
  refine foldlM_keeps (IsRow columns) (isRow_blank columns) ?_ row.children entries h
  intro fields field before after hbefore hset
  obtain ⟨n, hn, rfl⟩ := setField_eq_ok_iff.mp hset
  exact hbefore.set field n hn

/-! ### Rows that fit -/

theorem setField_isOk_iff (columns : List Column) (row : List (Option String)) (field : Element) :
    (∃ row', setField columns row field = .ok row') ↔ ∃ c ∈ columns, c.name = field.name := by
  unfold setField
  cases hn : columns.findIdx? fun c => c.name == field.name with
  | some n =>
    obtain ⟨⟨c, hc, hname⟩, -⟩ := (findIdx?_eq_some_iff columns field.name n).mp hn
    exact ⟨fun _ => ⟨c, List.mem_of_getElem? hc, hname⟩, fun _ => ⟨_, rfl⟩⟩
  | none =>
    have hnone := List.findIdx?_eq_none_iff.mp hn
    simp only [beq_eq_false_iff_ne] at hnone
    simp only [reduceCtorEq, exists_false, false_iff, not_exists, not_and]
    exact hnone

theorem setField_eq_error {columns : List Column} {row : List (Option String)} {field : Element}
    {e : ClientError} (h : setField columns row field = .error e) :
    e = .response (.undeclaredField field.name) ∧ ¬ ∃ c ∈ columns, c.name = field.name := by
  have hnot : ¬ ∃ c ∈ columns, c.name = field.name := by
    rw [← setField_isOk_iff columns row field, h]
    rintro ⟨row', ⟨⟩⟩
  unfold setField at h
  split at h
  · cases h
  · exact ⟨(Except.error.inj h).symm, hnot⟩

theorem ofRoot_eq_ok_iff (root : Element) (r : Rowset) :
    ofRoot root = .ok r ↔
      ∃ rows, (root.childrenNamed "row").mapM (rowOf (columnsOf root)) = .ok rows ∧
        r = { columns := columnsOf root, rows := rows } := by
  rw [ofRoot, bind_eq_ok]
  exact exists_congr fun rows => and_congr_right fun _ =>
    ⟨fun h => (Except.ok.inj h).symm, fun h => h ▸ rfl⟩

/-- All rows fit exactly if each of their fields has a column. -/
theorem ofRoot_isOk_iff (root : Element) : (∃ r, ofRoot root = .ok r) ↔
    ∀ field ∈ fields root, ∃ c ∈ columnsOf root, c.name = field.name := by
  have hrow : ∀ row, (∃ entries, rowOf (columnsOf root) row = .ok entries) ↔
      ∀ field ∈ row.children, ∃ c ∈ columnsOf root, c.name = field.name := fun row =>
    foldlM_isOk_iff (setField_isOk_iff (columnsOf root)) _ row.children
  have hrows : (∃ r, ofRoot root = .ok r) ↔
      ∃ rows, (root.childrenNamed "row").mapM (rowOf (columnsOf root)) = .ok rows := by
    simp only [ofRoot_eq_ok_iff]
    exact ⟨fun ⟨_, rows, h, _⟩ => ⟨rows, h⟩, fun ⟨rows, h⟩ => ⟨_, rows, h, rfl⟩⟩
  simp only [hrows, mapM_isOk_iff, hrow, fields, List.mem_flatMap, forall_exists_index, and_imp]
  exact ⟨fun h field row hr hf => h row hr field hf, fun h row hr field hf => h field row hr hf⟩

theorem ofRoot_eq_error {root : Element} {e : ClientError} (h : ofRoot root = .error e) :
    ∃ field ∈ fields root, e = .response (.undeclaredField field.name) ∧
      ¬ ∃ c ∈ columnsOf root, c.name = field.name := by
  rcases bind_eq_error.mp h with h | ⟨rows, -, h⟩
  · obtain ⟨row, hrow, h⟩ := mapM_eq_error h
    obtain ⟨field, hfield, entries, h⟩ := foldlM_eq_error h
    exact ⟨field, List.mem_flatMap.mpr ⟨row, hrow, hfield⟩, setField_eq_error h⟩
  · cases h

/-- Without a row type every result is a rowset, with the names of the fields as its columns. With
one it is a rowset exactly if every field is declared, and refused for a field that is not
otherwise. The rows of a rowset are those of the result, with an entry for each column. -/
theorem fields_in_place (root : Element) :
    (rowType? root = none → ∃ r, ofRoot root = .ok r ∧
      ∃ names, FirstAppearances names ((fields root).map (·.name)) ∧
        r.columns = names.map plainColumn) ∧
    (∀ rowType, rowType? root = some rowType →
      ((∃ r, ofRoot root = .ok r) ↔ ∀ field ∈ fields root, DeclaresField rowType field.name) ∧
      ((¬ ∃ r, ofRoot root = .ok r) → ∃ field ∈ fields root, ¬ DeclaresField rowType field.name ∧
        ofRoot root = .error (.response (.undeclaredField field.name))) ∧
      ∀ r, ofRoot root = .ok r → r.columns = declaredColumns rowType) ∧
    ∀ r, ofRoot root = .ok r →
      List.Forall₂ (fun row => IsRow r.columns row.children) (root.childrenNamed "row") r.rows := by
  refine ⟨?_, ?_, ?_⟩
  · intro hnone
    obtain ⟨names, hfirst, hfold⟩ := foldl_addField (fields root)
    have hcolumns : columnsOf root = names.map plainColumn := by
      rw [columnsOf, hnone]
      exact hfold
    have hok : ∃ r, ofRoot root = .ok r := by
      rw [ofRoot_isOk_iff, hcolumns]
      intro field hfield
      have hname := (hfirst.mem_iff field.name).mpr (List.mem_map_of_mem hfield)
      exact ⟨plainColumn field.name, List.mem_map_of_mem hname, rfl⟩
    obtain ⟨r, hr⟩ := hok
    obtain ⟨rows, -, rfl⟩ := (ofRoot_eq_ok_iff root r).mp hr
    exact ⟨_, hr, names, hfirst, hcolumns⟩
  · intro rowType hsome
    have hcolumns : columnsOf root = declaredColumns rowType := by
      rw [columnsOf, hsome]
    refine ⟨?_, ?_, ?_⟩
    · simp only [ofRoot_isOk_iff, hcolumns, exists_declaredColumn_iff]
    · intro hfails
      cases he : ofRoot root with
      | ok r => exact absurd ⟨r, he⟩ hfails
      | error e =>
        obtain ⟨field, hfield, rfl, hnot⟩ := ofRoot_eq_error he
        rw [hcolumns, exists_declaredColumn_iff] at hnot
        exact ⟨field, hfield, hnot, rfl⟩
    · intro r hr
      obtain ⟨rows, -, rfl⟩ := (ofRoot_eq_ok_iff root r).mp hr
      exact hcolumns
  · intro r hr
    obtain ⟨rows, hrows, rfl⟩ := (ofRoot_eq_ok_iff root r).mp hr
    exact (mapM_eq_ok.mp hrows).imp fun row entries => isRow_of_rowOf

/-- A row type that declares a column twice. -/
def twiceDeclared : Element where
  name := "complexType"
  attributes := [("name", "row")]
  children := [{ name := "sequence"
                 children := ["A", "A"].map fun name =>
                  { name := "element", attributes := [("name", name)] } }]

/-- A result of this type with one row, which has the field twice. -/
def twiceFilled : Element where
  name := "root"
  children := [{ name := "schema", children := [twiceDeclared] },
    { name := "row", children := [{ name := "A", text := "1" }, { name := "A", text := "2" }] }]

theorem twiceFilled_in_place : ∃ r entries, ofRoot twiceFilled = .ok r ∧ r.rows = [entries] ∧
    entries[0]? = some (some "2") ∧ entries[1]? = some none := by
  obtain ⟨-, hschema, hrows⟩ := fields_in_place twiceFilled
  obtain ⟨hfits, -, hcolumns⟩ := hschema twiceDeclared rfl
  have hdeclares : DeclaresField twiceDeclared "A" :=
    ⟨_, rfl, { name := "element", attributes := [("name", "A")] }, List.mem_cons_self, rfl⟩
  have hfields : ∀ field ∈ fields twiceFilled, field.name = "A" := by decide
  obtain ⟨r, hr⟩ := hfits.mpr fun field hfield => hfields field hfield ▸ hdeclares
  obtain ⟨entries, rows, hrow, hrest, heq⟩ := List.forall₂_cons_left_iff.mp (hrows r hr)
  cases List.forall₂_nil_left_iff.mp hrest
  rw [hcolumns r hr] at hrow
  refine ⟨r, entries, hr, heq, ?_, ?_⟩
  · obtain ⟨last, hlast, hentry⟩ := hrow.first 0 _ rfl (fun c hc => by cases hc)
    obtain rfl := LastOf.eq_of_concat (l := [_]) hlast rfl
    exact hentry
  · exact hrow.repeated 1 _ rfl ⟨_, List.mem_cons_self, rfl⟩

end Rowset

end OlapClient
