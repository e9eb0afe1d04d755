import OlapClient.Files
import OlapClient.Proofs.Dictionary

/-!
# Files that stand

A path that leads to a file goes on leading there while other files are made and written: only
directories are passed on the way, and none of them is ever replaced. What is read is what was
written, where the system lets it be read and written.
-/

namespace OlapClient.Files

variable {files files' : Files} {path other : String} {place : Place}
  {content : Bytes}

/-! ### Entries -/

theorem entry?_insert_of_ne (place at' : Place) (entry : FileEntry) (h : at' ≠ place) :
    entry? (files.insert place entry) at' = files.entry? at' := by
  unfold entry?
  split
  · rfl
  · exact Dictionary.find?_insert_of_ne files.entries place at' entry h

theorem entry?_insert_self (place : Place) (entry : FileEntry)
    (h : files.entry? place ≠ some .directory) :
    entry? (files.insert place entry) place = some entry := by
  unfold entry? at h ⊢
  split at h
  · exact absurd rfl h
  · rename_i hplace
    rw [if_neg hplace]
    exact Dictionary.find?_insert_self ..

theorem find?_of_entry (entry : FileEntry) (h : files.entry? place = some entry)
    (hd : entry ≠ .directory) : files.find? place = some entry := by
  unfold entry? at h
  split at h
  · exact absurd (Option.some.inj h).symm hd
  · exact h

/-! ### Paths -/

theorem follow_insert (start place place' : Place) (names : List Bytes) (entry : FileEntry)
    (h : files.follow start names = .ok place) (hplace' : files.entry? place' ≠ some .directory) :
    follow (files.insert place' entry) start names = .ok place := by
  induction names generalizing start with
  | nil => exact h
  | cons name names ih =>
    rw [follow] at h ⊢
    cases hentry : files.entry? start with
    | none =>
      rw [hentry] at h
      cases h
    | some passed =>
      rw [hentry] at h
      cases passed with
      | file => cases h
      | directory =>
        have hne : start ≠ place' := by
          rintro rfl
          exact hplace' hentry
        rw [entry?_insert_of_ne place' start entry hne, hentry]
        simp only at h ⊢
        split at h
        · cases h
        · rename_i hlength
          rw [if_neg hlength]
          exact ih _ h

theorem locate_insert (place' : Place) (bytes : Bytes) (names : List Bytes) (entry : FileEntry)
    (h : files.locate bytes names = .ok place) (hplace' : files.entry? place' ≠ some .directory) :
    locate (files.insert place' entry) bytes names = .ok place := by
  rw [locate] at h ⊢
  split at h
  · cases h
  · rename_i hzero
    split at h
    · cases h
    · rename_i hempty
      split at h
      · cases h
      · rename_i hlength
        rw [if_neg hzero, if_neg hempty, if_neg hlength]
        exact follow_insert _ _ _ _ _ h hplace'

/-- The path leads to this place. -/
def Leads (files : Files) (path : String) (place : Place) : Prop :=
  files.locate (Utf8.encode path) (Place.names (Utf8.encode path)) = .ok place

/-- The path leads to this place, and not only if there is a directory. -/
def Names (files : Files) (path : String) (place : Place) : Prop :=
  files.Leads path place ∧ Place.endsInSlash (Utf8.encode path) = false

/-- Both paths name the same file, if there is one. -/
def SameFile (files : Files) (path other : String) : Prop :=
  ∃ place, files.Names path place ∧ files.Names other place

/-- The path names the file at this place, and the file has this content. -/
structure Stands (files : Files) (path : String) (place : Place) (content : Bytes) : Prop where
  leads : files.Leads path place
  ends : Place.endsInSlash (Utf8.encode path) = false
  entry : files.entry? place = some (.file content)

theorem Leads.insert (h : files.Leads path place) (place' : Place) (entry : FileEntry)
    (hplace' : files.entry? place' ≠ some .directory) :
    Leads (files.insert place' entry) path place :=
  locate_insert place' _ _ entry h hplace'

@[simp] theorem guard_insert (place place' : Place) (entry : FileEntry) :
    guard (files.insert place' entry) place = files.guard place := rfl

theorem named_eq_ok_iff (entry : FileEntry) :
    files.named path = .ok (place, entry) ↔ files.Leads path place ∧
      files.entry? place = some entry ∧
      (entry = .directory ∨ Place.endsInSlash (Utf8.encode path) = false) := by
  unfold named
  constructor
  · intro h
    obtain ⟨found, hleads, h⟩ := bind_eq_ok.mp h
    cases hentry : files.entry? found with
    | none =>
      rw [hentry] at h
      cases h
    | some passed =>
      rw [hentry] at h
      cases passed with
      | directory =>
        cases h
        exact ⟨hleads, hentry, .inl rfl⟩
      | file content =>
        simp only at h
        split at h
        · cases h
        · rename_i hends
          cases h
          exact ⟨hleads, hentry, .inr (Bool.eq_false_iff.mpr hends)⟩
  · rintro ⟨hleads, hentry, hends⟩
    refine bind_eq_ok.mpr ⟨place, hleads, ?_⟩
    rw [hentry]
    cases entry with
    | directory => rfl
    | file content =>
      obtain hdirectory | hends := hends
      · cases hdirectory
      · simp only [hends]
        rfl

theorem read_of_named {entry : FileEntry} : files.named path = .ok (place, entry) →
    files.read path = match (files.guard place).reading, entry with
      | some why, _ => .error (.denied why)
      | none, .file content => .ok content
      | none, .directory => .error .isDirectory := by
  intro h
  rw [Files.read, h]
  rfl

namespace Stands

theorem not_directory (h : files.Stands path place content) :
    files.entry? place ≠ some .directory := by
  rw [h.entry]
  intro hd
  cases hd

theorem insert_of_ne (h : files.Stands path place content) (place' : Place) (entry : FileEntry)
    (hplace' : files.entry? place' ≠ some .directory) (hne : place ≠ place') :
    Stands (files.insert place' entry) path place content where
  leads := h.leads.insert place' entry hplace'
  ends := h.ends
  entry := by rw [entry?_insert_of_ne place' place entry hne, h.entry]

theorem insert_self (h : files.Stands path place content) (bytes : Bytes) :
    Stands (files.insert place (.file bytes)) path place bytes where
  leads := h.leads.insert place _ h.not_directory
  ends := h.ends
  entry := entry?_insert_self place _ h.not_directory

theorem named (h : files.Stands path place content) :
    files.named path = .ok (place, .file content) :=
  (named_eq_ok_iff _).mpr ⟨h.leads, h.entry, .inr h.ends⟩

theorem read (h : files.Stands path place content) (hreading : (files.guard place).reading = none) :
    files.read path = .ok content := by
  rw [read_of_named h.named, hreading]

theorem read_denied (h : files.Stands path place content) {why : Denial}
    (hreading : (files.guard place).reading = some why) :
    files.read path = .error (.denied why) := by
  rw [read_of_named h.named, hreading]

/-- Where something was read, it was the content. -/
theorem of_read (h : files.Stands path place content) {bytes : Bytes}
    (hread : files.read path = .ok bytes) :
    (files.guard place).reading = none ∧ bytes = content := by
  cases hreading : (files.guard place).reading with
  | some why =>
    rw [h.read_denied hreading] at hread
    cases hread
  | none =>
    rw [h.read hreading] at hread
    exact ⟨rfl, (Except.ok.inj hread).symm⟩

theorem of_sameFile (h : files.Stands path place content) (hsame : files.SameFile path other) :
    files.Stands other place content := by
  obtain ⟨place', hpath, hother⟩ := hsame
  obtain rfl : place = place' := Except.ok.inj (h.leads.symm.trans hpath.1)
  exact ⟨hother.1, hother.2, h.entry⟩

end Stands

/-! ### What a path names -/

theorem get_eq_ok_iff (entry : FileEntry) :
    files.get path = .ok entry ↔ ∃ place, files.Leads path place ∧
      files.entry? place = some entry ∧
      (entry = .directory ∨ Place.endsInSlash (Utf8.encode path) = false) := by
  unfold get
  rw [map_eq_ok]
  constructor
  · rintro ⟨⟨place, found⟩, hnamed, rfl⟩
    exact ⟨place, (named_eq_ok_iff found).mp hnamed⟩
  · rintro ⟨place, hplace⟩
    exact ⟨(place, entry), (named_eq_ok_iff entry).mpr hplace, rfl⟩

/-- What is made or changed at a place is no concern of the paths that lead elsewhere. -/
theorem get_insert_of_not_leads (entry new : FileEntry) (h : files.get path = .ok entry)
    (hplace : files.entry? place ≠ some .directory) (hne : ¬ files.Leads path place) :
    get (files.insert place new) path = .ok entry := by
  obtain ⟨found, hleads, hentry, hends⟩ := (get_eq_ok_iff entry).mp h
  have hother : found ≠ place := fun heq => hne (heq ▸ hleads)
  refine (get_eq_ok_iff entry).mpr ⟨found, hleads.insert place new hplace, ?_, hends⟩
  rw [entry?_insert_of_ne place found new hother, hentry]

theorem get_insert_of_names (new : FileEntry) (h : files.Names path place)
    (hplace : files.entry? place ≠ some .directory) :
    get (files.insert place new) path = .ok new :=
  (get_eq_ok_iff new).mpr ⟨place, h.1.insert place new hplace, entry?_insert_self place new hplace,
    .inr h.2⟩

/-! ### Opening -/

theorem openOutput_eq_ok (truncate : Bool)
    (h : files.openOutput path truncate = .ok (files', place)) :
    Place.endsInSlash (Utf8.encode path) = false ∧ files.Leads path place ∧
      files.entry? place ≠ some .directory ∧ (files.guard place).writing = none ∧
      ((truncate = true ∨ files.entry? place = none) ∧ files' = files.insert place (.file []) ∨
        (∃ content, files.entry? place = some (.file content)) ∧ truncate = false ∧
          files' = files) := by
  rw [openOutput] at h
  by_cases hends : Place.endsInSlash (Utf8.encode path) = true
  · simp only [hends, if_true] at h
    obtain ⟨_, -, hclosed⟩ := bind_eq_ok.mp h
    cases hclosed
  · simp only [hends] at h
    obtain ⟨found, hleads, hopen⟩ := bind_eq_ok.mp h
    have hends' := Bool.eq_false_iff.mpr hends
    cases hentry : files.entry? found with
    | none =>
      cases hwriting : (files.guard found).writing with
      | some why =>
        rw [hentry, hwriting] at hopen
        cases hopen
      | none =>
        rw [hentry, hwriting] at hopen
        cases hopen
        exact ⟨hends', hleads, by rw [hentry]; simp, hwriting, .inl ⟨.inr hentry, rfl⟩⟩
    | some entry =>
      cases entry with
      | directory =>
        rw [hentry] at hopen
        cases hopen
      | file content =>
        cases hwriting : (files.guard found).writing with
        | some why =>
          rw [hentry, hwriting] at hopen
          cases hopen
        | none =>
          rw [hentry, hwriting] at hopen
          obtain ⟨rfl, rfl⟩ := Prod.mk.inj (Except.ok.inj hopen)
          refine ⟨hends', hleads, by rw [hentry]; simp, hwriting, ?_⟩
          cases truncate with
          | true => exact .inl ⟨.inl rfl, rfl⟩
          | false => exact .inr ⟨⟨content, hentry⟩, rfl, rfl⟩

/-- Opening a file for writing refuses nothing that was not refused before. -/
theorem guard_openOutput (truncate : Bool)
    (h : files.openOutput path truncate = .ok (files', place)) (place' : Place) :
    files'.guard place' = files.guard place' := by
  obtain ⟨-, -, -, -, ⟨-, rfl⟩ | ⟨-, -, rfl⟩⟩ := openOutput_eq_ok truncate h
  · exact guard_insert place' place (.file [])
  · rfl

/-- Nothing stands at the path, or an empty file, or what stands there is emptied. -/
def Fresh (files : Files) (path : String) (truncate : Bool) : Prop :=
  truncate = true ∨ files.read path = .error .notFound ∨ files.read path = .ok []

/-- A fresh output is an empty file. -/
theorem stands_of_openOutput (truncate : Bool) (hfresh : files.Fresh path truncate)
    (h : files.openOutput path truncate = .ok (files', place)) : files'.Stands path place [] := by
  obtain ⟨hends, hleads, hdirectory, -, ⟨-, rfl⟩ | ⟨⟨content, hentry⟩, rfl, rfl⟩⟩ :=
    openOutput_eq_ok truncate h
  · exact ⟨hleads.insert place _ hdirectory, hends, entry?_insert_self place _ hdirectory⟩
  · -- what is there was not emptied, so it was an empty file before
    have hstands : files'.Stands path place content := ⟨hleads, hends, hentry⟩
    obtain hno | hmissing | hempty := hfresh
    · cases hno
    · cases hreading : (files'.guard place).reading with
      | some why =>
        rw [hstands.read_denied hreading] at hmissing
        cases hmissing
      | none =>
        rw [hstands.read hreading] at hmissing
        cases hmissing
    · obtain ⟨-, rfl⟩ := hstands.of_read hempty
      exact hstands

theorem Stands.openOutput (h : files.Stands path place content) (truncate : Bool)
    {place' : Place} (hopen : files.openOutput other truncate = .ok (files', place'))
    (hkept : truncate = true → place ≠ place') : files'.Stands path place content := by
  obtain ⟨-, -, hdirectory, -, ⟨hnew, rfl⟩ | ⟨-, -, rfl⟩⟩ := openOutput_eq_ok truncate hopen
  · refine h.insert_of_ne place' _ hdirectory ?_
    rcases hnew with htruncate | hnone
    · exact hkept htruncate
    · rintro rfl
      rw [h.entry] at hnone
      cases hnone
  · exact h

/-- A file that stands is opened as it is, to be written at its end. -/
theorem Stands.openOutput_self (h : files.Stands path place content)
    (hwriting : (files.guard place).writing = none) :
    files.openOutput path false = .ok (files, place) := by
  have hleads := h.leads
  unfold Leads at hleads
  unfold Files.openOutput
  simp only [h.ends, hleads, bind, Except.bind, h.entry, hwriting]
  rfl

/-- Opening a file for writing leaves everything as it is but that file, and that file too unless it
is to be emptied. -/
theorem get_openOutput_of_kept (truncate : Bool) (entry : FileEntry)
    (hget : files.get path = .ok entry)
    (hopen : files.openOutput other truncate = .ok (files', place))
    (hkept : entry = .directory ∨ truncate = false ∨ ¬ files.SameFile path other) :
    files'.get path = .ok entry := by
  obtain ⟨hends, hleads, hdirectory, -, ⟨hnew, rfl⟩ | ⟨-, -, rfl⟩⟩ :=
    openOutput_eq_ok truncate hopen
  · refine get_insert_of_not_leads entry _ hget hdirectory fun hpath => ?_
    obtain ⟨found, hfound, hentry, hends'⟩ := (get_eq_ok_iff entry).mp hget
    obtain rfl : found = place := Except.ok.inj (hfound.symm.trans hpath)
    have hfile : entry ≠ .directory := fun hd => hdirectory (hd ▸ hentry)
    have hsame : files.SameFile path other :=
      ⟨found, ⟨hfound, hends'.resolve_left hfile⟩, hleads, hends⟩
    obtain hd | htruncate | hother := hkept
    · exact hfile hd
    · rcases hnew with hnew | hnone
      · rw [htruncate] at hnew
        cases hnew
      · rw [hnone] at hentry
        cases hentry
    · exact hother hsame
  · exact hget

theorem get_openOutput_of_sameFile (hsame : files.SameFile path other)
    (hopen : files.openOutput other true = .ok (files', place)) :
    files'.get path = .ok (.file []) := by
  obtain ⟨found, hpath, hother⟩ := hsame
  obtain ⟨-, hleads, hdirectory, -, ⟨-, rfl⟩ | ⟨-, hno, -⟩⟩ := openOutput_eq_ok true hopen
  · obtain rfl : found = place := Except.ok.inj (hother.1.symm.trans hleads)
    exact get_insert_of_names (.file []) hpath hdirectory
  · cases hno

theorem writable_of_opened {truncate : Bool}
    (h : files.openOutput path truncate = .ok (files', place)) :
    (files'.guard place).writing = none := by
  obtain ⟨-, -, -, hwriting, -⟩ := openOutput_eq_ok truncate h
  rw [guard_openOutput truncate h, hwriting]

/-- What was opened for writing stands. -/
theorem stands_of_opened (h : files.openOutput path false = .ok (files', place)) :
    ∃ content, files'.Stands path place content := by
  obtain ⟨hends, hleads, hdirectory, -, ⟨-, rfl⟩ | ⟨⟨content, hentry⟩, -, rfl⟩⟩ :=
    openOutput_eq_ok false h
  · exact ⟨[], hleads.insert place _ hdirectory, hends, entry?_insert_self place _ hdirectory⟩
  · exact ⟨content, hleads, hends, hentry⟩

/-! ### Writing -/

theorem write_nil (files : Files) (place : Place) (position : Option Nat) :
    files.write place position [] = files := rfl

theorem writeOver_empty (bytes : Bytes) : writeOver [] 0 bytes = bytes := by
  simp [writeOver]

@[simp] theorem guard_write (files : Files) (place place' : Place) (position : Option Nat)
    (bytes : Bytes) : guard (files.write place position bytes) place' = files.guard place' := by
  unfold Files.write
  split
  · rfl
  · split <;> rfl

/-- What is written into an empty file, at its end or from its start, is its content. -/
theorem Stands.write (h : files.Stands path place []) (fromStart : Bool) (bytes : Bytes) :
    (files.write place (if fromStart then some 0 else none) bytes).Stands path place bytes := by
  have hfind := find?_of_entry _ h.entry (by intro hd; cases hd)
  by_cases hbytes : bytes.isEmpty = true
  · rw [List.isEmpty_iff.mp hbytes, write_nil]
    exact h
  · unfold Files.write
    rw [if_neg hbytes, hfind]
    cases fromStart with
    | true =>
      show Stands (files.insert place (.file (writeOver [] 0 bytes))) path place bytes
      rw [writeOver_empty]
      exact h.insert_self bytes
    | false => exact h.insert_self bytes

/-- What is written at the end of a file follows its content. -/
theorem Stands.append (h : files.Stands path place content) (bytes : Bytes) :
    (files.write place none bytes).Stands path place (content ++ bytes) := by
  have hfind := find?_of_entry _ h.entry (by intro hd; cases hd)
  by_cases hbytes : bytes.isEmpty = true
  · rw [List.isEmpty_iff.mp hbytes, write_nil, List.append_nil]
    exact h
  · unfold Files.write
    rw [if_neg hbytes, hfind]
    exact h.insert_self (content ++ bytes)

end OlapClient.Files
