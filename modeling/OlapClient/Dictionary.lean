/-!
# Dictionaries

Entries in ascending order of their keys, one for each key. A later entry of a key takes the
place of the earlier one.
-/

namespace OlapClient

/-- Entries in ascending order of their keys. -/
structure Dictionary (κ α : Type) where
  entries : List (κ × α) := []
  deriving DecidableEq, Repr

namespace Dictionary

variable {κ α : Type} [Ord κ]

/-- The entries with one more, which replaces the entry of the same key. -/
def insertEntry (key : κ) (value : α) : List (κ × α) → List (κ × α)
  | [] => [(key, value)]
  | entry :: rest =>
    match compare key entry.1 with
    | .lt => (key, value) :: entry :: rest
    | .eq => (key, value) :: rest
    | .gt => entry :: insertEntry key value rest

/-- One more entry, which replaces the entry of the same key. -/
def insert (d : Dictionary κ α) (key : κ) (value : α) : Dictionary κ α :=
  ⟨insertEntry key value d.entries⟩

/-- The value of a key. -/
def find? (d : Dictionary κ α) (key : κ) : Option α :=
  (d.entries.find? fun entry => compare key entry.1 == .eq).map (·.2)

/-- The dictionary of a list of entries, later ones replacing earlier ones. -/
def ofList (entries : List (κ × α)) : Dictionary κ α :=
  entries.foldl (fun d entry => d.insert entry.1 entry.2) {}

/-- The number of entries. -/
def size (d : Dictionary κ α) : Nat := d.entries.length

/-- The keys in ascending order. -/
def keys (d : Dictionary κ α) : List κ := d.entries.map (·.1)

/-- The values in ascending order of their keys. -/
def values (d : Dictionary κ α) : List α := d.entries.map (·.2)

end Dictionary

end OlapClient
