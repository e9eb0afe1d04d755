import OlapClient.CellSet.Dataset
import OlapClient.Proofs.Dictionary
import OlapClient.Proofs.Text.Numbers

/-!
# What the elements of a result say

The ordinal and the value that a cell element states, and the texts that it holds beside them. A
result with axes and cells is a cell set exactly if its cells can be counted and none is outside.
-/

namespace OlapClient

open Markup

namespace Dataset

/-! ### Values -/

def Declares (e : Element) (type : String) : Prop :=
  (e.attribute? "type").map afterColon = some type

theorem Declares.eq {e : Element} {type type' : String} (h : Declares e type)
    (h' : Declares e type') : type = type' := Option.some.inj (h.symm.trans h')

/-- The value that an element states by its declared type. -/
inductive HasValue (e : Element) : CellValue → Prop where
  | null (h : e.attribute? "nil" = some "true") : HasValue e .null
  | integer (type : String) (z : Int) (hn : e.attribute? "nil" ≠ some "true")
      (ht : Declares e type) (hi : type ∈ integerTypes)
      (h : Text.IsSigned (Text.trim e.text).toList z) (hz : -2 ^ 63 ≤ z ∧ z < 2 ^ 63) :
      HasValue e (.integer z)
  | double (type : String) (x : Float) (hn : e.attribute? "nil" ≠ some "true")
      (ht : Declares e type) (hd : type ∈ doubleTypes)
      (h : schemaDouble? (Text.trim e.text) = some x) : HasValue e (.double x)
  | boolean (b : Bool) (hn : e.attribute? "nil" ≠ some "true") (ht : Declares e "boolean")
      (h : Text.trim e.text ∈ if b then ["true", "1"] else ["false", "0"]) :
      HasValue e (.boolean b)
  | text (hn : e.attribute? "nil" ≠ some "true")
      (ht : ∀ type, Declares e type → type ∉ integerTypes ∧ type ∉ doubleTypes ∧ type ≠ "boolean") :
      HasValue e (.text e.text)

theorem schemaBoolean?_eq_some_iff (text : String) (b : Bool) :
    schemaBoolean? text = some b ↔ text ∈ if b then ["true", "1"] else ["false", "0"] := by
  unfold schemaBoolean?
  by_cases htrue : text = "true"
  · cases b <;> simp [htrue]
  by_cases hone : text = "1"
  · cases b <;> simp [hone]
  by_cases hfalse : text = "false"
  · cases b <;> simp [hfalse]
  by_cases hzero : text = "0"
  · cases b <;> simp [hzero]
  cases b <;> simp [htrue, hone, hfalse, hzero]

theorem schemaDouble?_isSome_iff (text : String) :
    (schemaDouble? text).isSome = true ↔ Text.IsDouble text.toList := by
  have hword : Text.IsMagnitude "INF".toList := .word _ (by decide)
  unfold schemaDouble?
  split
  · rename_i h
    subst h
    exact ⟨fun _ => .mk [] _ (by decide) hword, fun _ => rfl⟩
  split
  · rename_i h
    subst h
    exact ⟨fun _ => .mk ['-'] _ (by decide) hword, fun _ => rfl⟩
  exact Text.double?_isSome_iff text

theorem not_integer_of_double : ∀ type ∈ doubleTypes, type ∉ integerTypes := by decide

theorem boolean_not_number : "boolean" ∉ integerTypes ∧ "boolean" ∉ doubleTypes := by decide

theorem typedValue_of_hasValue (e : Element) (value : CellValue) (h : HasValue e value) :
    typedValue e = .ok value := by
  unfold typedValue
  cases h with
  | null h => rw [if_pos h]
  | integer type z hn ht hi h hz =>
    rw [if_neg hn, ht]
    have hread := (Text.integer?_eq_some_iff _ _).mpr ⟨h, hz⟩
    simp [hi, hread]
  | double type x hn ht hd h =>
    rw [if_neg hn, ht]
    simp [hd, not_integer_of_double type hd, h]
  | boolean b hn ht h =>
    rw [if_neg hn, ht]
    simp [boolean_not_number, (schemaBoolean?_eq_some_iff _ b).mpr h]
  | text hn ht =>
    rw [if_neg hn]
    cases hd : (e.attribute? "type").map afterColon with
    | none => rfl
    | some type =>
      obtain ⟨hi, hd, hb⟩ := ht type hd
      simp [hi, hd, hb]

theorem eq_some_of_valid {value? : Option CellValue} {cause : ResponseError} {value : CellValue}
    (h : (match value? with
      | some value => .ok value
      | none => refuse cause : Except ClientError CellValue) = .ok value) :
    value? = some value := by
  cases value? with
  | none => cases h
  | some _ => rw [Except.ok.inj h]

theorem hasValue_of_typedValue (e : Element) (value : CellValue) (h : typedValue e = .ok value) :
    HasValue e value := by
  unfold typedValue at h
  -- each kind of value is tried only where those before it are ruled out
  split at h
  · rename_i hn
    cases h
    exact .null hn
  rename_i hn
  split at h
  · rename_i ht
    cases h
    exact .text hn fun type hd => by rw [Declares, ht] at hd; cases hd
  rename_i type ht
  have hd : Declares e type := ht
  split at h
  · rename_i hi
    obtain ⟨z, hz, rfl⟩ := Option.map_eq_some_iff.mp (eq_some_of_valid h)
    obtain ⟨hz, hrange⟩ := (Text.integer?_eq_some_iff _ _).mp hz
    exact .integer type z hn ht (List.contains_iff_mem.mp hi) hz hrange
  split at h
  · rename_i hdouble
    obtain ⟨x, hx, rfl⟩ := Option.map_eq_some_iff.mp (eq_some_of_valid h)
    exact .double type x hn ht (List.contains_iff_mem.mp hdouble) hx
  split at h
  · rename_i hb
    subst hb
    obtain ⟨b, hb, rfl⟩ := Option.map_eq_some_iff.mp (eq_some_of_valid h)
    exact .boolean b hn ht ((schemaBoolean?_eq_some_iff _ b).mp hb)
  rename_i hi hdouble hb
  cases h
  refine .text hn fun other hother => ?_
  cases hd.eq hother
  exact ⟨fun h => hi (List.contains_iff_mem.mpr h),
    fun h => hdouble (List.contains_iff_mem.mpr h), hb⟩

theorem typedValue_eq_ok_iff (e : Element) (value : CellValue) :
    typedValue e = .ok value ↔ HasValue e value :=
  ⟨hasValue_of_typedValue e value, typedValue_of_hasValue e value⟩

/-! ### Cells -/

def cellElements (root : Element) : List Element := childrenAt ["CellData"] "Cell" root

def HasOrdinal (e : Element) (ordinal : Nat) : Prop :=
  ∃ text, e.attribute? "CellOrdinal" = some text ∧
    Text.IsUnsigned (Text.trim text).toList ordinal ∧ ordinal < 2 ^ 64

/-- An element states a value in its first child for it. -/
def StatesValue (e : Element) (value : CellValue) : Prop :=
  match e.child? "Value" with
  | none => value = .null
  | some child => HasValue child value

/-- What an element says of a cell; of two children for one property the last counts. -/
structure DescribesCell (e : Element) (data : CellData) : Prop where
  value : StatesValue e data.value
  formatted : data.formatted = e.childText? "FmtValue"
  properties : ∀ name last,
    LastOf (fun c => c.name = name ∧ c.name ∉ ["Value", "FmtValue"]) e.children last →
    data.properties.find? name = last.map (·.text)

theorem hasOrdinal_iff (e : Element) (ordinal : Nat) :
    HasOrdinal e ordinal ↔
      (e.attribute? "CellOrdinal").bind (fun o => Text.count? (Text.trim o)) = some ordinal := by
  rw [Option.bind_eq_some_iff]
  simp only [Text.count?_eq_some_iff]
  rfl

theorem HasOrdinal.eq {e : Element} {m n : Nat} (hm : HasOrdinal e m) (hn : HasOrdinal e n) :
    m = n := by
  rw [hasOrdinal_iff] at hm hn
  exact Option.some.inj (hm.symm.trans hn)

theorem find?_otherProperties (fields : List String) (e : Element) (name : String)
    (last : Option Element)
    (h : LastOf (fun c => c.name = name ∧ c.name ∉ fields) e.children last) :
    (otherProperties fields e).find? name = last.map (·.text) := by
  have hkept : LastOf (fun c => c.name = name) (e.children.filter fun c => !fields.contains c.name)
      last := by
    refine (lastOf_filter _ _ _ _).mpr (h.congr fun c => ?_)
    simp
  have hentries := LastOf.map (p := fun entry : String × String => entry.1 = name)
    (fun c : Element => (c.name, c.text)) hkept
  rw [otherProperties, Dictionary.find?_ofList hentries]
  cases last <;> rfl

theorem cellEntry_eq_ok_iff (e : Element) (entry : Nat × CellData) :
    cellEntry e = .ok entry ↔
      HasOrdinal e entry.1 ∧ StatesValue e entry.2.value ∧
      entry.2.formatted = e.childText? "FmtValue" ∧
      entry.2.properties = otherProperties ["Value", "FmtValue"] e := by
  obtain ⟨ordinal, value, formatted, properties⟩ := entry
  rw [hasOrdinal_iff]
  unfold cellEntry StatesValue
  cases ho : (e.attribute? "CellOrdinal").bind fun o => Text.count? (Text.trim o) with
  | none => simp [refuse, bind, Except.bind]
  | some o =>
    cases hc : e.child? "Value" with
    | none => simp [bind, Except.bind, pure, Except.pure, eq_comm]
    | some child =>
      simp only [← typedValue_eq_ok_iff]
      cases typedValue child with
      | error cause => simp [bind, Except.bind, pure, Except.pure]
      | ok v => simp [bind, Except.bind, pure, Except.pure, eq_comm]

theorem describesCell_of_entry (e : Element) (entry : Nat × CellData)
    (h : cellEntry e = .ok entry) : HasOrdinal e entry.1 ∧ DescribesCell e entry.2 := by
  obtain ⟨ho, hvalue, hformatted, hproperties⟩ := (cellEntry_eq_ok_iff e entry).mp h
  refine ⟨ho, hvalue, hformatted, fun name last hlast => ?_⟩
  rw [hproperties]
  exact find?_otherProperties _ e name last hlast

/-! ### The whole result -/

theorem cellsOf_eq_ok_iff (root : Element) (cells : Dictionary Nat CellData) :
    cellsOf root = .ok cells ↔
      ∃ entries, List.Forall₂ (fun e entry => cellEntry e = .ok entry) (cellElements root) entries ∧
        cells = .ofList entries := by
  unfold cellsOf
  simp only [bind_eq_ok, mapM_eq_ok]
  constructor
  · rintro ⟨entries, h, hcells⟩
    exact ⟨entries, h, (Except.ok.inj hcells).symm⟩
  · rintro ⟨entries, h, rfl⟩
    exact ⟨entries, h, rfl⟩

end Dataset

namespace CellSet

theorem make_eq_ok_iff (cube : Option String) (axes : List Axis) (filter : Axis)
    (cells : Dictionary Nat CellData) (s : CellSet) :
    make cube axes filter cells = .ok s ↔
      ∃ total, Coordinate.cellCount (axes.map Axis.size) = .ok total ∧
        (∀ ordinal ∈ cells.keys, ordinal < total) ∧
        s = { cube := cube, axes := axes, filter := filter, cells := cells } := by
  unfold make
  simp only [bind_eq_ok, mapError_eq_ok]
  refine exists_congr fun total => and_congr_right fun _ => ?_
  have hfind : (∀ ordinal ∈ cells.keys, ordinal < total) ↔
      cells.keys.find? (total ≤ ·) = none := by
    simp
  rw [hfind]
  cases cells.keys.find? (total ≤ ·) with
  | none => simp [pure, Except.pure, eq_comm]
  | some ordinal => simp [throw, throwThe, MonadExceptOf.throw]

theorem ofRoot_eq_ok_iff (root : Element) (s : CellSet) :
    ofRoot root = .ok s ↔
      ∃ axes cells, Dataset.axesOf root = .ok axes ∧
        Dataset.checkContiguous 0 s.axes = .ok () ∧
        Dataset.cellsOf root = .ok cells ∧
        s.axes = axes.values.filter (fun axis => axis.ordinal ≠ .filter) ∧
        s.filter = (axes.find? .filter).getD { ordinal := .filter } ∧
        make s.cube s.axes s.filter cells = .ok s ∧ s.cube = Dataset.cubeName? root := by
  unfold ofRoot
  simp only [bind_eq_ok]
  constructor
  · rintro ⟨axes, haxes, ⟨⟩, hcontiguous, cells, hcells, hmake⟩
    obtain ⟨total, hcount, hinside, rfl⟩ := (make_eq_ok_iff _ _ _ _ _).mp hmake
    exact ⟨axes, cells, haxes, hcontiguous, hcells, rfl, rfl, hmake, rfl⟩
  · rintro ⟨axes, cells, haxes, hcontiguous, hcells, hnumbered, hfilter, hmake, hcube⟩
    rw [hnumbered] at hcontiguous
    rw [hnumbered, hfilter, hcube] at hmake
    exact ⟨axes, haxes, (), hcontiguous, cells, hcells, hmake⟩

end CellSet

/-! ### A small result -/

namespace Dataset

def tupleOf (uniqueName : String) : Element :=
  { name := "Tuple"
    children := [{ name := "Member", children := [{ name := "UName", text := uniqueName }] }] }

def axisOf (name : String) (uniqueNames : List String) : Element :=
  { name := "Axis", attributes := [("name", name)]
    children := [{ name := "Tuples", children := uniqueNames.map tupleOf }] }

def cellFor (ordinal type text : String) : Element :=
  { name := "Cell", attributes := [("CellOrdinal", ordinal)]
    children := [{ name := "Value", attributes := [("type", type)], text := text }] }

/-- Two axes in the wrong order, and three cells of which two bear the same ordinal. -/
def crossing : Element :=
  { name := "root"
    children :=
      [{ name := "Axes"
         children := [axisOf "Axis1" ["[A]", "B"], axisOf "Axis0" ["[C].&[1]", " [D] "]] },
       { name := "CellData"
         children := [cellFor "1" "xsd:int" "5", cellFor " 3 " "xsd:boolean" "true",
           cellFor "+1" "xsd:int" "-7"] }] }

end Dataset

end OlapClient
