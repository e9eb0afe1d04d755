import OlapClient.Proofs.CellSet.Elements

/-!
# Members and positions

Which elements describe a member, and what the member then is. The positions of an axis are numbered
in the order of its tuples, each with one member for each member element of the tuple.
-/

namespace OlapClient

open Markup

namespace Dataset

/-! ### Members -/

def IsWord (text : String) (n : Nat) : Prop :=
  Text.IsUnsigned (Text.trim text).toList n ∧ n < 2 ^ 32

def IsLong (text : String) (z : Int) : Prop :=
  Text.IsSigned (Text.trim text).toList z ∧ -2 ^ 63 ≤ z ∧ z < 2 ^ 63

/-- The unique name reads as an identifier, and numbers are numbers where they are given. -/
structure ValidMember (e : Element) : Prop where
  name : ∃ text, e.childText? "UName" = some text ∧ Text.trim text ≠ "" ∧
    ∃ identifier, Identifier.parse (Text.trim text) = .ok identifier
  depth : ∀ text, e.childText? "LNum" = some text → ∃ n, IsWord text n
  display : ∀ text, e.childText? "DisplayInfo" = some text → ∃ z, IsLong text z

structure DescribesMember (e : Element) (m : Member) : Prop where
  name : ∃ text, e.childText? "UName" = some text ∧ m.uniqueName = Text.trim text
  identifier : Identifier.parse m.uniqueName = .ok m.identifier
  caption : m.caption =
    (e.childText? "Caption").getD ((m.identifier.last?.map Segment.label).getD "")
  hierarchy : m.hierarchy = (e.attribute? "Hierarchy").getD ""
  level : m.levelUniqueName = e.childText? "LName"
  depth : Option.Rel IsWord (e.childText? "LNum") m.levelDepth
  parent : m.parentUniqueName = e.childText? "PARENT_UNIQUE_NAME"
  display : Option.Rel IsLong (e.childText? "DisplayInfo") m.displayInfo
  properties : ∀ name last,
    LastOf (fun c => c.name = name ∧ c.name ∉ memberFields) e.children last →
    m.properties.find? name = last.map (·.text)

theorem isWord_iff (text : String) (n : Nat) :
    Text.word? (Text.trim text) = some n ↔ IsWord text n := Text.word?_eq_some_iff _ n

theorem isLong_iff (text : String) (z : Int) :
    Text.integer? (Text.trim text) = some z ↔ IsLong text z := Text.integer?_eq_some_iff _ z

theorem trimmedNonempty_eq_some_iff (text name : String) :
    Response.trimmedNonempty text = some name ↔ name = Text.trim text ∧ name ≠ "" := by
  unfold Response.trimmedNonempty
  by_cases h : (Text.trim text).isEmpty = true
  · have hempty : Text.trim text = "" := String.isEmpty_iff.mp h
    simp only [h, if_true]
    constructor
    · intro hn
      cases hn
    · rintro ⟨rfl, hne⟩
      exact absurd hempty hne
  · have hne : Text.trim text ≠ "" := fun he => h (String.isEmpty_iff.mpr he)
    simp only [h]
    constructor
    · intro hn
      cases hn
      exact ⟨rfl, hne⟩
    · rintro ⟨rfl, -⟩
      rfl

theorem memberName_eq_ok_iff (e : Element) (name : String) :
    memberName e = .ok name ↔
      ∃ text, e.childText? "UName" = some text ∧ name = Text.trim text ∧ name ≠ "" := by
  unfold memberName
  simp only [← trimmedNonempty_eq_some_iff, ← Option.bind_eq_some_iff]
  cases (e.childText? "UName").bind Response.trimmedNonempty with
  | none => simp [refuse]
  | some other => simp

/-- A numeric field is absent on both sides or read as its text says. -/
theorem memberNumber_eq_ok_iff {α : Type} {read : String → Option α} {is : String → α → Prop}
    (his : ∀ text a, read (Text.trim text) = some a ↔ is text a) (field name : String) (e : Element)
    (value : Option α) :
    memberNumber read field name e = .ok value ↔ Option.Rel is (e.childText? field) value := by
  unfold memberNumber
  cases e.childText? field with
  | none =>
    constructor
    · intro h
      cases h
      exact .none
    · intro h
      cases h
      rfl
  | some text =>
    simp only
    constructor
    · intro h
      cases hread : read (Text.trim text) with
      | none => simp [hread, refuse] at h
      | some a =>
        simp only [hread] at h
        cases h
        exact .some ((his text a).mp hread)
    · intro h
      cases h with
      | some ha => simp [(his text _).mpr ha]

theorem member_eq_ok_iff (e : Element) (m : Member) :
    member e = .ok m ↔ (∃ text, e.childText? "UName" = some text ∧
        m.uniqueName = Text.trim text ∧ m.uniqueName ≠ "") ∧
      Identifier.parse m.uniqueName = .ok m.identifier ∧
      Option.Rel IsWord (e.childText? "LNum") m.levelDepth ∧
      Option.Rel IsLong (e.childText? "DisplayInfo") m.displayInfo ∧
      m.caption = (e.childText? "Caption").getD ((m.identifier.last?.map Segment.label).getD "") ∧
      m.hierarchy = (e.attribute? "Hierarchy").getD "" ∧
      m.levelUniqueName = e.childText? "LName" ∧
      m.parentUniqueName = e.childText? "PARENT_UNIQUE_NAME" ∧
      m.properties = otherProperties memberFields e := by
  obtain ⟨uniqueName, identifier, caption, hierarchy, level, depth, parent, display,
    properties⟩ := m
  unfold member
  simp only [bind_eq_ok, memberName_eq_ok_iff, mapError_eq_ok, memberNumber_eq_ok_iff isWord_iff,
    memberNumber_eq_ok_iff isLong_iff]
  constructor
  · rintro ⟨name, hname, i, hi, d, hd, z, hz, hm⟩
    cases hm
    exact ⟨hname, hi, hd, hz, rfl, rfl, rfl, rfl, rfl⟩
  · rintro ⟨hname, hi, hd, hz, rfl, rfl, rfl, rfl, rfl⟩
    exact ⟨uniqueName, hname, identifier, hi, depth, hd, display, hz, rfl⟩

theorem describesMember_of_member (e : Element) (m : Member) (h : member e = .ok m) :
    DescribesMember e m := by
  obtain ⟨⟨text, htext, hname, -⟩, hi, hd, hz, hcaption, hhierarchy, hlevel, hparent,
    hproperties⟩ :=
    (member_eq_ok_iff e m).mp h
  refine ⟨⟨text, htext, hname⟩, hi, hcaption, hhierarchy, hlevel, hd, hparent, hz, ?_⟩
  intro name last hlast
  rw [hproperties]
  exact find?_otherProperties memberFields e name last hlast

theorem exists_rel_iff {α β : Type} {R : α → β → Prop} (a? : Option α) :
    (∃ b?, Option.Rel R a? b?) ↔ ∀ a, a? = some a → ∃ b, R a b := by
  cases a? with
  | none => simpa using ⟨none, .none⟩
  | some a =>
    constructor
    · rintro ⟨b?, h⟩ a' ha
      cases ha
      cases h with
      | some h => exact ⟨_, h⟩
    · intro h
      obtain ⟨b, hb⟩ := h a rfl
      exact ⟨some b, .some hb⟩

theorem member_isOk_iff (e : Element) : (∃ m, member e = .ok m) ↔ ValidMember e := by
  constructor
  · rintro ⟨m, h⟩
    obtain ⟨⟨text, htext, hname, hne⟩, hi, hd, hz, -⟩ := (member_eq_ok_iff e m).mp h
    rw [hname] at hi hne
    exact ⟨⟨text, htext, hne, _, hi⟩, (exists_rel_iff _).mp ⟨_, hd⟩, (exists_rel_iff _).mp ⟨_, hz⟩⟩
  · rintro ⟨⟨text, htext, hne, i, hi⟩, hd, hz⟩
    obtain ⟨depth, hdepth⟩ := (exists_rel_iff _).mpr hd
    obtain ⟨display, hdisplay⟩ := (exists_rel_iff _).mpr hz
    let m : Member :=
      { uniqueName := Text.trim text
        identifier := i
        caption := (e.childText? "Caption").getD ((i.last?.map Segment.label).getD "")
        hierarchy := (e.attribute? "Hierarchy").getD ""
        levelUniqueName := e.childText? "LName"
        levelDepth := depth
        parentUniqueName := e.childText? "PARENT_UNIQUE_NAME"
        displayInfo := display
        properties := otherProperties memberFields e }
    exact ⟨m, (member_eq_ok_iff e m).mpr
      ⟨⟨text, htext, rfl, hne⟩, hi, hdepth, hdisplay, rfl, rfl, rfl, rfl, rfl⟩⟩

/-! ### Positions -/

def tuples (axis : Element) : List Element := childrenAt ["Tuples"] "Tuple" axis

/-- Positions are numbered from zero, and each has the members of its tuple. -/
structure ShowTuples (es : List Element) (positions : List Position) : Prop where
  ordinals : positions.map Position.ordinal = List.range es.length
  members : List.Forall₂ (fun tuple (p : Position) =>
    List.Forall₂ DescribesMember (tuple.childrenNamed "Member") p.members) es positions

theorem positionsFrom_eq_ok_iff (ordinal : Nat) (es : List Element) (ps : List Position) :
    positionsFrom ordinal es = .ok ps ↔
      ps.map Position.ordinal = List.range' ordinal es.length ∧
      List.Forall₂ (fun tuple (p : Position) => List.Forall₂ (fun e m => member e = .ok m)
        (tuple.childrenNamed "Member") p.members) es ps := by
  induction es generalizing ordinal ps with
  | nil =>
    rw [positionsFrom]
    constructor
    · intro h
      cases h
      exact ⟨rfl, .nil⟩
    · rintro ⟨-, h⟩
      cases h
      rfl
  | cons e es ih =>
    simp only [positionsFrom, bind_eq_ok, position, mapM_eq_ok, ih]
    constructor
    · rintro ⟨_, ⟨members, hm, hfirst⟩, others, ⟨ho, hothers⟩, hps⟩
      cases hfirst
      cases hps
      refine ⟨?_, .cons hm hothers⟩
      rw [List.map_cons, ho, List.length_cons, List.range'_succ]
    · rintro ⟨ho, hall⟩
      cases hall with
      | @cons _ p _ others hm hothers =>
        rw [List.map_cons, List.length_cons, List.range'_succ, List.cons.injEq] at ho
        refine ⟨p, ⟨p.members, hm, ?_⟩, others, ⟨ho.2, hothers⟩, rfl⟩
        rw [← ho.1]
        rfl

theorem positionsFrom_isOk_iff (ordinal : Nat) (es : List Element) :
    (∃ ps, positionsFrom ordinal es = .ok ps) ↔
      ∀ tuple ∈ es, ∀ e ∈ tuple.childrenNamed "Member", ValidMember e := by
  induction es generalizing ordinal with
  | nil => exact ⟨fun _ tuple h => absurd h List.not_mem_nil, fun _ => ⟨[], rfl⟩⟩
  | cons tuple es ih =>
    rw [List.forall_mem_cons, ← ih (ordinal + 1)]
    simp only [← member_isOk_iff, ← mapM_isOk_iff, positionsFrom, position, bind_eq_ok]
    constructor
    · rintro ⟨ps, p, ⟨members, hm, -⟩, others, ho, -⟩
      exact ⟨⟨members, hm⟩, others, ho⟩
    · rintro ⟨⟨members, hm⟩, others, ho⟩
      exact ⟨_, _, ⟨members, hm, rfl⟩, others, ho, rfl⟩

/-- Positions are read unless the axis is a product of sets or a member is invalid. -/
theorem positions_eq_ok_iff (axis : Element) (ps : List Position) :
    positions axis = .ok ps ↔ axis.child? "CrossProduct" = none ∧
      positionsFrom 0 (tuples axis) = .ok ps := by
  unfold positions
  have htuples : tuples axis = ((axis.child? "Tuples").map (·.childrenNamed "Tuple")).getD [] := by
    unfold tuples childrenAt
    rw [List.foldlM_cons]
    cases axis.child? "Tuples" <;> rfl
  rw [htuples]
  cases axis.child? "CrossProduct" with
  | some _ => simp
  | none =>
    cases axis.child? "Tuples" with
    | none => simp [positionsFrom]
    | some _ => simp

theorem showTuples_of_positions (axis : Element) (ps : List Position)
    (h : positions axis = .ok ps) :
    ShowTuples (tuples axis) ps := by
  obtain ⟨-, hfrom⟩ := (positions_eq_ok_iff axis ps).mp h
  obtain ⟨hordinals, hmembers⟩ := (positionsFrom_eq_ok_iff 0 _ ps).mp hfrom
  refine ⟨by rw [hordinals, List.range_eq_range'], hmembers.imp fun tuple p hp => ?_⟩
  exact hp.imp fun e m => describesMember_of_member e m

theorem positions_isOk_iff (axis : Element) :
    (∃ ps, positions axis = .ok ps) ↔ axis.child? "CrossProduct" = none ∧
      ∀ tuple ∈ tuples axis, ∀ e ∈ tuple.childrenNamed "Member", ValidMember e := by
  simp only [positions_eq_ok_iff, exists_and_left, positionsFrom_isOk_iff]

end Dataset

end OlapClient
