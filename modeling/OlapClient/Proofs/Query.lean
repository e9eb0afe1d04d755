import Mathlib.Data.List.Basic
import OlapClient.Proofs.Identifier.ListRoundTrip
import OlapClient.Proofs.Text.SelfDelimiting
import OlapClient.Query

/-!
# Queries are told apart by their text

Where all names are in brackets, the text of a query determines the query: no name, whatever it
holds, can be taken for anything else. A name ends at the first closing bracket that has no other
one behind it, and everything larger is put together from pieces of which each shows where it ends
(`SelfDelimiting`), provided that no character that would continue it stands behind it.
-/

namespace OlapClient

/-! ### Names and identifiers -/

theorem escape_append_injective (body body' rest rest' : List Char) (hr : rest.head? ≠ some ']')
    (hr' : rest'.head? ≠ some ']')
    (h : Name.escape body ++ ']' :: rest = Name.escape body' ++ ']' :: rest') :
    body = body' ∧ rest = rest' := by
  -- A body that goes on has another character there, or two closing brackets.
  have longer : ∀ c body rest rest', rest.head? ≠ some ']' →
      ']' :: rest ≠ Name.escape (c :: body) ++ ']' :: rest' := by
    intro c body rest rest' hr he
    by_cases hc : c = ']'
    · simp only [Name.escape, hc, if_true, List.cons_append, List.cons.injEq, true_and] at he
      exact hr (by rw [he]; rfl)
    · simp only [Name.escape, hc, if_false, List.cons_append, List.cons.injEq] at he
      exact hc he.1.symm
  induction body generalizing body' with
  | nil =>
    cases body' with
    | nil => exact ⟨rfl, (List.cons.inj h).2⟩
    | cons c body' => exact absurd h (longer c body' rest rest' hr)
  | cons c body ih =>
    cases body' with
    | nil => exact absurd h.symm (longer c body rest' rest hr')
    | cons c' body' =>
      have hfirst : c = c' ∧
          Name.escape body ++ ']' :: rest = Name.escape body' ++ ']' :: rest' := by
        by_cases hc : c = ']' <;> by_cases hc' : c' = ']' <;>
          simp only [Name.escape, hc, hc', if_true, if_false, List.cons_append, List.cons.injEq,
            true_and] at h
        · exact ⟨by rw [hc, hc'], h⟩
        · exact absurd h.1.symm hc'
        · exact h.1.elim
        · exact h
      obtain ⟨rfl, hbehind⟩ := hfirst
      obtain ⟨rfl, hrest⟩ := ih body' hbehind
      exact ⟨rfl, hrest⟩

/-- A bracketed name ends at a closing bracket with no other one behind it. -/
theorem bracket_selfDelimiting : SelfDelimiting (fun _ => True) Name.bracket [']'] := by
  intro body body' rest rest' _ _ hr hr' he
  have hclose : ∀ rest, Avoids [']'] rest → rest.head? ≠ some ']' :=
    fun rest hr hc => hr ']' hc (by simp)
  refine escape_append_injective body body' rest rest' (hclose rest hr) (hclose rest' hr') ?_
  simpa [Name.bracket] using he

/-- The name stands in brackets. -/
def Name.IsQuoted (n : Name) : Prop := n.quoting = .quoted

/-- All names are in brackets, and a key has parts. -/
def Segment.IsQuoted : Segment → Prop
  | .name n => n.IsQuoted
  | .key parts => parts ≠ [] ∧ ∀ n ∈ parts, n.IsQuoted

def Identifier.IsQuoted (i : Identifier) : Prop :=
  i.segments ≠ [] ∧ ∀ segment ∈ i.segments, segment.IsQuoted

def Tuple.IsQuoted (t : Tuple) : Prop := t.members ≠ [] ∧ ∀ i ∈ t.members, i.IsQuoted

theorem Name.chars_selfDelimiting : SelfDelimiting Name.IsQuoted Name.chars [']'] := by
  rintro ⟨value, -⟩ ⟨value', -⟩ rest rest' ⟨⟩ ⟨⟩ hr hr' he
  obtain ⟨hvalue, hrest⟩ := bracket_selfDelimiting _ _ rest rest' trivial trivial hr hr' he
  have hname : value = value' := String.toList_inj.mp hvalue
  exact ⟨by rw [hname], hrest⟩

theorem key_selfDelimiting :
    SelfDelimiting (fun parts : List Name => parts ≠ [] ∧ ∀ n ∈ parts, n.IsQuoted)
      (fun parts => parts.flatMap fun part => '&' :: part.chars) ['&', ']'] := by
  have hmarked : ∀ parts : List Name, parts ≠ [] →
      (parts.flatMap fun part => '&' :: part.chars) =
        ['&'] ++ ['&'].intercalate (parts.map Name.chars) := by
    intro parts hne
    obtain ⟨n, parts, rfl⟩ := List.exists_cons_of_ne_nil hne
    simp [Spelling.intercalate_cons, List.flatMap_map]
  have hparts := (Name.chars_selfDelimiting.separated_map '&' [] (by decide)).prefixed ['&']
  rintro parts parts' rest rest' hp hp' hr hr' he
  dsimp only at he
  rw [hmarked parts hp.1, hmarked parts' hp'.1] at he
  exact hparts parts parts' rest rest' hp hp' hr hr' he

theorem Segment.chars_selfDelimiting :
    SelfDelimiting Segment.IsQuoted Segment.chars ['&', ']'] := by
  -- A name starts with a bracket, and a key with its mark.
  have apart : ∀ (n : Name) parts rest rest', n.IsQuoted → parts ≠ [] →
      n.chars ++ rest ≠ Segment.chars (.key parts) ++ rest' := by
    rintro ⟨value, -⟩ parts rest rest' ⟨⟩ hne he
    obtain ⟨part, parts, rfl⟩ := List.exists_cons_of_ne_nil hne
    cases (List.cons.inj he).1
  rintro (n | parts) (n' | parts') rest rest' h h' hr hr' he
  · obtain ⟨rfl, hrest⟩ := Name.chars_selfDelimiting.mono (by simp) n n' rest rest' h h' hr hr' he
    exact ⟨rfl, hrest⟩
  · exact absurd he (apart n parts' rest rest' h h'.1)
  · exact absurd he.symm (apart n' parts rest' rest h' h.1)
  · obtain ⟨rfl, hrest⟩ := key_selfDelimiting parts parts' rest rest' h h' hr hr' he
    exact ⟨rfl, hrest⟩

theorem Identifier.chars_selfDelimiting :
    SelfDelimiting Identifier.IsQuoted Identifier.chars ['.', '&', ']'] :=
  (Segment.chars_selfDelimiting.separated_map '.' [] (by decide)).comap Identifier.segments
    (fun i i' h => by cases i; cases i'; exact congrArg _ h) (fun i h => h)

theorem Tuple.chars_selfDelimiting : SelfDelimiting Tuple.IsQuoted Tuple.chars [] :=
  (((Identifier.chars_selfDelimiting.separated_map ',' [' '] (by decide)).followed ')' []
    (by decide)).prefixed ['(']).comap Tuple.members
    (fun t t' h => by cases t; cases t'; exact congrArg _ h) (fun t h => h)

/-! ### Queries -/

/-- A list that is not empty, of identifiers or of tuples of two members and more. -/
def AxisSet.IsQuoted : AxisSet → Prop
  | .members ms => ms ≠ [] ∧ ∀ i ∈ ms, i.IsQuoted
  | .tuples ts => ts ≠ [] ∧ ∀ t ∈ ts, 2 ≤ t.size ∧ t.IsQuoted
  | .expression _ => False

/-- A query in which every name stands in brackets and no set is an expression. -/
structure SelectQuery.IsQuoted (q : SelectQuery) : Prop where
  cube : q.cube.IsQuoted
  axes : ∀ axis ∈ q.axes, axis.set.IsQuoted
  slicer : ∀ t, q.slicer = some t → t.IsQuoted

theorem Segment.IsQuoted.first {segment : Segment} (h : segment.IsQuoted) :
    ∃ c cs, segment.chars = c :: cs ∧ c ≠ '(' := by
  cases segment with
  | name n =>
    obtain ⟨value, quoting⟩ := n
    cases h
    exact ⟨'[', _, rfl, by decide⟩
  | key parts =>
    obtain ⟨part, parts, rfl⟩ := List.exists_cons_of_ne_nil h.1
    exact ⟨'&', _, rfl, by decide⟩

theorem Identifier.IsQuoted.first {i : Identifier} (h : i.IsQuoted) :
    ∃ c cs, i.chars = c :: cs ∧ c ≠ '(' := by
  obtain ⟨segments⟩ := i
  obtain ⟨hne, hsegments⟩ := h
  obtain ⟨segment, segments, rfl⟩ := List.exists_cons_of_ne_nil hne
  obtain ⟨c, cs, hchars, hc⟩ := (hsegments segment List.mem_cons_self).first
  refine ⟨c, cs ++ (segments.map Segment.chars).flatMap ('.' :: ·), ?_, hc⟩
  rw [Identifier.chars, List.map_cons, Spelling.intercalate_cons, hchars, List.cons_append]

namespace AxisSet

theorem members_selfDelimiting :
    SelfDelimiting (fun ms : List Identifier => ms ≠ [] ∧ ∀ i ∈ ms, i.IsQuoted)
      (fun ms => braced (ms.map Identifier.chars)) [] :=
  ((Identifier.chars_selfDelimiting.separated_map ',' [' '] (by decide)).followed '}' []
    (by decide)).prefixed ['{']

theorem tuples_selfDelimiting :
    SelfDelimiting (fun ts : List Tuple => ts ≠ [] ∧ ∀ t ∈ ts, 2 ≤ t.size ∧ t.IsQuoted)
      (fun ts => braced (ts.map Tuple.elementChars)) [] := by
  have helement :
      SelfDelimiting (fun t : Tuple => 2 ≤ t.size ∧ t.IsQuoted) Tuple.elementChars [] := by
    intro t t' rest rest' h h' hr hr' he
    rw [t.elementChars_eq h.1, t'.elementChars_eq h'.1] at he
    exact Tuple.chars_selfDelimiting t t' rest rest' h.2 h'.2 hr hr' he
  exact ((helement.separated_map ',' [' '] (by decide)).followed '}' [] (by decide)).prefixed ['{']

/-- The first element shows what the elements are. -/
theorem members_ne_tuples (ms : List Identifier) (ts : List Tuple) (rest rest' : List Char)
    (hms : AxisSet.IsQuoted (.members ms)) (hts : AxisSet.IsQuoted (.tuples ts)) :
    braced (ms.map Identifier.chars) ++ rest ≠ braced (ts.map Tuple.elementChars) ++ rest' := by
  intro he
  obtain ⟨i, ms, rfl⟩ := List.exists_cons_of_ne_nil hms.1
  obtain ⟨t, ts, rfl⟩ := List.exists_cons_of_ne_nil hts.1
  obtain ⟨c, cs, hchars, hc⟩ := (hms.2 i List.mem_cons_self).first
  have hsize := (hts.2 t List.mem_cons_self).1
  have hfirst : ∀ (item : List Char) items c cs, item = c :: cs →
      (commaSeparated (item :: items)).head? = some c := by
    rintro _ items c cs rfl
    cases items <;> simp [commaSeparated]
  have hmember := hfirst _ (ms.map Identifier.chars) c cs hchars
  have htuple := hfirst _ (ts.map Tuple.elementChars) '(' _ (t.elementChars_eq hsize)
  simp only [braced, List.map_cons, List.cons_append, List.cons.injEq, true_and] at he
  have hheads := congrArg List.head? he
  simp only [List.append_assoc, List.head?_append, hmember, htuple] at hheads
  exact hc (Option.some.inj hheads)

theorem text_selfDelimiting : SelfDelimiting AxisSet.IsQuoted (fun set => set.text.toList) [] := by
  have hmembers : ∀ ms, (AxisSet.members ms).text.toList = braced (ms.map Identifier.chars) :=
    fun ms => String.toList_ofList
  have htuples : ∀ ts, (AxisSet.tuples ts).text.toList = braced (ts.map Tuple.elementChars) :=
    fun ts => String.toList_ofList
  rintro (ms | ts | _) (ms' | ts' | _) rest rest' h h' hr hr' he
  case members.members =>
    simp only [hmembers] at he
    obtain ⟨rfl, hrest⟩ := members_selfDelimiting ms ms' rest rest' h h' hr hr' he
    exact ⟨rfl, hrest⟩
  case members.tuples =>
    simp only [hmembers, htuples] at he
    exact absurd he (members_ne_tuples ms ts' rest rest' h h')
  case tuples.members =>
    simp only [hmembers, htuples] at he
    exact absurd he.symm (members_ne_tuples ms' ts rest' rest h' h)
  case tuples.tuples =>
    simp only [htuples] at he
    obtain ⟨rfl, hrest⟩ := tuples_selfDelimiting ts ts' rest rest' h h' hr hr' he
    exact ⟨rfl, hrest⟩
  case members.expression | tuples.expression => exact h'.elim
  case expression.members | expression.tuples | expression.expression => exact h.elim

end AxisSet

theorem AxisSet.IsQuoted.first {set : AxisSet} (h : set.IsQuoted) :
    ∃ cs, set.text.toList = '{' :: cs := by
  rcases set with ms | ts | text
  · exact ⟨_, String.toList_ofList⟩
  · exact ⟨_, String.toList_ofList⟩
  · exact h.elim

namespace QueryAxis

/-- The axis of the given number as it is written. -/
def chars (index : Nat) (axis : QueryAxis) : List Char := (QueryAxis.text index axis).toList

theorem chars_eq (index : Nat) (set : AxisSet) (nonEmpty : Bool) :
    chars index ⟨set, nonEmpty⟩ = (if nonEmpty then "NON EMPTY ".toList else []) ++
      (set.text.toList ++ ' ' :: ("ON ".toList ++ (AxisOrdinal.index index).name.toList)) := by
  cases nonEmpty <;> simp [chars, QueryAxis.text]

theorem first (index : Nat) (axis : QueryAxis) (h : axis.set.IsQuoted) :
    ∃ c cs, chars index axis = c :: cs ∧ (c = 'N' ∨ c = '{') := by
  obtain ⟨set, nonEmpty⟩ := axis
  obtain ⟨cs, hset⟩ := h.first
  cases nonEmpty with
  | true => exact ⟨'N', _, chars_eq index set true, .inl rfl⟩
  | false =>
    rw [chars_eq, hset]
    exact ⟨'{', _, rfl, .inr rfl⟩

theorem chars_selfDelimiting (index : Nat) :
    SelfDelimiting (fun axis : QueryAxis => axis.set.IsQuoted) (chars index) [] := by
  have hset := AxisSet.text_selfDelimiting.followed ' '
    ("ON ".toList ++ (AxisOrdinal.index index).name.toList) (by simp)
  have apart : ∀ set set' rest rest', set'.IsQuoted →
      chars index ⟨set, true⟩ ++ rest ≠ chars index ⟨set', false⟩ ++ rest' := by
    intro set set' rest rest' h' he
    obtain ⟨cs, hcs⟩ := h'.first
    rw [chars_eq, chars_eq, hcs] at he
    cases (List.cons.inj he).1
  rintro ⟨set, ⟨⟩ | ⟨⟩⟩ ⟨set', ⟨⟩ | ⟨⟩⟩ rest rest' h h' hr hr' he
  · rw [chars_eq, chars_eq] at he
    obtain ⟨rfl, hrest⟩ := hset set set' rest rest' h h' hr hr' he
    exact ⟨rfl, hrest⟩
  · exact absurd he.symm (apart set' set rest' rest h)
  · exact absurd he (apart set set' rest rest' h')
  · rw [chars_eq, chars_eq] at he
    obtain ⟨rfl, hrest⟩ := hset.prefixed "NON EMPTY ".toList set set' rest rest' h h' hr hr' he
    exact ⟨rfl, hrest⟩

end QueryAxis

theorem Identifier.IsQuoted.requote {i : Identifier} (h : i.IsQuoted) : i.requote = i := by
  have hname : ∀ n : Name, n.IsQuoted → n.requote = n := by
    rintro ⟨value, -⟩ ⟨⟩
    rfl
  have hsegment : ∀ segment : Segment, segment.IsQuoted → segment.requote = segment := by
    rintro (n | parts) hs
    · rw [Segment.requote, hname n hs]
    · rw [Segment.requote, List.map_congr_left fun n hn => hname n (hs.2 n hn), List.map_id']
  obtain ⟨segments⟩ := i
  rw [Identifier.requote, List.map_congr_left fun segment hs => hsegment segment (h.2 segment hs),
    List.map_id']

namespace SelectQuery

/-- The axes as they are written. -/
def axesChars (axes : List QueryAxis) : List Char :=
  [',', ' '].intercalate (axes.mapIdx QueryAxis.chars)

theorem axesChars_selfDelimiting :
    SelfDelimiting (fun axes : List QueryAxis => axes ≠ [] ∧ ∀ axis ∈ axes, axis.set.IsQuoted)
      axesChars [','] :=
  .separated ',' [' '] (by simp) QueryAxis.chars QueryAxis.chars_selfDelimiting

theorem axesText_toList (q : SelectQuery) : q.axesText.toList = axesChars q.axes := by
  have hcomma : ", ".toList = [',', ' '] := rfl
  have haxes : (q.axes.mapIdx QueryAxis.text).map String.toList = q.axes.mapIdx QueryAxis.chars :=
    List.ext_getElem (by simp) fun index _ _ => by simp [QueryAxis.chars]
  rw [axesText, String.toList_intercalate, hcomma, haxes, axesChars]

theorem axesChars_first {axes : List QueryAxis} (hne : axes ≠ [])
    (h : ∀ axis ∈ axes, axis.set.IsQuoted) : ∃ c cs, axesChars axes = c :: cs ∧ c ≠ 'F' := by
  obtain ⟨axis, axes, rfl⟩ := List.exists_cons_of_ne_nil hne
  obtain ⟨c, cs, hchars, hc⟩ := QueryAxis.first 0 axis (h axis List.mem_cons_self)
  have hfirst : (axesChars (axis :: axes)).head? = some c := by
    rcases axes with - | ⟨axis', axes⟩
    · simp [axesChars, hchars]
    · simp [axesChars, List.mapIdx_cons, hchars]
  obtain ⟨cs', hcs'⟩ := List.head?_eq_some_iff.mp hfirst
  refine ⟨c, cs', hcs', ?_⟩
  rcases hc with rfl | rfl <;> decide

/-- What stands between the keyword and the cube. -/
def axesPart (axes : List QueryAxis) : List Char := if axes = [] then [] else ' ' :: axesChars axes

/-- What stands behind the cube. -/
def slicerPart : Option Tuple → List Char
  | some slicer => [' ', 'W', 'H', 'E', 'R', 'E', ' '] ++ slicer.chars
  | none => []

theorem mdx_toList (q : SelectQuery) (h : q.IsQuoted) : q.mdx.toList =
    "SELECT".toList ++ (axesPart q.axes ++
      (" FROM ".toList ++ (q.cube.chars ++ slicerPart q.slicer))) := by
  have hcube : q.cube.uniqueName.toList = q.cube.chars := by
    rw [Identifier.uniqueName, h.cube.requote]
    exact String.toList_ofList
  have haxes : (if q.axesText.isEmpty then "" else " " ++ q.axesText).toList = axesPart q.axes := by
    have hspace : " ".toList = [' '] := rfl
    rw [axesPart, ← axesText_toList]
    by_cases hne : q.axes = []
    · have hempty : q.axesText = "" := by
        rw [← String.toList_inj, axesText_toList, hne]
        rfl
      simp [hempty, hne]
    · obtain ⟨c, cs, hchars, -⟩ := axesChars_first hne h.axes
      have hempty : q.axesText ≠ "" := by
        intro he
        rw [← axesText_toList, he] at hchars
        cases hchars
      simp [hempty, hne]
  obtain ⟨cube, axes, slicer⟩ := q
  cases slicer with
  | none =>
    rw [mdx, String.toList_append, String.toList_append, String.toList_append,
      String.toList_append, haxes, hcube, List.append_assoc, List.append_assoc, List.append_assoc]
    rfl
  | some slicer =>
    have hslicer : (" WHERE " ++ slicer.text).toList = slicerPart (some slicer) := by
      have hwhere : " WHERE ".toList = [' ', 'W', 'H', 'E', 'R', 'E', ' '] := rfl
      rw [String.toList_append, hwhere, Tuple.text, String.toList_ofList, slicerPart]
    rw [mdx, String.toList_append, String.toList_append, String.toList_append,
      String.toList_append, haxes, hcube, hslicer, List.append_assoc, List.append_assoc,
      List.append_assoc]

theorem slicerPart_injective {slicer slicer' : Option Tuple}
    (h : ∀ t, slicer = some t → t.IsQuoted) (h' : ∀ t, slicer' = some t → t.IsQuoted)
    (he : slicerPart slicer = slicerPart slicer') : slicer = slicer' := by
  rcases slicer with - | t <;> rcases slicer' with - | t'
  · rfl
  · cases he
  · cases he
  · have hchars : t.chars ++ [] = t'.chars ++ [] := by
      rw [List.append_nil, List.append_nil]
      exact List.append_cancel_left he
    have hnothing : Avoids [] [] := fun c hc => by cases hc
    rw [(Tuple.chars_selfDelimiting t t' [] [] (h t rfl) (h' t' rfl) hnothing hnothing hchars).1]

theorem slicerPart_avoids (slicer : Option Tuple) : Avoids ['.', '&', ']'] (slicerPart slicer) := by
  cases slicer with
  | none => exact fun c hc => by cases hc
  | some t => exact avoids_cons _ (by decide)

/-- Behind the axes stands the name of the cube, which neither continues them nor is one. -/
theorem axesPart_injective {axes axes' : List QueryAxis} (h : ∀ axis ∈ axes, axis.set.IsQuoted)
    (h' : ∀ axis ∈ axes', axis.set.IsQuoted) (rest rest' : List Char)
    (he : axesPart axes ++ (' ' :: 'F' :: rest) = axesPart axes' ++ (' ' :: 'F' :: rest')) :
    axes = axes' ∧ rest = rest' := by
  have apart : ∀ axes rest rest', axes ≠ [] → (∀ axis ∈ axes, axis.set.IsQuoted) →
      ' ' :: 'F' :: rest ≠ ' ' :: axesChars axes ++ rest' := by
    intro axes rest rest' hne h he
    obtain ⟨c, cs, hchars, hc⟩ := axesChars_first hne h
    rw [hchars] at he
    simp only [List.cons_append, List.cons.injEq] at he
    exact hc he.2.1.symm
  unfold axesPart at he
  by_cases hne : axes = [] <;> by_cases hne' : axes' = []
  · simp only [hne, hne', if_true, List.nil_append, List.cons.injEq, true_and] at he
    exact ⟨by rw [hne, hne'], he⟩
  · rw [if_pos hne, if_neg hne'] at he
    exact absurd he (apart axes' rest _ hne' h')
  · rw [if_neg hne, if_pos hne'] at he
    exact absurd he.symm (apart axes rest' _ hne h)
  · rw [if_neg hne, if_neg hne'] at he
    obtain ⟨rfl, hrest⟩ := axesChars_selfDelimiting axes axes' _ _ ⟨hne, h⟩ ⟨hne', h'⟩
      (avoids_cons _ (by decide)) (avoids_cons _ (by decide)) (List.cons.inj he).2
    simp only [List.cons.injEq, true_and] at hrest
    exact ⟨rfl, hrest⟩

/-- Queries in which every name stands in brackets have the same text only if they are the same. -/
theorem mdx_eq_iff (q q' : SelectQuery) (h : q.IsQuoted) (h' : q'.IsQuoted) :
    q.mdx = q'.mdx ↔ q = q' := by
  refine ⟨fun he => ?_, congrArg mdx⟩
  have hfrom : " FROM ".toList = ' ' :: 'F' :: ['R', 'O', 'M', ' '] := rfl
  rw [← String.toList_inj, mdx_toList q h, mdx_toList q' h', hfrom] at he
  obtain ⟨haxes, hbehind⟩ := axesPart_injective h.axes h'.axes _ _ (List.append_cancel_left he)
  obtain ⟨hcube, hslicer⟩ := Identifier.chars_selfDelimiting q.cube q'.cube _ _ h.cube h'.cube
    (slicerPart_avoids q.slicer) (slicerPart_avoids q'.slicer) (List.append_cancel_left hbehind)
  have hslicers := slicerPart_injective h.slicer h'.slicer hslicer
  obtain ⟨cube, axes, slicer⟩ := q
  obtain ⟨cube', axes', slicer'⟩ := q'
  simp only at haxes hcube hslicers
  rw [haxes, hcube, hslicers]

/-- A name that holds the rest of a query stays a name. -/
theorem mdx_of_hostile_name :
    let cube : Identifier := .ofNames ["Sales"]
    let hostile : SelectQuery :=
      ⟨cube, [⟨.members [.ofNames ["a]\x7d ON COLUMNS FROM [Sales] WHERE ([b"]], false⟩], none⟩
    let plain : SelectQuery :=
      ⟨cube, [⟨.members [.ofNames ["a"]], false⟩], some ⟨[.ofNames ["b"]]⟩⟩
    hostile.IsQuoted ∧ plain.IsQuoted ∧ hostile.mdx ≠ plain.mdx := by
  intro cube hostile plain
  have named : ∀ name, (Identifier.ofNames [name]).IsQuoted := by
    intro name
    refine ⟨by simp [Identifier.ofNames], fun segment hs => ?_⟩
    cases List.mem_singleton.mp hs
    rfl
  have listed : ∀ name nonEmpty, ∀ axis ∈ [(⟨.members [.ofNames [name]], nonEmpty⟩ : QueryAxis)],
      axis.set.IsQuoted := by
    intro name nonEmpty axis haxis
    cases List.mem_singleton.mp haxis
    exact ⟨by simp, fun i hi => List.mem_singleton.mp hi ▸ named name⟩
  have hhostile : hostile.IsQuoted := ⟨named _, listed _ _, by simp [hostile]⟩
  have hplain : plain.IsQuoted := by
    refine ⟨named _, listed _ _, ?_⟩
    rintro t ⟨⟩
    exact ⟨by simp, fun i hi => List.mem_singleton.mp hi ▸ named "b"⟩
  refine ⟨hhostile, hplain, fun he => ?_⟩
  have heq := (mdx_eq_iff hostile plain hhostile hplain).mp he
  cases congrArg SelectQuery.slicer heq

end SelectQuery

end OlapClient
