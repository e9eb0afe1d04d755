import OlapClient.Statement.Execution

/-!
# Responses that cannot be read

Reading a response fails for what the response says and for nothing else: never as cancelled, timed
out, closed or a failure of the transport or the cache. Each function that takes part in reading has
one lemma that says so, from the document up to the result.
-/

namespace OlapClient

/-- The errors that a response can cause. -/
def ClientError.isOfResponse : ClientError → Bool
  | identifier _ | serverFault _ | coordinate _ | unsupported _ | response _ => true
  | _ => false

theorem ClientError.ofError_of_response (e : ClientError) (h : e.isOfResponse = true) :
    Phase.ofError e = .failed := by
  cases e with
  | timedOut bound => cases h
  | cancelled => cases h
  | _ => rfl

/-- If there is no result, the response is the cause. -/
def Reads {α : Type} (r : Except ClientError α) : Prop :=
  ∀ e, r = .error e → e.isOfResponse = true

namespace Reads

variable {α β : Type}

theorem ok (a : α) : Reads (.ok a) := by
  intro e h
  cases h

theorem error (e : ClientError) (h : e.isOfResponse = true) : Reads (.error e : Except _ α) := by
  intro e' he
  cases he
  exact h

theorem bind {r : Except ClientError α} {f : α → Except ClientError β} (hr : Reads r)
    (hf : ∀ a, Reads (f a)) : Reads (r >>= f) := by
  cases r with
  | error e => exact error e (hr e rfl)
  | ok a => exact hf a

theorem map {r : Except ClientError α} (f : α → β) (hr : Reads r) : Reads (r.map f) := by
  cases r with
  | error e => exact error e (hr e rfl)
  | ok a => exact ok (f a)

theorem mapError {ε : Type} (r : Except ε α) (f : ε → ClientError)
    (hf : ∀ e, (f e).isOfResponse = true) : Reads (r.mapError f) := by
  cases r with
  | error e => exact error (f e) (hf e)
  | ok a => exact ok a

theorem mapM {f : α → Except ClientError β} (hf : ∀ a, Reads (f a)) (as : List α) :
    Reads (as.mapM f) := by
  induction as with
  | nil => exact ok []
  | cons a as ih =>
    rw [List.mapM_cons]
    exact (hf a).bind fun b => ih.bind fun bs => ok (b :: bs)

theorem foldlM {f : β → α → Except ClientError β} (hf : ∀ b a, Reads (f b a)) (as : List α)
    (b : β) : Reads (as.foldlM f b) := by
  induction as generalizing b with
  | nil => exact ok b
  | cons a as ih =>
    rw [List.foldlM_cons]
    exact (hf b a).bind fun b' => ih b'

end Reads

open Markup

/-! ### The document -/

theorem Response.root_reads (document : Element) : Reads (Response.root document) := by
  unfold Response.root
  split
  · exact .ok _
  · exact .error _ rfl

theorem Response.payload_reads (bytes : Bytes) : Reads (Response.payload bytes) := by
  unfold Response.payload
  split
  · exact .error _ rfl
  · split
    · exact .error _ rfl
    · exact root_reads _

/-! ### Rows -/

namespace Rowset

theorem setField_reads (columns : List Column) (row : List (Option String)) (field : Element) :
    Reads (setField columns row field) := by
  unfold setField
  split
  · exact .ok _
  · exact .error _ rfl

theorem rowOf_reads (columns : List Column) (row : Element) : Reads (rowOf columns row) :=
  .foldlM (setField_reads columns) row.children _

theorem ofResponse_reads (bytes : Bytes) : Reads (Rowset.ofResponse bytes) := by
  refine (Response.payload_reads bytes).bind fun root => ?_
  have hrows := Reads.mapM (rowOf_reads (columnsOf root)) (root.childrenNamed "row")
  exact hrows.bind fun rows => .ok _

end Rowset

/-! ### Cell sets -/

namespace Dataset

theorem refuse_reads {α : Type} (cause : ResponseError) : Reads (refuse cause : Except _ α) :=
  .error _ rfl

theorem axisOrdinal_reads (e : Element) : Reads (axisOrdinal e) := by
  unfold axisOrdinal
  dsimp only
  split
  · exact .ok _
  · split
    · exact .ok _
    · exact refuse_reads _

theorem memberNumber_reads {α : Type} (read : String → Option α) (field name : String)
    (e : Element) : Reads (memberNumber read field name e) := by
  unfold memberNumber
  split
  · exact .ok _
  · split
    · exact .ok _
    · exact refuse_reads _

theorem memberName_reads (e : Element) : Reads (memberName e) := by
  unfold memberName
  split
  · exact .ok _
  · exact refuse_reads _

theorem member_reads (e : Element) : Reads (member e) := by
  refine (memberName_reads e).bind fun name => ?_
  refine Reads.bind (.mapError _ _ fun _ => rfl) fun identifier => ?_
  have hdepth := memberNumber_reads Text.word? "LNum" name e
  have hinfo := memberNumber_reads Text.integer? "DisplayInfo" name e
  exact hdepth.bind fun depth => hinfo.bind fun info => .ok _

theorem positionsFrom_reads (ordinal : Nat) (es : List Element) :
    Reads (positionsFrom ordinal es) := by
  induction es generalizing ordinal with
  | nil => exact .ok []
  | cons e es ih =>
    have hmembers := Reads.mapM member_reads (e.childrenNamed "Member")
    have hfirst : Reads (position ordinal e) := hmembers.bind fun members => .ok _
    exact hfirst.bind fun first => (ih (ordinal + 1)).bind fun others => .ok _

theorem positions_reads (axis : Element) : Reads (positions axis) := by
  unfold positions
  split
  · exact .error _ rfl
  · split
    · exact .ok _
    · exact positionsFrom_reads 0 _

theorem axesOf_reads (root : Element) : Reads (axesOf root) := by
  have hinfo : ∀ axes info, Reads (addHierarchies axes info) := by
    intro axes info
    exact (axisOrdinal_reads info).bind fun ordinal => .ok _
  have haxis : ∀ axes e, Reads (addPositions axes e) := by
    intro axes e
    exact (axisOrdinal_reads e).bind fun ordinal => (positions_reads e).bind fun ps => .ok _
  exact (Reads.foldlM hinfo _ _).bind fun described => .foldlM haxis _ described

theorem checkContiguous_reads (expected : Nat) (axes : List Axis) :
    Reads (checkContiguous expected axes) := by
  induction axes generalizing expected with
  | nil => exact .ok ()
  | cons axis axes ih =>
    unfold checkContiguous
    split
    · exact ih (expected + 1)
    · exact refuse_reads _

theorem typedValue_reads (e : Element) : Reads (typedValue e) := by
  unfold typedValue
  dsimp only
  -- every branch gives a value or refuses the text
  repeat' split
  all_goals first
    | exact .ok _
    | exact refuse_reads _

theorem cellEntry_reads (e : Element) : Reads (cellEntry e) := by
  unfold cellEntry
  split
  · split
    · exact (typedValue_reads _).bind fun value => .ok _
    · exact .error _ rfl
  · split
    · exact .ok _
    · exact .error _ rfl

theorem cellsOf_reads (root : Element) : Reads (cellsOf root) :=
  (Reads.mapM cellEntry_reads _).bind fun _ => .ok _

end Dataset

namespace CellSet

theorem make_reads (cube : Option String) (axes : List Axis) (filter : Axis)
    (cells : Dictionary Nat CellData) : Reads (make cube axes filter cells) := by
  refine Reads.bind (.mapError _ _ fun _ => rfl) fun total => ?_
  split
  · exact .error _ rfl
  · exact .ok _

theorem ofResponse_reads (bytes : Bytes) : Reads (CellSet.ofResponse bytes) := by
  refine (Response.payload_reads bytes).bind fun root => ?_
  refine (Dataset.axesOf_reads root).bind fun axes => ?_
  refine (Dataset.checkContiguous_reads 0 _).bind fun _ => ?_
  exact (Dataset.cellsOf_reads root).bind fun cells => make_reads _ _ _ cells

end CellSet

/-! ### The end of an execution -/

theorem Execution.readStage_reads (job : Job) (response : Bytes) (cacheHit : Bool) :
    Reads (readStage job response cacheHit) := by
  unfold readStage
  dsimp only
  split
  · exact (CellSet.ofResponse_reads response).map _
  · exact (Rowset.ofResponse_reads response).map _

/-- A response that cannot be read fails the execution. -/
theorem Execution.ofError_of_unreadable (job : Job) (response : Bytes) (cacheHit : Bool)
    (e : ClientError) (h : readStage job response cacheHit = .error e) :
    Phase.ofError e = .failed :=
  e.ofError_of_response (readStage_reads job response cacheHit e h)

end OlapClient
