import OlapClient.Proofs.Statement.Occupancy

/-!
# Hosted executions

A host runs an execution turn by turn and lets others act in between. Seen from outside this is a
run of the scene in which the execution stands: the moves of the others, and between them the
turns of the execution. What holds along all runs of scenes therefore holds of hosted executions.
-/

namespace OlapClient

/-- What happens up to the end of one turn besides the turn itself: moves of others, and the reply
if the turn is a call. -/
structure Interlude where
  moves : List Move
  reply : Reply

/-- A host on a scene. Before its turn of a number, the moves of that number are made. -/
def Scene.host (script : Nat → Interlude) : Host (StateM (Scene × Nat)) where
  act f := fun w =>
    let s := w.1.run (script w.2).moves
    let r := (f s.config s.statement s.desk).2
    (r.1, { s with statement := r.2.1, desk := r.2.2 }, w.2 + 1)
  call _ := fun w => ((script w.2).reply, w.1.run (script w.2).moves, w.2 + 1)
  report _ := pure ()

namespace Scene

/-- The scene with another execution at a number. -/
def put (s : Scene) (n : Nat) (x : Execution) : Scene :=
  { s with executions := s.executions.set n x }

theorem put_put (s : Scene) (n : Nat) (x y : Execution) : (s.put n x).put n y = s.put n y := by
  simp [put]

theorem getElem?_put (s : Scene) (n : Nat) (x : Execution) (hn : n < s.executions.length) :
    (s.put n x).executions[n]? = some x := by
  simp [put, hn]

theorem lt_after (s : Scene) (n : Nat) (m : Move) (hn : n < s.executions.length) :
    n < (s.after m).executions.length := by
  by_cases hm : ∃ job, m = .attempt job
  · obtain ⟨job, rfl⟩ := hm
    have hl : (s.after (.attempt job)).executions.length = s.executions.length + 1 := by
      simp [after]
    omega
  · have hl := s.length_after m (fun job hj => hm ⟨job, hj⟩)
    omega

/-- Others do not look at an execution. -/
theorem put_after (s : Scene) (n : Nat) (x : Execution) (m : Move)
    (hn : n < s.executions.length) (hm : ∀ t, m ≠ .turn n t) :
    (s.put n x).after m = (s.after m).put n x := by
  cases m with
  | attempt job =>
    have hl : (s.executions ++ [s.attempted job]).set n x =
        s.executions.set n x ++ [s.attempted job] := List.set_append_left n x hn
    simp only [after, put, hl]
    rfl
  | turn k t =>
    have hk : n ≠ k := by
      intro he
      exact hm t (by rw [he])
    have hp : (s.put n x).executions[k]? = s.executions[k]? := List.getElem?_set_ne hk
    cases hy : s.executions[k]? with
    | none => rw [s.after_turn_none k t hy, after_turn_none _ k t (hp.trans hy)]
    | some y =>
      rw [s.after_turn_eq k y _ t _ _ hy rfl, after_turn_eq _ k y _ t _ _ (hp.trans hy) rfl]
      simp only [advance, put]
      rw [List.set_comm _ _ hk]
  | setTimeout seconds =>
    by_cases hs : seconds < 0 <;> simp [after, Statement.setTimeout, hs, put]
  | cancel => rfl
  | close => rfl
  | configure config => rfl
  | closeCellSet k => rfl
  | addCellSet cells => rfl
  | setCalls calls => rfl

theorem put_run (s : Scene) (n : Nat) (x : Execution) (ms : List Move)
    (hn : n < s.executions.length) (hm : ∀ m, m ∈ ms → ∀ t, m ≠ .turn n t) :
    (s.put n x).run ms = (s.run ms).put n x ∧ n < (s.run ms).executions.length := by
  induction ms generalizing s with
  | nil => exact ⟨rfl, hn⟩
  | cons m ms ih =>
    have hp := s.put_after n x m hn (hm m List.mem_cons_self)
    rw [run_cons, run_cons, hp]
    exact ih (s.after m) (s.lt_after n m hn) (fun m' hm' => hm m' (List.mem_cons_of_mem m hm'))

/-- Nothing in a script moves the execution of a number. -/
def Leaves (n : Nat) (script : Nat → Interlude) : Prop :=
  ∀ i m, m ∈ (script i).moves → ∀ t, m ≠ .turn n t

theorem turn_hosted (script : Nat → Interlude) (n : Nat) (hs : Leaves n script) (x : Execution)
    (s : Scene) (i : Nat) (hn : n < s.executions.length) :
    ∃ t, (s.put n x).run ((script i).moves ++ [.turn n t]) =
        (x.turn (host script) (s, i)).2.1.put n (x.turn (host script) (s, i)).1 ∧
      n < (x.turn (host script) (s, i)).2.1.executions.length := by
  obtain ⟨hp, hl⟩ := s.put_run n x (script i).moves hn (hs i)
  have hx := getElem?_put _ n x hl
  cases hd : x.demand? with
  | some demand =>
    refine ⟨.reply (script i).reply, ?_, ?_⟩
    · rw [run_append, hp, run_cons, run_nil, after_turn_eq _ n x _ _ _ _ hx rfl]
      simp only [Execution.turn, hd]
      exact put_put _ n x _
    · simp only [Execution.turn, hd]
      exact hl
  | none =>
    refine ⟨.step, ?_, ?_⟩
    · rw [run_append, hp, run_cons, run_nil, after_turn_eq _ n x _ _ _ _ hx rfl]
      simp only [Execution.turn, hd]
      simp [advance, put, host]
    · simp only [Execution.turn, hd]
      exact hl

/-- Hosting an execution for a number of turns is a run of the scene in which it stands. -/
theorem turns_hosted (script : Nat → Interlude) (n : Nat) (hs : Leaves n script) (k : Nat)
    (x : Execution) (s : Scene) (i : Nat) (hn : n < s.executions.length) :
    ∃ ms, (s.put n x).run ms =
      (x.turns (host script) k (s, i)).2.1.put n (x.turns (host script) k (s, i)).1 := by
  induction k generalizing x s i with
  | zero => exact ⟨[], rfl⟩
  | succ k ih =>
    obtain ⟨t, ht, hl⟩ := turn_hosted script n hs x s i hn
    obtain ⟨ms, hms⟩ := ih (x.turn (host script) (s, i)).1 (x.turn (host script) (s, i)).2.1
      (x.turn (host script) (s, i)).2.2 hl
    refine ⟨(script i).moves ++ [.turn n t] ++ ms, ?_⟩
    rw [run_append, ht]
    exact hms

end Scene

end OlapClient
