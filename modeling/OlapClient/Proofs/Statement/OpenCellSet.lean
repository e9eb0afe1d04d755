import OlapClient.Proofs.Statement.Closing

/-!
# The open cell set of a statement

A statement hands out one cell set after the other, and of those at most one is open: the one it
remembers. Admission of a multidimensional job, the next cell set and the closing of the statement
each close it. Cell sets of other statements, and those closed by whoever holds them, change
nothing about that, for a cell set that is closed is never opened again.
-/

namespace OlapClient

/-! ### Cell sets on a desk -/

namespace Desk

/-- Whether the cell set of a number is closed; none if there is no such cell set. -/
def closed? (d : Desk) (n : Nat) : Option Bool := d.cellSets[n]?.map CellSet.isClosed

theorem closed_closeCellSet (d : Desk) (k n : Nat) : (d.closeCellSet k).closed? n =
    if k = n then (d.closed? n).map (fun _ => true) else d.closed? n := by
  rw [closed?, closed?, closeCellSet, List.getElem?_modify]
  by_cases h : k = n
  · cases hc : d.cellSets[n]? <;> simp [h, CellSet.close]
  · cases hc : d.cellSets[n]? <;> simp [h]

theorem closed_addCellSet (d : Desk) (cells : CellSet) (n : Nat) (b : Bool)
    (h : d.closed? n = some b) : (d.addCellSet cells).1.closed? n = some b := by
  have hn : n < d.cellSets.length := by
    cases hc : d.cellSets[n]? with
    | none => simp [closed?, hc] at h
    | some c => exact (List.getElem?_eq_some_iff.mp hc).1
  rw [← h, closed?, closed?, addCellSet, List.getElem?_append_left hn]

/-- Later than a desk: some of its cell sets are closed since, and others are added. -/
def Later (d d' : Desk) : Prop :=
  ∀ n b, d.closed? n = some b → d'.closed? n = some b ∨ d'.closed? n = some true

theorem Later.of_eq {d d' : Desk} (h : d'.cellSets = d.cellSets) : d.Later d' := by
  intro n b hb
  left
  rw [closed?, h]
  exact hb

theorem Later.trans {d d' d'' : Desk} (h : d.Later d') (h' : d'.Later d'') : d.Later d'' := by
  intro n b hb
  obtain h1 | h1 := h n b hb
  · exact h' n b h1
  · obtain h2 | h2 := h' n true h1
    · exact .inr h2
    · exact .inr h2

theorem Later.closed {d d' : Desk} (h : d.Later d') (n : Nat) (hn : d.closed? n = some true) :
    d'.closed? n = some true := by
  obtain h1 | h1 := h n true hn
  · exact h1
  · exact h1

theorem Later.was_open {d d' : Desk} (h : d.Later d') (n : Nat) (hk : d.closed? n ≠ none)
    (hn : d'.closed? n = some false) : d.closed? n = some false := by
  obtain ⟨b, hb⟩ := Option.ne_none_iff_exists'.mp hk
  obtain h1 | h1 := h n b hb
  · rw [hn] at h1
    rw [hb]
    exact h1.symm
  · rw [hn] at h1
    cases h1

theorem later_closeCellSet (d : Desk) (k : Nat) : d.Later (d.closeCellSet k) := by
  intro n b hb
  rw [closed_closeCellSet, hb]
  by_cases hk : k = n
  · exact .inr (by simp [hk])
  · exact .inl (by simp [hk])

theorem later_addCellSet (d : Desk) (cells : CellSet) : d.Later (d.addCellSet cells).1 :=
  fun n b hb => .inl (d.closed_addCellSet cells n b hb)

theorem later_closeLeftOpen (d : Desk) (left : Option Nat) : d.Later (d.closeLeftOpen left) := by
  cases left with
  | none => exact .of_eq rfl
  | some n => exact d.later_closeCellSet n

theorem closed_closeLeftOpen (d : Desk) (n : Nat) (h : d.closed? n ≠ none) :
    (d.closeLeftOpen (some n)).closed? n = some true := by
  obtain ⟨b, hb⟩ := Option.ne_none_iff_exists'.mp h
  show (d.closeCellSet n).closed? n = some true
  rw [closed_closeCellSet, hb]
  simp

end Desk

/-! ### Turns -/

namespace Execution.Advance

variable {x : Execution} {config : Config} {s s' : Statement} {d d' : Desk} {t : Turn} {g : Stage}

/-- A turn leaves all cell sets alone and hands none out, or it hands out a new one. -/
theorem hands_out (h : x.Advance config s d t g s' d') :
    (s'.openCellSet = s.openCellSet ∧ d'.cellSets = d.cellSets ∧
      ∀ n, g = .returned (.ok (.cellSet n)) → x.stage = g) ∨
    ∃ cells, x.stage = .opening cells ∧ s.isClosed = false ∧
      g = .returned (.ok (.cellSet d.cellSets.length)) ∧
      s'.openCellSet = some d.cellSets.length ∧
      d' = ((d.closeLeftOpen s.openCellSet).addCellSet cells).1 := by
  cases h with
  | opensCells cells hs hc => exact .inr ⟨cells, hs, hc, rfl, rfl, rfl⟩
  | recordsFailure m call e => cases e <;> exact .inl ⟨rfl, rfl, by simp⟩
  | rest => exact .inl ⟨rfl, rfl, fun _ _ => rfl⟩
  | readsRows => exact .inl ⟨rfl, rfl, by simp⟩
  | _ => exact .inl ⟨rfl, rfl, by simp⟩

theorem later (h : x.Advance config s d t g s' d') : d.Later d' := by
  obtain ⟨-, hd, -⟩ | ⟨cells, -, -, -, -, rfl⟩ := h.hands_out
  · exact .of_eq hd
  · exact (d.later_closeLeftOpen _).trans (Desk.later_addCellSet _ cells)

end Execution.Advance

namespace Scene

/-! ### Cell sets along a run -/

theorem later_attempt (s : Scene) (job : Job) : s.desk.Later (s.after (.attempt job)).desk := by
  obtain ⟨g, statement, desk, -, he, hentry⟩ := s.attempt_entry job
  rw [he]
  cases hentry with
  | refused => exact .of_eq rfl
  | entered =>
    unfold Desk.makeWay
    split
    · exact s.desk.later_closeLeftOpen _
    · exact .of_eq rfl

theorem close_cellSets (s : Scene) (h : s.statement.isClosed = false) :
    (s.after .close).statement.openCellSet = none ∧
      (s.after .close).desk.cellSets = (s.desk.closeLeftOpen s.statement.openCellSet).cellSets := by
  obtain hp | ⟨call, hp⟩ := Option.eq_none_or_eq_some s.statement.pending
  · have he := s.statement.close_idle s.desk h hp
    simp [Scene.after, he, Statement.shut]
  · by_cases hu : s.desk.calls[call]? = some .unresolved
    · have he := s.statement.close_won s.desk call h hp hu
      simp [Scene.after, he, Statement.shut]
    · have he := s.statement.close_lost s.desk call h hp hu
      simp [Scene.after, he, Statement.shut]

theorem later_after (s : Scene) (m : Move) : s.desk.Later (s.after m).desk := by
  cases m with
  | attempt job => exact s.later_attempt job
  | turn k t =>
    cases hx : s.executions[k]? with
    | none =>
      rw [s.after_turn_none k t hx]
      exact .of_eq rfl
    | some x =>
      obtain ⟨g, statement, desk, he, ha⟩ := s.after_turn k x t hx
      rw [he]
      exact ha.later
  | cancel =>
    obtain ⟨-, -, -, -, -, hd⟩ := s.statement.cancel_keeps s.desk
    exact .of_eq hd
  | close =>
    cases hc : s.statement.isClosed with
    | true =>
      have he := s.statement.close_again s.desk hc
      refine .of_eq ?_
      simp [Scene.after, he]
    | false =>
      have hd := (s.close_cellSets hc).2
      exact (s.desk.later_closeLeftOpen _).trans (.of_eq hd)
  | setTimeout seconds =>
    obtain ⟨timeout, he⟩ := s.after_setTimeout_eq seconds
    rw [he]
    exact .of_eq rfl
  | configure config => exact .of_eq rfl
  | closeCellSet k => exact s.desk.later_closeCellSet k
  | addCellSet cells => exact s.desk.later_addCellSet cells
  | setCalls calls => exact .of_eq rfl

theorem closed_run (s : Scene) (n : Nat) (ms : List Move) (h : s.desk.closed? n = some true) :
    (s.run ms).desk.closed? n = some true :=
  run_keeps (·.desk.closed? n = some true) (fun s m h => (s.later_after m).closed n h) s ms h

/-! ### What a statement hands out -/

/-- The attempt of a number has returned the cell set of a number. -/
def HandedOut (s : Scene) (k n : Nat) : Prop := s.answer? k = some (.ok (.cellSet n))

/-- Of the cell sets that the statement handed out, only the one that it remembers may be open. -/
structure Tidy (s : Scene) : Prop where
  known : ∀ k n, s.HandedOut k n → s.desk.closed? n ≠ none
  distinct : ∀ k k' n, s.HandedOut k n → s.HandedOut k' n → k = k'
  remembered : ∀ k n, s.HandedOut k n → s.desk.closed? n = some false →
    s.statement.openCellSet = some n
  own : ∀ n, s.statement.openCellSet = some n → ∃ k, s.HandedOut k n
  shut : s.statement.isClosed = true → s.statement.openCellSet = none

theorem new_tidy (config : Config) (session : Option String) (desk : Desk) :
    (new config session desk).Tidy := by
  have hnone : ∀ k n, ¬ (new config session desk).HandedOut k n := by
    intro k n h
    simp [HandedOut, new, answer?] at h
  refine ⟨fun k n h => (hnone k n h).elim, fun k _ n h => (hnone k n h).elim,
    fun k n h => (hnone k n h).elim, ?_, ?_⟩
  · intro n h
    cases h
  · intro h
    cases h

theorem HandedOut.after {s : Scene} {k n : Nat} (h : s.HandedOut k n) (m : Move) :
    (s.after m).HandedOut k n :=
  s.answer_after k m _ h

namespace Tidy

variable {s : Scene}

/-- A move that hands out nothing and forgets nothing. -/
theorem keep (h : s.Tidy) {s' : Scene} (hd : s.desk.Later s'.desk)
    (ha : ∀ k n, s'.HandedOut k n ↔ s.HandedOut k n)
    (ho : s'.statement.openCellSet = s.statement.openCellSet)
    (hc : s'.statement.isClosed = s.statement.isClosed) : s'.Tidy := by
  refine ⟨?_, ?_, ?_, ?_, ?_⟩
  · intro k n hk
    obtain ⟨b, hb⟩ := Option.ne_none_iff_exists'.mp (h.known k n ((ha k n).mp hk))
    obtain h1 | h1 := hd n b hb
    · simp [h1]
    · simp [h1]
  · intro k k' n hk hk'
    exact h.distinct k k' n ((ha k n).mp hk) ((ha k' n).mp hk')
  · intro k n hk hopen
    have hk := (ha k n).mp hk
    rw [ho]
    exact h.remembered k n hk (hd.was_open n (h.known k n hk) hopen)
  · intro n hn
    rw [ho] at hn
    obtain ⟨k, hk⟩ := h.own n hn
    exact ⟨k, (ha k n).mpr hk⟩
  · intro hcl
    rw [hc] at hcl
    rw [ho]
    exact h.shut hcl

/-- Once the cell set that the statement remembers is closed, all are. -/
theorem all_closed (h : s.Tidy) (k n : Nat) (hk : s.HandedOut k n) :
    (s.desk.closeLeftOpen s.statement.openCellSet).closed? n = some true := by
  have hl := s.desk.later_closeLeftOpen s.statement.openCellSet
  obtain ⟨b, hb⟩ := Option.ne_none_iff_exists'.mp (h.known k n hk)
  cases b with
  | true => exact hl.closed n hb
  | false =>
    rw [h.remembered k n hk hb]
    exact s.desk.closed_closeLeftOpen n (by simp [hb])

/-- A move that hands out nothing and closes the cell set that the statement remembers. -/
theorem clear (h : s.Tidy) {s' : Scene}
    (hd : (s.desk.closeLeftOpen s.statement.openCellSet).Later s'.desk)
    (ha : ∀ k n, s'.HandedOut k n ↔ s.HandedOut k n)
    (ho : s'.statement.openCellSet = none) : s'.Tidy := by
  have hclosed : ∀ k n, s'.HandedOut k n → s'.desk.closed? n = some true :=
    fun k n hk => hd.closed n (h.all_closed k n ((ha k n).mp hk))
  refine ⟨?_, ?_, ?_, ?_, fun _ => ho⟩
  · intro k n hk
    simp [hclosed k n hk]
  · intro k k' n hk hk'
    exact h.distinct k k' n ((ha k n).mp hk) ((ha k' n).mp hk')
  · intro k n hk hopen
    rw [hclosed k n hk] at hopen
    cases hopen
  · intro n hn
    rw [ho] at hn
    cases hn

/-- A move that hands out one more cell set, which the statement remembers instead. -/
theorem hand_out (h : s.Tidy) {s' : Scene} {i : Nat} {cells : CellSet}
    (hd : s'.desk = ((s.desk.closeLeftOpen s.statement.openCellSet).addCellSet cells).1)
    (ha : ∀ k n, s'.HandedOut k n ↔
      (k = i ∧ n = s.desk.cellSets.length) ∨ (k ≠ i ∧ s.HandedOut k n))
    (ho : s'.statement.openCellSet = some s.desk.cellSets.length)
    (hc : s'.statement.isClosed = false) : s'.Tidy := by
  -- the new cell set comes after all that are there, and those are closed
  have hnew : ∀ k, ¬ s.HandedOut k s.desk.cellSets.length := by
    intro k hk
    exact h.known k _ hk (by simp [Desk.closed?])
  have hold : ∀ k n, s.HandedOut k n → s'.desk.closed? n = some true := by
    intro k n hk
    rw [hd]
    exact (Desk.later_addCellSet _ cells).closed n (h.all_closed k n hk)
  refine ⟨?_, ?_, ?_, ?_, ?_⟩
  · intro k n hk
    obtain ⟨-, rfl⟩ | ⟨-, hk⟩ := (ha k n).mp hk
    · rw [hd]
      simp [Desk.closed?, Desk.addCellSet,
        ← closeLeftOpen_length s.desk s.statement.openCellSet]
    · simp [hold k n hk]
  · intro k k' n hk hk'
    obtain ⟨rfl, rfl⟩ | ⟨-, hk⟩ := (ha k n).mp hk
    · obtain ⟨rfl, -⟩ | ⟨-, hk'⟩ := (ha k' _).mp hk'
      · rfl
      · exact (hnew k' hk').elim
    · obtain ⟨rfl, rfl⟩ | ⟨-, hk'⟩ := (ha k' n).mp hk'
      · exact (hnew k hk).elim
      · exact h.distinct k k' n hk hk'
  · intro k n hk hn
    obtain ⟨-, rfl⟩ | ⟨-, hk⟩ := (ha k n).mp hk
    · exact ho
    · rw [hold k n hk] at hn
      cases hn
  · intro n hn
    rw [ho] at hn
    cases hn
    exact ⟨i, (ha i _).mpr (.inl ⟨rfl, rfl⟩)⟩
  · intro hcl
    rw [hc] at hcl
    cases hcl

end Tidy

theorem handedOut_attempt (s : Scene) (job : Job) (k n : Nat) :
    (s.after (.attempt job)).HandedOut k n ↔ s.HandedOut k n := by
  refine ⟨?_, fun h => h.after _⟩
  intro h
  have hex : (s.after (.attempt job)).executions = s.executions ++ [s.attempted job] := rfl
  rw [HandedOut, answer?, hex, List.getElem?_append] at h
  split at h
  · exact h
  · rw [List.getElem?_singleton] at h
    split at h
    · obtain ha | ⟨e, ha⟩ := s.attempted_stage job
      · simp [Execution.result?, ha] at h
      · simp [Execution.result?, ha] at h
    · cases h

theorem handedOut_after (s : Scene) (m : Move) (ht : ∀ k t, m ≠ .turn k t) (k n : Nat) :
    (s.after m).HandedOut k n ↔ s.HandedOut k n := by
  by_cases ha : ∃ job, m = .attempt job
  · obtain ⟨job, rfl⟩ := ha
    exact s.handedOut_attempt job k n
  · refine ⟨?_, fun h => h.after m⟩
    intro h
    have hl := s.length_after m (fun job hj => ha ⟨job, hj⟩)
    cases hx : s.executions[k]? with
    | none =>
      have hn : (s.after m).executions[k]? = none := by
        rw [List.getElem?_eq_none_iff] at hx ⊢
        omega
      simp [HandedOut, answer?, hn] at h
    | some x =>
      have hk := s.getElem?_after k x m hx (fun t => ht k t)
      rw [HandedOut, answer?, hk] at h
      rw [HandedOut, answer?, hx]
      exact h

theorem handedOut_advance (s : Scene) (i : Nat) (x : Execution) (g : Stage) (statement : Statement)
    (desk : Desk) (hx : s.executions[i]? = some x) (k n : Nat) :
    (s.advance i (x.goTo g) statement desk).HandedOut k n ↔
      (k = i ∧ g = .returned (.ok (.cellSet n))) ∨ (k ≠ i ∧ s.HandedOut k n) := by
  by_cases hk : k = i
  · subst hk
    have hg := s.getElem?_advance_self k (x.goTo g) x statement desk hx
    rw [HandedOut, answer?, hg]
    cases g <;> simp [Execution.result?]
  · have hg : (s.advance i (x.goTo g) statement desk).executions[k]? = s.executions[k]? :=
      List.getElem?_set_ne (fun he => hk he.symm)
    simp [HandedOut, answer?, hg, hk]

/-! ### Every scene -/

theorem Tidy.after_attempt {s : Scene} (h : s.Tidy) (job : Job) :
    (s.after (.attempt job)).Tidy := by
  have ha := s.handedOut_attempt job
  have hl := s.later_attempt job
  obtain ⟨g, statement, desk, -, he, hentry⟩ := s.attempt_entry job
  rw [he] at ha hl ⊢
  cases hentry with
  | refused => exact h.keep hl ha rfl rfl
  | entered phase g hc =>
    cases hj : job.isMultidimensional with
    | true =>
      refine h.clear (.of_eq ?_) ha ?_
      · show (s.desk.makeWay s.statement job).cellSets = _
        rw [Desk.makeWay, if_pos hj]
      · show (s.statement.makeWay job).openCellSet = none
        rw [Statement.makeWay, if_pos hj]
    | false =>
      refine h.keep hl ha ?_ (s.statement.makeWay_isClosed job)
      show (s.statement.makeWay job).openCellSet = _
      rw [Statement.makeWay, hj]
      rfl

theorem Tidy.after_turn {s : Scene} (h : s.Tidy) (i : Nat) (t : Turn) :
    (s.after (.turn i t)).Tidy := by
  cases hx : s.executions[i]? with
  | none =>
    rw [s.after_turn_none i t hx]
    exact h
  | some x =>
    obtain ⟨g, statement, desk, he, ha⟩ := s.after_turn i x t hx
    have hout := s.handedOut_advance i x g statement desk hx
    rw [he]
    obtain ⟨ho, -, hret⟩ | ⟨cells, -, hopen, rfl, ho, rfl⟩ := ha.hands_out
    · refine h.keep ha.later ?_ ho ha.isClosed
      intro k n
      refine ⟨?_, ?_⟩
      · intro hk
        obtain ⟨rfl, hg⟩ | ⟨-, hk⟩ := (hout k n).mp hk
        · rw [HandedOut, answer?, hx]
          simp [Execution.result?, hret n hg, hg]
        · exact hk
      · intro hk
        rw [← he]
        exact hk.after _
    · refine h.hand_out (i := i) rfl ?_ ho (ha.isClosed.trans hopen)
      intro k n
      simpa [eq_comm] using hout k n

theorem Tidy.after {s : Scene} (h : s.Tidy) (m : Move) : (s.after m).Tidy := by
  cases m with
  | attempt job => exact h.after_attempt job
  | turn k t => exact h.after_turn k t
  | cancel =>
    obtain ⟨-, -, -, hc, ho, -⟩ := s.statement.cancel_keeps s.desk
    exact h.keep (s.later_after .cancel) (s.handedOut_after .cancel (by simp)) ho hc
  | close =>
    have ha := s.handedOut_after .close (by simp)
    cases hc : s.statement.isClosed with
    | true =>
      have he := s.statement.close_again s.desk hc
      exact h.keep (s.later_after .close) ha (by simp [Scene.after, he]) (by simp [Scene.after, he])
    | false =>
      obtain ⟨ho, hd⟩ := s.close_cellSets hc
      exact h.clear (.of_eq hd) ha ho
  | setTimeout seconds =>
    have ha := s.handedOut_after (.setTimeout seconds) (by simp)
    obtain ⟨timeout, he⟩ := s.after_setTimeout_eq seconds
    rw [he] at ha ⊢
    exact h.keep (.of_eq rfl) ha rfl rfl
  | configure config => exact h.keep (.of_eq rfl) (s.handedOut_after _ (by simp)) rfl rfl
  | closeCellSet k =>
    exact h.keep (s.desk.later_closeCellSet k) (s.handedOut_after _ (by simp)) rfl rfl
  | addCellSet cells =>
    exact h.keep (s.desk.later_addCellSet cells) (s.handedOut_after _ (by simp)) rfl rfl
  | setCalls calls => exact h.keep (.of_eq rfl) (s.handedOut_after _ (by simp)) rfl rfl

theorem Tidy.run {s : Scene} (h : s.Tidy) (ms : List Move) : (s.run ms).Tidy :=
  run_keeps Tidy (fun _ m h => h.after m) s ms h

theorem cellSets_after_turn (s : Scene) (ht : s.Typed) (k : Nat) (x : Execution)
    (hx : s.executions[k]? = some x) (hj : x.job.isMultidimensional = false) (t : Turn) :
    (s.after (.turn k t)).desk.cellSets = s.desk.cellSets := by
  obtain ⟨g, statement, desk, he, ha⟩ := s.after_turn k x t hx
  rw [he]
  obtain ⟨-, hd, -⟩ | ⟨cells, hs, -⟩ := ha.hands_out
  · exact hd
  · have hm := ht k x hx (by rw [hs]; rfl)
    rw [hj] at hm
    cases hm

theorem cellSets_after_attempt (s : Scene) (job : Job) (hj : job.isMultidimensional = false) :
    (s.after (.attempt job)).desk.cellSets = s.desk.cellSets := by
  obtain ⟨g, statement, desk, -, he, hentry⟩ := s.attempt_entry job
  rw [he]
  cases hentry with
  | refused => rfl
  | entered =>
    show (s.desk.makeWay s.statement job).cellSets = _
    rw [Desk.makeWay, hj]
    rfl

theorem demand_after_attempt (s : Scene) (job : Job) :
    (s.after (.attempt job)).demand? s.executions.length = none := by
  have hd : (s.after (.attempt job)).demand? s.executions.length = (s.attempted job).demand? := by
    simp [demand?, Scene.after]
  rw [hd]
  obtain ha | ⟨e, ha⟩ := s.attempted_stage job
  · simp [Execution.demand?, ha]
  · simp [Execution.demand?, ha]

/-- At every moment at most one of the cell sets that a statement handed out is open: the one that
it remembers, while the statement itself is open. A multidimensional job that is let in closes it
for good before it calls anybody outside, and other jobs close none. -/
theorem open_cellSet_unique (config : Config) (session : Option String) (desk : Desk)
    (ms : List Move) (s : Scene) (hs : (new config session desk).run ms = s) :
    (∀ k k' n n', s.HandedOut k n → s.HandedOut k' n' → s.desk.closed? n = some false →
      s.desk.closed? n' = some false → k = k' ∧ n = n') ∧
    (∀ k n, s.HandedOut k n → s.desk.closed? n = some true ∨
      (s.desk.closed? n = some false ∧ s.statement.openCellSet = some n ∧
        s.statement.isClosed = false)) ∧
    (∀ job n, job.isMultidimensional = true → s.statement.isClosed = false →
      s.statement.phase ≠ .submitted → s.statement.openCellSet = some n →
      (s.after (.attempt job)).demand? s.executions.length = none ∧
        ∀ ns, ((s.after (.attempt job)).run ns).desk.closed? n = some true) ∧
    (∀ job, job.isMultidimensional = false →
      (s.after (.attempt job)).desk.cellSets = s.desk.cellSets) ∧
    ∀ k x t, s.executions[k]? = some x → x.job.isMultidimensional = false →
      (s.after (.turn k t)).desk.cellSets = s.desk.cellSets := by
  have h : s.Tidy := by
    rw [← hs]
    exact (new_tidy config session desk).run ms
  have ht : s.Typed := by
    rw [← hs]
    exact run_keeps Typed (fun _ m h => h.after m) _ ms (new_typed config session desk)
  refine ⟨?_, ?_, ?_, s.cellSets_after_attempt,
    fun k x t hx hj => s.cellSets_after_turn ht k x hx hj t⟩
  · intro k k' n n' hk hk' hn hn'
    have hsame := (h.remembered k n hk hn).symm.trans (h.remembered k' n' hk' hn')
    cases hsame
    exact ⟨h.distinct k k' n hk hk', rfl⟩
  · intro k n hk
    obtain ⟨b, hb⟩ := Option.ne_none_iff_exists'.mp (h.known k n hk)
    cases b with
    | true => exact .inl hb
    | false =>
      have ho := h.remembered k n hk hb
      refine .inr ⟨hb, ho, ?_⟩
      cases hc : s.statement.isClosed with
      | false => rfl
      | true =>
        rw [h.shut hc] at ho
        cases ho
  · intro job n hj hc hp hn
    refine ⟨s.demand_after_attempt job, ?_⟩
    intro ns
    obtain ⟨k, hk⟩ := h.own n hn
    refine closed_run _ n ns ?_
    obtain ⟨-, -, -, -, -, hd⟩ := s.entry_of_entered job hc hp
    rw [hd, Desk.makeWay, if_pos hj]
    exact h.all_closed k n hk

/-! ### Two cell sets, one after the other -/

/-- The cell set of an empty result. -/
def emptyCells : CellSet where
  cube := none
  axes := []
  filter := { ordinal := .filter }
  cells := {}
  statistics := ⟨false, 7⟩

theorem read_emptyCells :
    Execution.readStage (.cells "") emptyResult false = .ok (.opening emptyCells) := by
  have hr : CellSet.ofRoot { name := "root" } = .ok { emptyCells with statistics := {} } := rfl
  have ho : CellSet.ofResponse emptyResult = .ok { emptyCells with statistics := {} } := by
    rw [CellSet.ofResponse, payload_emptyResult]
    exact hr
  rw [Execution.readStage, ho]
  rfl

/-- An execution with a multidimensional result, up to its response. -/
def untilCells (n : Nat) : List Move :=
  [.attempt (.cells ""), .turn n .step, .turn n .step, .turn n (.reply (.submitted (.ok 0))),
    .turn n .step, .turn n (.reply (.waited (.ok emptyResult))), .turn n .step]

/-- Its response is read, and its cell set handed out. -/
def handOver (n : Nat) : List Move := [.turn n .step, .turn n .step]

def handed (n : Nat) : Execution := ⟨.cells "", none, none, .returned (.ok (.cellSet n))⟩

def firstScene : Scene where
  config := {}
  session := none
  statement := { phase := .completed, openCellSet := some 0 }
  desk := { cellSets := [emptyCells] }
  executions := [handed 0]

def secondScene : Scene where
  config := {}
  session := none
  statement := { phase := .completed, openCellSet := some 1 }
  desk := { cellSets := [emptyCells.close, emptyCells] }
  executions := [handed 0, handed 1]

theorem after_read_cells (s : Scene) (n : Nat) (x : Execution) (hx : s.executions[n]? = some x)
    (hj : x.job = .cells "") (hg : x.stage = .reading emptyResult false) :
    s.after (.turn n .step) = s.advance n (x.goTo (.opening emptyCells))
      { s.statement with phase := .completed } s.desk := by
  refine s.after_turn_eq n x _ .step _ _ hx ?_
  simp [Execution.take, Execution.step, hg, Execution.read, hj, read_emptyCells]

theorem run_first : (new {} none {}).run (untilCells 0 ++ handOver 0) = firstScene := by
  rw [run_append, handOver, run_cons, after_read_cells _ 0 _ rfl rfl rfl]
  rfl

theorem run_second : firstScene.run (untilCells 1 ++ handOver 1) = secondScene := by
  rw [run_append, handOver, run_cons, after_read_cells _ 1 _ rfl rfl rfl]
  rfl

theorem second_cellSet_open :
    secondScene.desk.closed? 0 = some true ∧ secondScene.desk.closed? 1 = some false ∧
      secondScene.HandedOut 0 0 ∧ secondScene.HandedOut 1 1 ∧
      (secondScene.run (untilCells 2)).desk.closed? 1 = some true ∧
      ∀ k n, secondScene.HandedOut k n → secondScene.desk.closed? n = some false →
        k = 1 ∧ n = 1 := by
  have hrun : (new {} none {}).run (untilCells 0 ++ handOver 0 ++ (untilCells 1 ++ handOver 1)) =
      secondScene := by
    rw [run_append, run_first, run_second]
  obtain ⟨hone, -, hclosed, -⟩ := open_cellSet_unique {} none {} _ secondScene hrun
  refine ⟨rfl, rfl, rfl, rfl, ?_, ?_⟩
  · exact (hclosed (.cells "") 1 rfl rfl (by decide) rfl).2 (untilCells 2).tail
  · intro k n hk hn
    exact hone k 1 n 1 hk rfl hn rfl

end Scene

end OlapClient
