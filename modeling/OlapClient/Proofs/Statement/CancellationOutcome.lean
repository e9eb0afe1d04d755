import OlapClient.Proofs.Statement.Cancellation

/-!
# The outcome of cancellations

A cancellation that no look of the execution finds in time, and that finds no unresolved call, is
lost: up to the flag between the last look before the submission and the knowledge of the call, the
run is the run without it. With that, and with the doom of all other executions, every run around
an execution that is cancelled in time ends in one of two ways.
-/

namespace OlapClient

/-! ### The flag apart -/

/-- The statement with the flag down. -/
def Statement.lower (s : Statement) : Statement := { s with cancelRequested := false }

theorem Statement.lower_of_flag (s : Statement) (h : s.cancelRequested = false) : s.lower = s := by
  cases s
  cases h
  rfl

namespace Execution

variable (x : Execution) (t : Turn) (config : Config) (s : Statement) (d : Desk)

theorem take_lower_of_submitting (m : Message) (h : x.stage = .submitting m) :
    x.take t config s.lower d =
      ((x.take t config s d).1, (x.take t config s d).2.1.lower, (x.take t config s d).2.2) := by
  cases t with
  | step => simp [take, step, h]
  | reply r => rfl
  | waited => rfl

theorem take_lower_of_resting (h : x.stage.isRunning = false) :
    x.take t config s.lower d =
      ((x.take t config s d).1, (x.take t config s d).2.1.lower, (x.take t config s d).2.2) := by
  cases t with
  | step =>
    cases hs : x.stage with
    | opening cells =>
      cases hc : s.isClosed <;> simp [take, step, hs, openCells, Statement.lower, hc]
    | returned r => simp [take, step, hs]
    | _ => rw [hs] at h; cases h
  | reply r => rfl
  | waited => rfl

theorem take_register (m : Message) (call : Nat) (h : x.stage = .registering m call) :
    (x.take .step config s d).1 = x.goTo (.waiting m call) := by
  cases hf : s.cancelRequested <;> simp [take, step, h, register, hf]

/-- A cancellation that came too late for the call is forgotten with the knowledge of it. -/
theorem take_lower_of_registering (m : Message) (call : Nat) (h : x.stage = .registering m call)
    (hc : s.cancelRequested = true → d.calls[call]? ≠ some .unresolved) :
    x.take .step config s.lower d = x.take .step config s d := by
  cases hf : s.cancelRequested with
  | false => rw [s.lower_of_flag hf]
  | true =>
    have hl := cancelCall_lost d call (hc hf)
    simp [take, step, h, register, Statement.lower, hf, hl]

theorem Advance.flag_of_submission {x : Execution} {config : Config} {s s' : Statement}
    {d d' : Desk} {t : Turn} {g : Stage} (h : x.Advance config s d t g s' d')
    (hx : x.stage.isUnregistered = false) (hg : g.isUnregistered = true) :
    s'.cancelRequested = false := by
  cases h with
  | rest => simp_all
  | submits m hs hf => exact hf
  | accepted m hs call => rw [hs] at hx; cases hx
  | _ => cases hg

end Execution

namespace Move

def isCancel : Move → Bool
  | .cancel => true
  | _ => false

end Move

/-- A run without its cancellations. -/
def withoutCancels (ms : List Move) : List Move := ms.filter fun m => !m.isCancel

namespace Scene

/-- The scene with the flag down. -/
def lower (s : Scene) : Scene := { s with statement := s.statement.lower }

theorem lower_of_flag (s : Scene) (h : s.statement.cancelRequested = false) : s.lower = s := by
  rw [lower, s.statement.lower_of_flag h]

/-- The scene as it is without the cancellations that are still to be noticed after the
submission. -/
def mask (n : Nat) (s : Scene) : Scene := if s.isAt n Stage.isUnregistered then s.lower else s

theorem mask_of (n : Nat) (s : Scene) (h : s.isAt n Stage.isUnregistered = true) :
    s.mask n = s.lower := by
  rw [mask, if_pos h]

theorem mask_of_not (n : Nat) (s : Scene) (h : s.isAt n Stage.isUnregistered = false) :
    s.mask n = s := by
  rw [mask, h]
  rfl

theorem answer_mask (n : Nat) (s : Scene) : (s.mask n).answer? n = s.answer? n := by
  unfold mask
  split <;> rfl

theorem after_turn_lower (s : Scene) (n : Nat) (x : Execution) (t : Turn)
    (hx : s.executions[n]? = some x)
    (he : x.take t s.config s.statement.lower s.desk =
      ((x.take t s.config s.statement s.desk).1,
        (x.take t s.config s.statement s.desk).2.1.lower,
        (x.take t s.config s.statement s.desk).2.2)) :
    s.lower.after (.turn n t) = (s.after (.turn n t)).lower := by
  rw [s.lower.after_turn_eq n x _ t _ _ hx he, s.after_turn_eq n x _ t _ _ hx rfl]
  rfl

/-- Between the last look before the submission and the knowledge of the call, what others do
does not depend on the flag. -/
theorem Runs.after_lower {s : Scene} {n : Nat} {x : Execution} (h : s.Runs n x)
    (hx : x.stage.pending? = none) (m : Move) (hm : ∀ t, m ≠ .turn n t) (hc : m ≠ .cancel) :
    s.lower.after m = (s.after m).lower := by
  have hp := h.pending.trans hx
  cases m with
  | attempt job =>
    cases hcl : s.statement.isClosed with
    | true =>
      rw [s.after_attempt_refused job _ (s.statement.start_closed s.desk job s.session hcl),
        s.lower.after_attempt_refused job _
          (s.statement.lower.start_closed s.desk job s.session hcl)]
      rfl
    | false =>
      rw [s.after_attempt_refused job _ (s.statement.start_busy s.desk job s.session hcl h.phase),
        s.lower.after_attempt_refused job _
          (s.statement.lower.start_busy s.desk job s.session hcl h.phase)]
      rfl
  | turn k t =>
    have hk : k ≠ n := by
      intro he
      exact hm t (by rw [he])
    cases hy : s.executions[k]? with
    | none =>
      rw [s.after_turn_none k t hy, s.lower.after_turn_none k t hy]
    | some y =>
      have hr := h.resting k hk y hy
      exact s.after_turn_lower k y t hy (y.take_lower_of_resting t _ _ _ hr)
  | cancel => exact absurd rfl hc
  | close =>
    cases hcl : s.statement.isClosed with
    | true =>
      have hs := s.statement.close_again s.desk hcl
      have hl := s.statement.lower.close_again s.desk hcl
      simp only [Scene.after, lower, hs, hl]
    | false =>
      have hs := s.statement.close_idle s.desk hcl hp
      have hl := s.statement.lower.close_idle s.desk hcl hp
      simp only [Scene.after, lower, hs, hl]
      rfl
  | setTimeout seconds =>
    by_cases hs : seconds < 0 <;>
      simp [Scene.after, Statement.setTimeout, hs, lower, Statement.lower]
  | configure config => rfl
  | closeCellSet k => rfl
  | addCellSet cells => rfl
  | setCalls calls => rfl

theorem mask_after_unregistered (s : Scene) (n : Nat) (x : Execution) (t : Turn)
    (hx : s.executions[n]? = some x) (hu : x.stage.isUnregistered = true)
    (ht : ∀ e, t ≠ .reply (.submitted (.error e))) (hh : ¬ s.Hit n (.turn n t)) :
    (s.after (.turn n t)).mask n = s.lower.after (.turn n t) := by
  cases hs : x.stage with
  | submitting m =>
    rw [s.after_turn_lower n x t hx (x.take_lower_of_submitting t _ _ _ m hs)]
    refine mask_of n _ ?_
    obtain ⟨g, statement, desk, he, ha⟩ := s.after_turn n x t hx
    rw [he, isAt_of _ n _ _ (s.getElem?_advance_self n _ x statement desk hx)]
    cases ha with
    | rest => exact hu
    | accepted => rfl
    | submitFails m hs e => exact absurd rfl (ht e)
    | _ => simp_all
  | registering m call =>
    cases t with
    | step =>
      have hc : s.statement.cancelRequested = true → s.desk.calls[call]? ≠ some .unresolved :=
        fun hf hc => hh (.noticed x m call hx hs hf hc)
      have he := x.take_lower_of_registering s.config s.statement s.desk m call hs hc
      rw [s.lower.after_turn_eq n x _ .step _ _ hx he, s.after_turn_eq n x _ .step _ _ hx rfl]
      refine mask_of_not n _ ?_
      rw [isAt_of _ n _ _ (s.getElem?_advance_self n _ x _ _ hx)]
      exact congrArg (·.stage.isUnregistered)
        (x.take_register s.config s.statement s.desk m call hs)
    | reply r =>
      have he : x.take (.reply r) s.config s.statement s.desk = (x, s.statement, s.desk) := by
        simp [Execution.take, Execution.resume, hs]
      have hl : x.take (.reply r) s.config s.statement.lower s.desk =
          (x, s.statement.lower, s.desk) := by
        simp [Execution.take, Execution.resume, hs]
      rw [s.lower.after_turn_eq n x _ _ _ _ hx hl, s.after_turn_eq n x _ _ _ _ hx he]
      refine mask_of n _ ?_
      rw [isAt_of _ n _ _ (s.getElem?_advance_self n _ x _ _ hx)]
      exact hu
    | waited =>
      have he : x.take .waited s.config s.statement s.desk = (x, s.statement, s.desk) := by
        simp [Execution.take, Execution.endWait, hs]
      have hl : x.take .waited s.config s.statement.lower s.desk =
          (x, s.statement.lower, s.desk) := by
        simp [Execution.take, Execution.endWait, hs]
      rw [s.lower.after_turn_eq n x _ _ _ _ hx hl, s.after_turn_eq n x _ _ _ _ hx he]
      refine mask_of n _ ?_
      rw [isAt_of _ n _ _ (s.getElem?_advance_self n _ x _ _ hx)]
      exact hu
  | _ => rw [hs] at hu; cases hu

/-- What is no cancellation does to the masked scene what it does to the scene. -/
theorem mask_after (s : Scene) (n : Nat) (job : Job) (hc : s.Concerns n job) (m : Move)
    (hm : m ≠ .cancel) (hp : s.Proper n m) (hh : ¬ s.Hit n m) :
    (s.after m).mask n = (s.mask n).after m := by
  obtain ⟨ho, x, hx, -⟩ := hc
  have hn := s.isAt_of n Stage.isUnregistered x hx
  obtain ⟨t, g, statement, desk, rfl, he, ha, hg⟩ | ⟨hm', hk⟩ := s.after_cases n x m hx
  · cases hu : x.stage.isUnregistered with
    | true =>
      rw [s.mask_of n (hn.trans hu)]
      refine s.mask_after_unregistered n x t hx hu ?_ hh
      intro e ht
      exact hp.submitted e (by rw [ht])
    | false =>
      rw [s.mask_of_not n (hn.trans hu)]
      cases hu' : g.isUnregistered with
      | false => exact mask_of_not n _ ((isAt_of _ n _ _ hg).trans hu')
      | true =>
        -- on entry the flag is down, so that the mask changes nothing
        rw [mask_of n _ ((isAt_of _ n _ _ hg).trans hu')]
        refine lower_of_flag _ ?_
        rw [he]
        exact ha.flag_of_submission hu hu'
  · have hn' := isAt_of _ n Stage.isUnregistered x hk
    cases hu : x.stage.isUnregistered with
    | true =>
      have hrun := ho.runs n x hx (x.stage.running_of_unregistered hu)
      rw [s.mask_of n (hn.trans hu), mask_of n _ (hn'.trans hu)]
      exact (hrun.after_lower (x.stage.pending_of_unregistered hu) m hm' hm).symm
    | false => rw [s.mask_of_not n (hn.trans hu), mask_of_not n _ (hn'.trans hu)]

/-- A cancellation that comes after the last look before the submission, and finds no unresolved
call, is masked. -/
theorem mask_after_cancel (s : Scene) (n : Nat) (job : Job) (hc : s.Concerns n job)
    (hp : s.Proper n .cancel) (he : ¬ s.Early n .cancel) (hh : ¬ s.Hit n .cancel) :
    (s.after .cancel).mask n = s.mask n := by
  obtain ⟨ho, x, hx, -⟩ := hc
  have hd := hp.timely rfl
  rw [s.isAt_of n _ x hx] at hd
  have hrun := ho.runs n x hx (x.stage.running_of_undecided hd)
  have hx' : (s.after .cancel).executions[n]? = some x := hx
  cases hu : x.stage.isUnregistered with
  | true =>
    have hcan := s.statement.cancel_early s.desk
      (hrun.pending.trans (x.stage.pending_of_unregistered hu))
    rw [s.mask_of n ((s.isAt_of n _ x hx).trans hu), mask_of n _ ((isAt_of _ n _ x hx').trans hu)]
    simp only [Scene.after, hcan]
    rfl
  | false =>
    have hne : x.stage.isEarly = false := by
      cases hxe : x.stage.isEarly with
      | false => rfl
      | true => exact absurd ⟨rfl, (s.isAt_of n _ x hx).trans hxe⟩ he
    have ha : x.stage.isAwaited = true := by
      simpa [Stage.isUndecided, hu, hne] using hd
    obtain ⟨call, hcall⟩ := x.stage.pending_of_awaited ha
    have hpen := hrun.pending.trans hcall
    have hlost : s.desk.calls[call]? ≠ some .unresolved :=
      fun hun => hh (.cancelled call hpen hun ((s.isAt_of n _ x hx).trans ha))
    have hcan := s.statement.cancel_lost s.desk call hpen hlost
    have hsame : s.after .cancel = s := by
      simp [Scene.after, hcan]
    rw [hsame]

/-- A run whose cancellations are lost is, masked, the run without them. -/
theorem mask_run (s : Scene) (n : Nat) (job : Job) (hc : s.Concerns n job) (ms : List Move)
    (hp : s.Always (Proper n) ms) (he : ¬ s.Sometime (Early n) ms)
    (hh : ¬ s.Sometime (Hit n) ms) : (s.run ms).mask n = (s.mask n).run (withoutCancels ms) := by
  induction ms generalizing s with
  | nil => rfl
  | cons m ms ih =>
    obtain ⟨hm, hms⟩ := hp
    obtain ⟨hem, hems⟩ := not_or.mp he
    obtain ⟨hhm, hhms⟩ := not_or.mp hh
    rw [run_cons, ih (s.after m) (hc.after m) hms hems hhms]
    -- a lost cancellation drops out, and any other move commutes with the mask
    by_cases hcan : m = .cancel
    · subst hcan
      rw [s.mask_after_cancel n job hc hm hem hhm]
      rfl
    · have hf : withoutCancels (m :: ms) = m :: withoutCancels ms := by
        cases m <;> first | rfl | exact absurd rfl hcan
      rw [hf, run_cons, s.mask_after n job hc m hcan hm hhm]

/-! ### The outcome -/

theorem answer_of_unregistered (s : Scene) (n : Nat)
    (h : s.isAt n Stage.isUnregistered = true) : s.answer? n = none := by
  obtain ⟨x, hx, hu⟩ := (s.isAt_iff n _).mp h
  cases hs : x.stage with
  | returned r => rw [hs] at hu; cases hu
  | _ => simp [answer?, hx, Execution.result?, hs]

theorem not_sometime (P Q : Scene → Move → Prop) (hPQ : ∀ s m, P s m → ¬ Q s m) (s : Scene)
    (ms : List Move) (h : s.Always P ms) : ¬ s.Sometime Q ms := by
  induction ms generalizing s with
  | nil => exact id
  | cons m ms ih =>
    obtain ⟨hm, hms⟩ := h
    rintro (hq | hq)
    · exact hPQ s m hm hq
    · exact ih (s.after m) hms hq

theorem not_late_of_proper (n : Nat) (s : Scene) (m : Move) (h : s.Proper n m) :
    ¬ s.Late n m := by
  rintro ⟨hm, hl⟩
  obtain ⟨x, hx, hxr⟩ := (s.isAt_iff n _).mp hl
  have hu := h.timely hm
  rw [s.isAt_of n _ x hx, x.stage.decided_of_response hxr] at hu
  cases hu

/-- An execution under way whose cancellations all come in time returns with the flag down and no
call pending. -/
theorem return_of_proper (s : Scene) (n : Nat) (job : Job) (hc : s.Concerns n job)
    (hs : s.isAt n Stage.isUndecided = true) (ms : List Move) (m : Move)
    (hp : s.Always (Proper n) ms) (hu : s.Always (Undisturbed n) ms)
    (hr : (s.run ms).Returns n m) :
    ((s.run ms).after m).statement.pending = none ∧
      ((s.run ms).after m).statement.cancelRequested = false := by
  obtain ⟨x, hx, hxu⟩ := (s.isAt_iff n _).mp hs
  have hres : s.Reserved n := by
    refine ⟨hc.1, ?_⟩
    intro ho
    rw [s.isAt_of n _ x hx, x.stage.not_opening_of_undecided hxu] at ho
    cases ho
  have hend := hres.run ms hu
  refine ⟨(hend.after_return hr).pending, ?_⟩
  obtain ⟨y, g, statement, desk, t, r, hy, hyr, rfl, rfl, he, ha⟩ := hr.turn
  rw [he]
  obtain hyh | hf := ha.flag_of_return hyr rfl
  · have hi := s.flag_iff n ms hres hu ((isAt_of _ n _ y hy).trans hyh)
    have hnl := not_sometime (Proper n) (Late n) (not_late_of_proper n) s ms hp
    have hn : s.isAt n Stage.hasResponse = false := by
      rw [s.isAt_of n _ x hx]
      exact x.stage.no_response_of_undecided hxu
    have hflag : ¬ (s.run ms).statement.cancelRequested = true := by
      rw [hi, hn]
      simp [hnl]
    exact (ha.flag_of_response hyh).trans (Bool.eq_false_iff.mpr hflag)
  · exact hf

/-- How an admitted execution ends that is cancelled any number of times before its outcome is
recorded, while anything else happens around it. -/
theorem cancellation_outcome (config : Config) (session : Option String) (desk : Desk)
    (past : List Move) (job : Job) (n : Nat) (s : Scene)
    (hn : ((new config session desk).run past).executions.length = n)
    (hs : (new config session desk).run (past ++ [.attempt job]) = s)
    (ha : s.stage? n = some .admitted) (hb : ∃ body, job.request config = .ok body)
    (ms : List Move) (hp : s.Always (Proper n) ms) :
    (s.Sometime (Early n) ms →
      (s.run ms).EndsCancelled n ∧ ∀ ns, ns <+: ms → (s.run ns).Unsent n) ∧
    (¬ s.Sometime (Early n) ms → s.Sometime (Hit n) ms → (s.run ms).EndsCancelled n) ∧
    (¬ s.Sometime (Early n) ms → ¬ s.Sometime (Hit n) ms →
      (s.run ms).answer? n = (s.run (withoutCancels ms)).answer? n ∧
      ((s.run ms).answer? n ≠ none → s.run ms = s.run (withoutCancels ms))) ∧
    (∀ m, (s.run ms).Proper n m → (s.run ms).isAt n Stage.isRunning = true →
      ((s.run ms).after m).isAt n Stage.isUndecided = false →
      ((s.run ms).after m).statement.pending = none ∧
        ((s.run ms).after m).statement.cancelRequested = false) ∧
    (∀ m, s.Always (Undisturbed n) ms → (s.run ms).Returns n m →
      ((s.run ms).after m).statement.pending = none ∧
        ((s.run ms).after m).statement.cancelRequested = false) := by
  have hb' : ∀ config', ∃ body, job.request config' = .ok body :=
    fun config' => job.request_ok config config' hb
  have hc : s.Concerns n job := by
    rw [run_append] at hs
    rw [← hs, ← hn]
    exact concerns_attempt _ job ((new_ordered config session desk).run past)
  obtain ⟨x, hx, hxs⟩ : ∃ x, s.executions[n]? = some x ∧ x.stage = .admitted := by
    simpa [stage?] using ha
  have hund : s.isAt n Stage.isUndecided = true := by
    rw [s.isAt_of n _ x hx, hxs]
    rfl
  have hcalm : s.Calm n := by
    intro y hy _ hd
    have hxy := Option.some.inj (hx.symm.trans hy)
    rw [← hxy, hxs] at hd
    cases hd
  have hmask : s.mask n = s := by
    refine s.mask_of_not n ?_
    rw [s.isAt_of n _ x hx, hxs]
    rfl
  refine ⟨?_, ?_, ?_, ?_, ?_⟩
  · intro he
    have hd := doomed_of_sometime (Early n) n (fun s m => s.doomed_of_early n m)
      s job hc hb' ms hp he
    exact ⟨hd.ends (hc.run ms) hb', s.unsent_of_sometime n job hc hb' ms hp he⟩
  · intro _ hh
    have hd := doomed_of_sometime (Hit n) n (fun s m => s.doomed_of_hit n m) s job hc hb' ms hp hh
    exact hd.ends (hc.run ms) hb'
  · intro he hh
    have hr := s.mask_run n job hc ms hp he hh
    rw [hmask] at hr
    refine ⟨?_, ?_⟩
    · rw [← hr, answer_mask]
    · intro hans
      rw [← hr]
      refine (mask_of_not n _ ?_).symm
      cases hu : (s.run ms).isAt n Stage.isUnregistered with
      | false => rfl
      | true => exact absurd (answer_of_unregistered _ n hu) hans
  · intro m hm hr hd
    exact (hcalm.run hc hb' ms hp).decided (hc.run ms) hb' m hm hr hd
  · intro m hu hr
    exact s.return_of_proper n job hc hund ms m hp hu hr

/-- A cancellation during the lookup of a request that the cache does not know. -/
def cancelWhileLooking : List Move :=
  [.turn 0 .step, .cancel, .turn 0 (.reply (.got (.ok none)))]

theorem looking_cancel_ends :
    (((new {} (some "s") {}).run [.attempt (.rows "")]).run
      cancelWhileLooking).EndsCancelled 0 := by
  have hb : ∃ body, (Job.rows "").request {} = .ok body := ⟨_, rfl⟩
  have hcancel : ((new {} (some "s") {}).run [.attempt (.rows ""), .turn 0 .step]).Proper 0
      .cancel := by
    refine ⟨by simp, by simp, ?_, by simp⟩
    intro _
    rfl
  have hp : ((new {} (some "s") {}).run [.attempt (.rows "")]).Always (Proper 0)
      cancelWhileLooking :=
    ⟨proper_of_regular _ 0 _ rfl, hcancel, proper_of_regular _ 0 _ rfl, trivial⟩
  exact ((cancellation_outcome {} (some "s") {} [] (.rows "") 0 _ rfl rfl rfl hb
    cancelWhileLooking hp).1 (.inr (.inl ⟨rfl, rfl⟩))).1

end Scene

end OlapClient
