import OlapClient.Cache.SmallLibrary
import OlapClient.Proofs.Cache.History
import OlapClient.Proofs.Statement.Errand
import OlapClient.Proofs.Statement.Uncached

/-!
# A cache that is off

A cache whose properties ask neither for recording nor for playing is configured without storage,
and it never gets any. It has nothing and takes everything, so that a run with it is a run without a
cache; and every run without a cache is one with it, if the cache replies at once.
-/

namespace OlapClient

/-! ### The cache -/

namespace CacheState

variable {κ : Type}

/-- The cache is configured and has no storage. -/
def IsOff (s : CacheState κ) : Prop :=
  ∃ session, s.cache.session = some session ∧ session.backend = none

variable [SqlLibrary κ] {s : CacheState κ}

namespace IsOff

theorem after (h : s.IsOff) (act : CacheAct) : (s.after act).IsOff := by
  obtain ⟨session, hsession, hbackend⟩ := h
  obtain ⟨after, hafter, hgrows⟩ := s.session_after act hsession
  have hbecomes := hgrows.backend
  rw [hbackend] at hbecomes
  refine ⟨after, hafter, ?_⟩
  cases hstorage : after.backend with
  | none => rfl
  | some backend =>
    rw [hstorage] at hbecomes
    cases hbecomes

theorem run (h : s.IsOff) (acts : List CacheAct) : (s.run acts).IsOff := by
  induction acts generalizing s with
  | nil => exact h
  | cons act acts ih => exact ih (h.after act)

omit [SqlLibrary κ] in
theorem active (h : s.IsOff) (id : String) : s.cache.active id = .ok none := by
  obtain ⟨session, hsession, hbackend⟩ := h
  exact Recorder.active_idle hsession hbackend

theorem got (h : s.IsOff) (now : Moment) (id url : String) (request : Bytes) :
    s.got now id url request = (s.files, s.cache, .ok none) :=
  Recorder.get_inactive (h.active id)

theorem put (h : s.IsOff) (now : Moment) (id url : String) (request response : Bytes) :
    s.put now id url request response = (s.files, s.cache, .ok ()) :=
  Recorder.put_inactive (h.active id)

theorem files (h : s.IsOff) (call : CacheCall) : (s.after (.call call)).files = s.files := by
  obtain ⟨session, hsession, hbackend⟩ := id h
  cases call with
  | configure now connection cache =>
    obtain ⟨ids, result, -, -, -, hconfigure⟩ :=
      s.cache.configure_configured s.files now hsession connection cache
    rw [(after_configure hconfigure).1]
  | get now id url request => rw [CacheState.after, h.got]
  | put now id url request response => rw [CacheState.after, h.put]
  | flush => rw [CacheState.after, Recorder.flush_idle hsession hbackend]

end IsOff

end CacheState

theorem Recorder.configure_off {κ : Type} [SqlLibrary κ] {settings : CacheSettings}
    {cache : Properties} (hsettings : CacheSettings.ofProperties cache = .ok settings)
    (hrecord : settings.record = false) (hplay : settings.play = false) (files : Files)
    (now : Moment) (connection : Properties) :
    (({} : Recorder κ).configure files now connection cache).2 = (files,
      { session := some ⟨settings, none, [Digest.sessionId connection cache]⟩ },
      .ok (Digest.sessionId connection cache)) := by
  have hoff : settings.isEnabled = false := by rw [CacheSettings.isEnabled, hrecord, hplay]; rfl
  unfold configure
  rw [hsettings]
  simp only [configureFirst, openIfEnabled, hoff]
  rfl

/-! ### Scenes with a cache -/

structure CachedScene (κ : Type) where
  scene : Scene
  store : CacheState κ

/-- One uninterrupted change of a scene with a cache. -/
inductive CachedMove where
  /-- A move of the scene; replies of the cache do not come this way. -/
  | move (m : Move)
  /-- The cache serves the execution of a number. -/
  | serve (n : Nat) (now : Moment)
  /-- Others call the cache, or change its files. -/
  | act (a : CacheAct)

namespace CachedScene

variable {κ : Type} [SqlLibrary κ]

/-- The call on the cache that an execution waits for, and what the cache replies. -/
def served? (s : CachedScene κ) (n : Nat) (now : Moment) : Option (CacheCall × Reply) :=
  match s.scene.demand? n with
  | some (.get id m) =>
    some (.get now id m.url m.body,
      .got ((s.store.got now id m.url m.body).2.2.mapError .ofCache))
  | some (.put id m response) =>
    some (.put now id m.url m.body response,
      .stored ((s.store.put now id m.url m.body response).2.2.mapError .ofCache))
  | _ => none

def movesOf (s : CachedScene κ) : CachedMove → List Move
  | .move m => if m.isCached then [] else [m]
  | .serve n now => ((s.served? n now).map fun served => .turn n (.reply served.2)).toList
  | .act _ => []

def actsOf (s : CachedScene κ) : CachedMove → List CacheAct
  | .move _ => []
  | .serve n now => ((s.served? n now).map fun served => .call served.1).toList
  | .act a => [a]

def after (s : CachedScene κ) (m : CachedMove) : CachedScene κ where
  scene := s.scene.run (s.movesOf m)
  store := s.store.run (s.actsOf m)

def run (s : CachedScene κ) (ms : List CachedMove) : CachedScene κ := ms.foldl after s

/-- The moves of the scene along a run. -/
def moves (s : CachedScene κ) : List CachedMove → List Move
  | [] => []
  | m :: ms => s.movesOf m ++ (s.after m).moves ms

/-- The moves that are left of a run without the cache. -/
def plain (s : CachedScene κ) (ms : List CachedMove) : List Move :=
  s.scene.withoutCache (s.moves ms)

/-- The scene around a new statement, whose connection has just got a new cache. -/
def attached (config : Config) (desk : Desk) (files : Files) (now : Moment)
    (connection cache : Properties) : CachedScene κ where
  scene :=
    .new config (({} : Recorder κ).configure files now connection cache).2.2.2.toOption desk
  store := ⟨(({} : Recorder κ).configure files now connection cache).2.1,
    (({} : Recorder κ).configure files now connection cache).2.2.1⟩

variable (s : CachedScene κ)

theorem scene_run (ms : List CachedMove) : (s.run ms).scene = s.scene.run (s.moves ms) := by
  induction ms generalizing s with
  | nil => rfl
  | cons m ms ih =>
    show ((s.after m).run ms).scene = _
    rw [ih, moves, Scene.run_append]
    rfl

theorem moves_append (ms ns : List CachedMove) :
    s.moves (ms ++ ns) = s.moves ms ++ (s.run ms).moves ns := by
  induction ms generalizing s with
  | nil => rfl
  | cons m ms ih =>
    show s.movesOf m ++ (s.after m).moves (ms ++ ns) = _
    rw [ih, moves, List.append_assoc]
    rfl

/-! ### Runs with a cache that is off -/

variable {s}

theorem off_after (h : s.store.IsOff) (m : CachedMove) : (s.after m).store.IsOff := h.run _

theorem off_run (h : s.store.IsOff) (ms : List CachedMove) : (s.run ms).store.IsOff := by
  induction ms generalizing s with
  | nil => exact h
  | cons m ms ih => exact ih (off_after h m)

theorem served_idle (h : s.store.IsOff) {n : Nat} {now : Moment} {call : CacheCall} {reply : Reply}
    (hserved : s.served? n now = some (call, reply)) : reply.isIdle = true := by
  unfold served? at hserved
  split at hserved
  · cases hserved
    rw [h.got]
    rfl
  · cases hserved
    rw [h.put]
    rfl
  · cases hserved

theorem movesOf_idle (h : s.store.IsOff) (m : CachedMove) (move : Move)
    (hmove : move ∈ s.movesOf m) : move.isIdle = true := by
  cases m with
  | move m =>
    change move ∈ if m.isCached then [] else [m] at hmove
    cases hcached : m.isCached with
    | true => simp [hcached] at hmove
    | false =>
      obtain rfl : move = m := by simpa [hcached] using hmove
      exact move.idle_of_not_cached hcached
  | serve n now =>
    simp only [movesOf, Option.mem_toList, Option.map_eq_some_iff] at hmove
    obtain ⟨⟨call, reply⟩, hserved, rfl⟩ := hmove
    exact served_idle h hserved
  | act a => cases hmove

theorem moves_idle (h : s.store.IsOff) (ms : List CachedMove) (move : Move)
    (hmove : move ∈ s.moves ms) : move.isIdle = true := by
  induction ms generalizing s with
  | nil => cases hmove
  | cons m ms ih =>
    rcases List.mem_append.mp hmove with hmove | hmove
    · exact movesOf_idle h m move hmove
    · exact ih (off_after h m) hmove

/-! ### Runs without a cache -/

/-- No execution waits for the cache, and those that are going to have one. -/
structure Ready (s : CachedScene κ) : Prop where
  off : s.store.IsOff
  equipped : s.scene.Equipped
  settled : ∀ n, s.scene.isAt n Stage.isCached = false

/-- A move, and then the cache replies at once. -/
def served (now : Moment) : Move → List CachedMove
  | .turn n t => [.move (.turn n t), .serve n now]
  | m => [.move m]

theorem served_moves (now : Moment) (m : Move) :
    (∃ n t, m = .turn n t ∧ served now m = [.move m, .serve n now]) ∨
      (∀ n t, m ≠ .turn n t) ∧ served now m = [.move m] := by
  cases m with
  | turn n t => exact .inl ⟨n, t, rfl, rfl⟩
  | _ => exact .inr ⟨by simp, rfl⟩

/-- A move lets no other execution wait for the cache. -/
theorem settled_after {scene : Scene} {k : Nat} (h : scene.isAt k Stage.isCached = false) (m : Move)
    (hm : ∀ t, m ≠ .turn k t) : (scene.after m).isAt k Stage.isCached = false := by
  rw [Bool.eq_false_iff] at h ⊢
  intro hcached
  obtain ⟨y, hy, hstage⟩ := (Scene.isAt_iff _ k Stage.isCached).mp hcached
  obtain hold | ⟨t, x, rfl, -⟩ | ⟨job, -, -, rfl⟩ := scene.getElem?_of_after k y m hy
  · exact h ((scene.isAt_iff k Stage.isCached).mpr ⟨y, hold, hstage⟩)
  · exact hm t rfl
  · obtain hadmitted | ⟨e, hreturned⟩ := scene.attempted_stage job
    · rw [hadmitted] at hstage
      cases hstage
    · rw [hreturned] at hstage
      cases hstage

theorem serve_cases (hoff : s.store.IsOff) (hequipped : s.scene.Equipped) (n : Nat) (now : Moment) :
    (s.movesOf (.serve n now) = [] ∧ s.scene.isAt n Stage.isCached = false) ∨
      ∃ reply, s.movesOf (.serve n now) = [.turn n (.reply reply)] ∧
        s.scene.isAt n Stage.isCached = true ∧
        (s.scene.after (.turn n (.reply reply))).isAt n Stage.isCached = false := by
  cases hx : s.scene.executions[n]? with
  | none =>
    left
    simp [movesOf, served?, Scene.demand?, Scene.isAt, Scene.stage?, hx]
  | some x =>
    have hwaits := s.scene.isAt_of n Stage.isCached x hx
    have hreplied : ∀ reply g, x.resume reply = ([.cacheMiss], x.goTo g) ∨
        x.resume reply = ([], x.goTo g) → g.isCached = false →
        (s.scene.after (.turn n (.reply reply))).isAt n Stage.isCached = false := by
      intro reply g hresume hg
      have htake : x.take (.reply reply) s.scene.config s.scene.statement s.scene.desk =
          (x.goTo g, s.scene.statement, s.scene.desk) := by
        show ((x.resume reply).2, _, _) = _
        obtain hresume | hresume := hresume <;> rw [hresume]
      rw [s.scene.after_turn_eq n x _ _ _ _ hx htake,
        Scene.isAt_of _ n _ _ (s.scene.getElem?_advance_self n _ x _ _ hx)]
      exact hg
    cases hstage : x.stage with
    | looking m =>
      obtain ⟨id, hid⟩ := Option.isSome_iff_exists.mp ((hequipped n x hx).1 m hstage)
      right
      refine ⟨.got (.ok none), ?_, by rw [hwaits, hstage]; rfl, hreplied _ (.checking m) ?_ rfl⟩
      · simp [movesOf, served?, Scene.demand?, hx, Execution.demand?, hstage, hid, hoff.got,
          Except.mapError]
      · left
        simp only [Execution.resume, hstage]
    | storing m response =>
      obtain ⟨id, hid⟩ := Option.isSome_iff_exists.mp ((hequipped n x hx).2 m response hstage)
      right
      refine ⟨.stored (.ok ()), ?_, by rw [hwaits, hstage]; rfl,
        hreplied _ (.reading response false) ?_ rfl⟩
      · simp [movesOf, served?, Scene.demand?, hx, Execution.demand?, hstage, hid, hoff.put,
          Except.mapError]
      · right
        simp only [Execution.resume, hstage]
    | _ =>
      left
      refine ⟨?_, by rw [hwaits, hstage]; rfl⟩
      simp [movesOf, served?, Scene.demand?, hx, Execution.demand?, hstage]

theorem equipped_after (h : s.scene.Equipped) (m : CachedMove) : (s.after m).scene.Equipped :=
  h.run _

theorem movesOf_move (s : CachedScene κ) {m : Move} (hm : m.isCached = false) :
    s.movesOf (.move m) = [m] := by
  show (if m.isCached then [] else [m]) = [m]
  rw [hm]
  rfl

theorem scene_after_move (s : CachedScene κ) {m : Move} (hm : m.isCached = false) :
    (s.after (.move m)).scene = s.scene.after m := by
  show s.scene.run (s.movesOf (.move m)) = _
  rw [movesOf_move s hm]
  rfl

/-- Serving the only execution that waits leaves none that waits. -/
theorem ready_served (hoff : s.store.IsOff) (hequipped : s.scene.Equipped) (n : Nat)
    (hothers : ∀ k, k ≠ n → s.scene.isAt k Stage.isCached = false) (now : Moment) :
    (s.after (.serve n now)).Ready ∧ s.scene.withoutCache (s.movesOf (.serve n now)) = [] := by
  obtain ⟨hmoves, hn⟩ | ⟨reply, hmoves, hwaits, hn⟩ := serve_cases hoff hequipped n now
  · have hscene : (s.after (.serve n now)).scene = s.scene := by
      show s.scene.run (s.movesOf _) = _
      rw [hmoves]
      rfl
    rw [hmoves]
    refine ⟨⟨off_after hoff _, equipped_after hequipped _, fun k => ?_⟩, rfl⟩
    rw [hscene]
    by_cases hk : k = n
    · exact hk ▸ hn
    · exact hothers k hk
  · have hscene : (s.after (.serve n now)).scene = s.scene.after (.turn n (.reply reply)) := by
      show s.scene.run (s.movesOf _) = _
      rw [hmoves]
      rfl
    refine ⟨⟨off_after hoff _, equipped_after hequipped _, fun k => ?_⟩, ?_⟩
    · rw [hscene]
      by_cases hk : k = n
      · exact hk ▸ hn
      · exact settled_after (hothers k hk) _ fun t ht => hk (Move.turn.inj ht).1.symm
    · have hturn : s.scene.waitsFor (.turn n (.reply reply)) = true := hwaits
      rw [hmoves, Scene.withoutCache, if_pos hturn]
      rfl

theorem Ready.served (h : s.Ready) (now : Moment) (m : Move) (hm : m.isCached = false) :
    (s.run (served now m)).Ready ∧ s.plain (CachedScene.served now m) = [m] := by
  have hwaits : s.scene.waitsFor m = false := by
    cases m with
    | turn n t => exact h.settled n
    | _ => rfl
  have hkept : ∀ rest, s.scene.withoutCache (m :: rest) =
      m :: (s.scene.after m).withoutCache rest := by
    intro rest
    rw [Scene.withoutCache, hwaits]
    rfl
  have hscene := scene_after_move s hm
  have hoff := off_after h.off (.move m)
  have hequipped := equipped_after h.equipped (.move m)
  -- only an execution that takes a turn can come to wait, and it is served right then
  obtain ⟨n, t, hturn, hserved⟩ | ⟨hother, hserved⟩ := served_moves now m
  · have hothers : ∀ k, k ≠ n → (s.after (.move m)).scene.isAt k Stage.isCached = false := by
      intro k hk
      rw [hscene]
      apply settled_after (h.settled k)
      rw [hturn]
      exact fun t ht => hk (Move.turn.inj ht).1.symm
    obtain ⟨hready, hnothing⟩ := ready_served hoff hequipped n hothers now
    rw [hserved]
    refine ⟨hready, ?_⟩
    show s.scene.withoutCache (s.movesOf (.move m) ++
      ((s.after (.move m)).movesOf (.serve n now) ++ [])) = [m]
    rw [movesOf_move s hm, List.append_nil, List.singleton_append, hkept, ← hscene, hnothing]
  · rw [hserved]
    refine ⟨⟨hoff, hequipped, fun k => ?_⟩, ?_⟩
    · show (s.after (.move m)).scene.isAt k _ = false
      rw [hscene]
      exact settled_after (h.settled k) m (hother k)
    · show s.scene.withoutCache (s.movesOf (.move m) ++ []) = [m]
      rw [movesOf_move s hm, List.append_nil, hkept]
      rfl

theorem Ready.exists_plain (h : s.Ready) (ns : List Move) (hns : ∀ m ∈ ns, m.isCached = false) :
    ∃ ms, s.plain ms = ns := by
  induction ns generalizing s with
  | nil => exact ⟨[], rfl⟩
  | cons m ns ih =>
    obtain ⟨hready, hone⟩ := h.served ⟨0, .epoch⟩ m (hns m List.mem_cons_self)
    obtain ⟨ms, hms⟩ := ih hready fun m' hm' => hns m' (List.mem_cons_of_mem m hm')
    refine ⟨CachedScene.served ⟨0, .epoch⟩ m ++ ms, ?_⟩
    unfold plain at hone hms ⊢
    rw [moves_append, Scene.withoutCache_append, hone, ← scene_run, hms]
    rfl

/-! ### The two runs side by side -/

def operation? : CachedMove → Option Move
  | .move m => if m.isOperation then some m else none
  | _ => none

theorem operations_moves (ms : List CachedMove) :
    (s.moves ms).filter Move.isOperation = ms.filterMap operation? := by
  induction ms generalizing s with
  | nil => rfl
  | cons m ms ih =>
    have hone : (s.movesOf m).filter Move.isOperation = (operation? m).toList := by
      cases m with
      | move m =>
        show (if m.isCached then [] else [m]).filter _ =
          (if m.isOperation then some m else none).toList
        cases m with
        | turn n t =>
          cases hcached : (Move.turn n t).isCached <;> rfl
        | _ => rfl
      | serve n now =>
        show ((s.served? n now).map _).toList.filter _ = []
        cases s.served? n now <;> rfl
      | act a => rfl
    rw [moves, List.filter_append, hone, ih, List.filterMap_cons]
    cases operation? m <;> rfl

/-- A scene with a cache, and one without: nobody who acts on the statement can tell them apart, and
the cache does nothing. -/
structure Invisible (s : CachedScene κ) (t : Scene) : Prop where
  config : s.scene.config = t.config
  statement : s.scene.statement = t.statement
  desk : s.scene.desk = t.desk
  attempts : s.scene.executions.length = t.executions.length
  answers : ∀ n, s.scene.answer? n = t.answer? n
  off : s.store.IsOff
  /-- Nothing is found and nothing fails, under ids that were never issued, too. -/
  misses : ∀ now id url request,
    s.store.got now id url request = (s.store.files, s.store.cache, .ok none)
  takes : ∀ now id url request response,
    s.store.put now id url request response = (s.store.files, s.store.cache, .ok ())
  files : ∀ call, (s.store.after (.call call)).files = s.store.files

theorem invisible_of_uncached {t : Scene} (hoff : s.store.IsOff) (h : s.scene.uncached = t) :
    s.Invisible t := by
  subst h
  exact {
    config := rfl
    statement := rfl
    desk := rfl
    attempts := (List.length_map _).symm
    answers := fun n => (s.scene.answer?_uncached n).symm
    off := hoff
    misses := hoff.got
    takes := hoff.put
    files := hoff.files }

/-- A cache whose properties ask neither for recording nor for playing is configured on any files,
whatever storage the properties name, and opens none. Every run with it is, but for its own turns, a
run without a cache: with the same operations, the same submissions, and the same to be seen in the
end. And every run without a cache comes about in this way. -/
theorem off_is_invisible {cache : Properties} {settings : CacheSettings}
    (hsettings : CacheSettings.ofProperties cache = .ok settings)
    (hrecord : settings.record = false) (hplay : settings.play = false) (config : Config)
    (desk : Desk) (files : Files) (now : Moment) (connection : Properties) (s : CachedScene κ)
    (hs : s = attached config desk files now connection cache) :
    s.scene = .new config (some (Digest.sessionId connection cache)) desk ∧
    s.store = ⟨files, { session := some ⟨settings, none, [Digest.sessionId connection cache]⟩ }⟩ ∧
    (∀ ms, (s.run ms).Invisible ((Scene.new config none desk).run (s.plain ms)) ∧
      (Scene.new config none desk).submissions (s.plain ms) = s.scene.submissions (s.moves ms) ∧
      (s.plain ms).filter Move.isOperation = ms.filterMap operation?) ∧
    ∀ ns, (∀ m ∈ ns, m.isCached = false) → ∃ ms, s.plain ms = ns := by
  have hconfigured := @Recorder.configure_off κ _ _ _ hsettings hrecord hplay files now connection
  have hscene : s.scene = .new config (some (Digest.sessionId connection cache)) desk := by
    rw [hs, attached, hconfigured]
    rfl
  have hstore : s.store =
      ⟨files, { session := some ⟨settings, none, [Digest.sessionId connection cache]⟩ }⟩ := by
    rw [hs, attached, hconfigured]
  have hoff : s.store.IsOff := by
    rw [hstore]
    exact ⟨_, rfl, rfl⟩
  have huncached : s.scene.uncached = .new config none desk := by
    rw [hscene]
    exact Scene.uncached_new config _ desk
  refine ⟨hscene, hstore, fun ms => ⟨?_, ?_, ?_⟩, ?_⟩
  · apply invisible_of_uncached (off_run hoff ms)
    rw [scene_run, ← huncached]
    exact s.scene.run_uncached (s.moves ms) (moves_idle hoff ms)
  · rw [← huncached]
    exact s.scene.submissions_uncached (s.moves ms) (moves_idle hoff ms)
  · rw [plain, Scene.operations_withoutCache, operations_moves]
  · have hready : s.Ready := by
      refine ⟨hoff, ?_, fun n => ?_⟩
      · rw [hscene]
        exact Scene.new_equipped config _ desk
      · rw [hscene]
        rfl
    exact hready.exists_plain

/-! ### A cache that could not be used -/

/-- Storage of a kind that there is not, and neither recording nor playing. -/
def unusable : Properties := [("BACKEND", "table"), ("TABLE_DRIVER", "oracle")]

/-- An execution up to the reply of the transport, served by the cache on its way. -/
def oneSubmission : List CachedMove :=
  [.move (.attempt (.rows "A")), .move (.turn 0 .step), .serve 0 ⟨0, .epoch⟩,
    .move (.turn 0 .step), .move (.turn 0 (.reply (.submitted (.ok 0))))]

/-- The scene around a new statement whose cache has these properties. -/
def unusableScene : CachedScene Sql.Connection := attached {} {} {} ⟨0, .epoch⟩ [] unusable

theorem unusable_cache_unseen :
    (unusableScene.run oneSubmission).Invisible
        ((Scene.new {} none {}).run (unusableScene.plain oneSubmission)) ∧
      ((Scene.new {} none {}).submissions (unusableScene.plain oneSubmission)).length = 1 := by
  have hsettings : CacheSettings.ofProperties unusable =
      .ok { backend := .table, table := { driver := "oracle" } } := by decide +kernel
  have hone : (unusableScene.scene.submissions (unusableScene.moves oneSubmission)).length = 1 := by
    decide +kernel
  obtain ⟨-, -, hruns, -⟩ :=
    off_is_invisible hsettings rfl rfl {} {} {} ⟨0, .epoch⟩ [] unusableScene rfl
  obtain ⟨hinvisible, hsubmissions, -⟩ := hruns oneSubmission
  exact ⟨hinvisible, by rw [hsubmissions, hone]⟩

end CachedScene

end OlapClient
