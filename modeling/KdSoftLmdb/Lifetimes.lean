import KdSoftLmdb.Settings

/-!
# From the constructor to the disposal

A life begins with the constructor, whatever LMDB answers to it, and goes on with
calls of every kind. However it goes, LMDB's environment is closed once if it was
created and the object was disposed; the limits of an open environment stay as
they are; and what the program does on an open environment between its settings is
a history of the kind that the other modules are about.
-/

namespace KdSoftLmdb

variable {runtime : Runtime}

/-- The world that the constructor leaves. -/
def LmdbEnvironment.ConstructAnswer.world (answer : LmdbEnvironment.ConstructAnswer)
    (runtime : Runtime) : World runtime :=
  let world := (World.unborn runtime).onEnvironment fun environment =>
    { environment with instanceHandle := true }
  if answer.create ≠ .success then world
  else if answer.setUserctx ≠ .success then world.onNative (Native.mdbEnvClose envHandle)
  else world.onEnvironment fun environment => { environment with env := envHandle }

/-- LMDB made the environment and gave it the handle of the object. -/
def LmdbEnvironment.ConstructAnswer.complete (answer : LmdbEnvironment.ConstructAnswer) : Prop :=
  answer.create = .success ∧ answer.setUserctx = .success

/-- How a constructor leaves the object, whether it returns or throws. -/
structure Constructed (answer : LmdbEnvironment.ConstructAnswer) (result : Except Fault Unit)
    (life : Life runtime) : Prop where
  world : life.world = answer.world runtime
  phase : life.settings.phase = .created
  cached : life.Cached
  complete : result = .ok () → answer.complete

private theorem Constructed.settingsOnly {answer : LmdbEnvironment.ConstructAnswer}
    {result other : Except Fault Unit} {life after : Life runtime}
    (constructed : Constructed answer result life) (complete : answer.complete)
    (only : SettingsOnly life after) : Constructed answer other after where
  world := only.world.trans constructed.world
  phase := only.phase.trans constructed.phase
  cached := only.cached constructed.cached
  complete _ := complete

section Constructor

variable {answer : LmdbEnvironment.ConstructAnswer} {life after : Life runtime}

/-- A setting that the configuration may leave out. -/
theorem constructed_elim {α : Type} {value : Option α} {set : α → EnvironmentMethod runtime Unit}
    (only : ∀ value before result after, set value before = some (result, after) →
      SettingsOnly before after)
    {before : Except Fault Unit} (constructed : Constructed answer before life)
    (complete : answer.complete) {result : Except Fault Unit}
    (ran : value.elim (pure ()) set life = some (result, after)) :
    Constructed answer result after := by
  cases value with
  | none =>
      cases ran
      exact constructed.settingsOnly complete (.refl _)
  | some value => exact constructed.settingsOnly complete (only _ _ _ _ ran)

private theorem constructed_of_configure {config : Option LmdbEnvironmentConfiguration}
    {ret : DbRetCode}
    {before result : Except Fault Unit} (constructed : Constructed answer before life)
    (complete : answer.complete)
    (ran : LmdbEnvironment.configure config ret life = some (result, after)) :
    Constructed answer result after := by
  cases config with
  | none =>
      cases ran
      exact constructed.settingsOnly complete (.refl _)
  | some config =>
      have reducing : Constructed answer before { life with
          autoReduceMapSizeIn32BitProcess := config.autoReduceMapSizeIn32BitProcess } :=
        constructed.settingsOnly complete ⟨rfl, rfl, rfl, fun _ => rfl, id⟩
      unfold LmdbEnvironment.configure at ran
      dsimp only at ran
      rw [Method.modify_bind] at ran
      have sized {value : Int64} {before after : Life runtime} {result : Except Fault Unit}
          (set : LmdbEnvironment.setMapSize value ret before = some (result, after)) :
          SettingsOnly before after := Life.settingsOnly_setMapSize set
      rcases Method.bind_eq_some_iff.mp ran with ⟨_, threw, rfl⟩ | ⟨_, _, done, rest⟩
      · exact constructed_elim (fun _ _ _ _ => sized) reducing complete threw
      have first := constructed_elim (fun _ _ _ _ => sized) reducing complete done
      rcases Method.bind_eq_some_iff.mp rest with ⟨_, threw, rfl⟩ | ⟨_, _, done, last⟩
      · exact constructed_elim (fun _ _ _ _ => Life.settingsOnly_setMaxDatabases) first complete
          threw
      have second :=
        constructed_elim (fun _ _ _ _ => Life.settingsOnly_setMaxDatabases) first complete done
      exact constructed_elim (fun _ _ _ _ => Life.settingsOnly_setMaxReaders) second complete last

/-- Whatever LMDB answers to the constructor. -/
theorem constructed_of_new {config : Option LmdbEnvironmentConfiguration} {intPtrSize : Nat}
    {result : Except Fault Unit}
    (ran : LmdbEnvironment.new config answer (.unborn runtime intPtrSize) = some (result, after)) :
    Constructed answer result after := by
  -- the code that the constructor checks at last decides whether it goes on
  have finish {ret : DbRetCode} {life : Life runtime} (world : life.world = answer.world runtime)
      (phase : life.settings.phase = .created) (cached : life.Cached)
      (complete : answer.complete ↔ ret = .success)
      (rest : (do
        Life.onWorld (checkRetCode ret)
        LmdbEnvironment.configure config answer.setMapSize) life = some (result, after)) :
      Constructed answer result after := by
    rcases Method.bind_eq_some_iff.mp rest with ⟨_, checked, rfl⟩ | ⟨_, middle, checked, configured⟩
    · obtain ⟨rfl, _⟩ := Life.onWorld_checkRetCode checked
      exact ⟨world, phase, cached, by simp⟩
    · obtain ⟨rfl, told⟩ := Life.onWorld_checkRetCode checked
      have passed := complete.mpr (told.mp rfl)
      have start : Constructed answer (.ok ()) middle := ⟨world, phase, cached, fun _ => passed⟩
      exact constructed_of_configure start passed configured
  unfold LmdbEnvironment.new at ran
  rw [Method.bind_of_ok (Life.onWorld_modify _ _), Method.call_bind] at ran
  by_cases created : answer.create = .success
  · by_cases linked : answer.setUserctx = .success
    · simp only [Life.mdbEnvCreate, created, linked, if_true] at ran
      rw [Method.bind_of_ok (Life.onWorld_modify _ _), Method.pure_bind] at ran
      refine finish ?_ ?_ ?_ ⟨fun _ => rfl, fun _ => ⟨created, linked⟩⟩ ran
      · rw [LmdbEnvironment.ConstructAnswer.world, if_neg (not_not_intro created),
          if_neg (not_not_intro linked)]
        rfl
      · rfl
      · rfl
    · simp only [Life.mdbEnvCreate, created, linked, if_true, if_false] at ran
      rw [Method.bind_of_ok (Life.onWorld_modify _ _), Method.pure_bind] at ran
      refine finish ?_ ?_ ?_ ⟨fun complete => complete.2, fun own => ⟨created, own⟩⟩ ran
      · rw [LmdbEnvironment.ConstructAnswer.world, if_neg (not_not_intro created), if_pos linked]
        rfl
      · rfl
      · rfl
  · simp only [Life.mdbEnvCreate, created, if_false] at ran
    rw [Method.pure_bind] at ran
    refine finish ?_ ?_ ?_ ⟨fun complete => complete.1, fun own => absurd own created⟩ ran
    · rw [LmdbEnvironment.ConstructAnswer.world, if_pos created]
      rfl
    · rfl
    · rfl

end Constructor

section Releasing

variable {world : World runtime}

/-- The options, the last snapshot and the calls that read the options do not matter. -/
theorem ReleasesSound.native (releases : ReleasesSound world) {native : Native}
    (txns : native.txns = world.native.txns) (dbis : native.dbis = world.native.dbis)
    (cursors : native.cursors = world.native.cursors)
    (released : native.releases = world.released) :
    ReleasesSound { world with native := native } := by
  obtain ⟨flags, last, _, _, _, closed, calls⟩ := native
  cases txns
  cases dbis
  cases cursors
  have sound := releases.sound
  refine ⟨⟨⟨sound.natives.txns, sound.natives.older, sound.natives.slots, sound.natives.cursors,
    sound.natives.positive⟩, ⟨sound.transactions.idle, sound.transactions.unborn,
      sound.transactions.older⟩, ⟨sound.cursors.bound, sound.cursors.owned⟩,
    sound.databases.same rfl rfl rfl id⟩, ?_, ?_, fun opened env => ?_, fun env => ?_⟩
  · exact releases.txns.congr (fun _ => rfl) rfl fun txn => congrFun released (.txn txn)
  · exact releases.cursors.congr (fun _ => rfl) rfl fun cursor => congrFun released (.cursor cursor)
  · exact (congrFun released (.env env)).trans (releases.open' opened env)
  · exact Nat.le_trans (Nat.le_of_eq (congrFun released (.env env))) (releases.once env)

/-- Reading the options releases nothing. -/
theorem releases_of_unread {native twin : Native}
    (same : Native.unread twin.calls = Native.unread native.calls) :
    twin.releases = native.releases := by
  have counted (native : Native) (handle : NativeHandle) : native.releases handle =
      (Native.unread native.calls).countP fun call =>
        call.function.releases? call.handles = some handle := by
    rw [Native.releases, Native.unread, List.countP_filter]
    refine List.countP_congr fun call _ => ?_
    have reads : call.function = .mdbEnvGetFlags →
        call.function.releases? call.handles ≠ some handle := by
      intro reading
      rw [reading]
      exact fun released => by cases released
    simp only [Bool.and_eq_true, decide_eq_true_eq, ne_eq]
    exact ⟨fun released => ⟨released, fun reading => reads reading released⟩, And.left⟩
  funext handle
  rw [counted, counted, same]

private theorem ReleasesSound.reconfigured (releases : ReleasesSound world)
    {flags : LmdbEnvironmentOptions}
    {twin : World runtime} (related : world.Reconfigured flags .unread twin) :
    ReleasesSound twin := by
  obtain ⟨_, rfl, calls, rfl, same, _⟩ := related
  exact releases.native rfl rfl rfl (releases_of_unread same)

/-- An object whose environment field is all that was set. -/
theorem ReleasesSound.bare (env : IntPtr) (allocated : Bool) :
    ReleasesSound ((World.opened runtime .none 0).onEnvironment fun _ =>
      ⟨env, none, .empty, .empty, allocated, 0⟩) where
  sound := ⟨.opened .none 0, ⟨rfl, fun _ _ => rfl, fun _ _ parent => by cases parent⟩,
    ⟨fun _ live => (live rfl).elim, fun _ live => (live rfl).elim⟩,
    (@WorldSound.opened runtime .none 0).databases.same rfl rfl rfl fun _ => Nat.one_ne_zero⟩
  txns := .empty
  cursors := .empty
  open' _ _ := rfl
  once _ := Nat.zero_le 1

private theorem ReleasesSound.constructed (answer : LmdbEnvironment.ConstructAnswer) :
    ReleasesSound (answer.world runtime) := by
  unfold LmdbEnvironment.ConstructAnswer.world
  dsimp only
  split
  · exact .bare 0 true
  split
  · have before := @ReleasesSound.bare runtime 0 true
    have sound := before.sound
    refine before.closeEnvironment (fun _ => rfl) ⟨⟨sound.natives.txns, sound.natives.older,
      sound.natives.slots, sound.natives.cursors, sound.natives.positive⟩,
      ⟨rfl, sound.transactions.unborn, sound.transactions.older⟩,
      ⟨sound.cursors.bound, sound.cursors.owned⟩, sound.databases.same rfl rfl rfl id⟩ rfl
      (fun _ => rfl) rfl rfl
  · exact .bare envHandle true

private theorem act_step_of_execute {act : Act} {reply : Except Exception Returned}
    {after : World runtime}
    (executed : act.execute world = some (reply, after)) : act.Step world after := by
  cases act with
  | call op => exact congrArg (Option.map Prod.snd) executed
  | finalize =>
      cases executed
      rfl

/-- The disposal of an environment that is open closes it. -/
theorem closes_of_disposal {act : Act} {after : World runtime} (sound : WorldSound world)
    (opened : world.environment.env ≠ 0) (disposes : act.disposesEnvironment = true)
    (step : act.Step world after) : 0 < after.released (.env world.environment.env) := by
  have closes (native : Native) :
      0 < (native.mdbEnvClose world.environment.env).releases (.env world.environment.env) := by
    have count : (native.mdbEnvClose world.environment.env).releases =
        withRelease native.releases (.env world.environment.env) :=
      (Native.releases_congr _ rfl).trans (native.releases_releasing rfl)
    rw [count, withRelease, if_pos rfl]
    exact Nat.succ_pos _
  cases act with
  | finalize =>
      cases step
      rw [finalize_of_open opened]
      exact closes _
  | call op =>
      cases op
      case disposeEnvironment order =>
        obtain ⟨_, executed⟩ := step_of_stepTo step
        obtain ⟨_, returned⟩ := execute_eq_some_iff.mp executed
        obtain ⟨_, _, rfl⟩ := disposeEnvironment_cases returned
        rw [dispose_of_open order opened sound.transactions.idle]
        exact closes _
      all_goals cases disposes

/-- Releases are never taken back. -/
theorem released_mono {act : Act} {reply : Except Exception Returned} {after : World runtime}
    (executed : act.execute world = some (reply, after)) (handle : NativeHandle) :
    world.released handle ≤ after.released handle := by
  obtain ⟨made, calls⟩ := calls_of_execute executed
  rw [World.released, World.released, Native.releases, Native.releases, calls, List.countP_append]
  exact Nat.le_add_left _ _

end Releasing

/-- What a program can call: an object whose constructor threw is only finalized. -/
def Seen (result : Except Fault Unit) (_life : Life runtime) (exchange : Exchange) : Prop :=
  result = .ok () ∨ exchange.1 = .act .finalize

/-- What holds all along a life. -/
structure LifeSound (answer : LmdbEnvironment.ConstructAnswer) (history : List Exchange)
    (life : Life runtime) : Prop where
  releases : ReleasesSound life.world
  cached : life.Cached
  allocated : life.world.environment.instanceHandle = true
  frees : life.world.environment.instanceHandleFrees =
    history.countP fun exchange => exchange.1.disposes
  handle : life.world.environment.env = 0 ∨ life.world.environment.env = envHandle
  shut : life.world.environment.env = 0 ↔
    ¬answer.complete ∨ ∃ exchange ∈ history, exchange.1.disposes = true
  closed : life.world.environment.env = 0 → answer.create = .success →
    life.world.released (.env envHandle) = 1
  unmade : answer.create ≠ .success → life.world.released (.env envHandle) = 0

namespace LifeSound

variable {answer : LmdbEnvironment.ConstructAnswer} {history : List Exchange}
  {life after : Life runtime} {result : Except Fault Unit} {exchange : Exchange}

private theorem start (constructed : Constructed answer result life) :
    LifeSound answer [] life := by
  have releases := @ReleasesSound.constructed runtime answer
  have world := constructed.world
  rw [← world] at releases
  unfold LmdbEnvironment.ConstructAnswer.world at world
  dsimp only at world
  by_cases created : answer.create = .success
  · by_cases linked : answer.setUserctx = .success
    · rw [if_neg (not_not_intro created), if_neg (not_not_intro linked)] at world
      have open' : life.world.environment.env ≠ 0 := by
        rw [world]
        exact Nat.one_ne_zero
      refine ⟨releases, constructed.cached, by rw [world]; rfl, by rw [world]; rfl,
        .inr (by rw [world]; rfl), ⟨fun shut => absurd shut open', ?_⟩,
        fun shut => absurd shut open', fun unmade => absurd created unmade⟩
      rintro (incomplete | ⟨_, member, _⟩)
      · exact absurd ⟨created, linked⟩ incomplete
      · cases member
    · rw [if_neg (not_not_intro created), if_pos linked] at world
      exact ⟨releases, constructed.cached, by rw [world]; rfl, by rw [world]; rfl,
        .inl (by rw [world]; rfl),
        ⟨fun _ => .inl fun complete => linked complete.2, fun _ => by rw [world]; rfl⟩,
        fun _ _ => by rw [world]; rfl, fun unmade => absurd created unmade⟩
  · rw [if_pos created] at world
    exact ⟨releases, constructed.cached, by rw [world]; rfl, by rw [world]; rfl,
      .inl (by rw [world]; rfl),
      ⟨fun _ => .inl fun complete => created complete.1, fun _ => by rw [world]; rfl⟩,
      fun _ made => absurd made created, fun _ => by rw [world]; rfl⟩

/-- A call that leaves what the object is made of and releases nothing. -/
theorem quiet (sound : LifeSound answer history life) (releases : ReleasesSound after.world)
    (cached : after.Cached) (environment : after.world.environment = life.world.environment)
    (released : after.world.released = life.world.released)
    (other : exchange.1.disposes = false) : LifeSound answer (history ++ [exchange]) after := by
  refine ⟨releases, cached, ?_, ?_, ?_, ?_, ?_, ?_⟩
  · rw [environment]
    exact sound.allocated
  · rw [environment, sound.frees, List.countP_append, List.countP_singleton, other]
    rfl
  · rw [environment]
    exact sound.handle
  · rw [environment, sound.shut]
    simp [other]
  · rw [environment, released]
    exact sound.closed
  · rw [released]
    exact sound.unmade

private theorem act (sound : LifeSound answer history life)
    (complete : result = .ok () → answer.complete)
    {act : Act} {reply : Except Exception Returned} {world : World runtime}
    (seen : result = .ok () ∨ act = .finalize)
    (executed : act.execute life.world = some (reply, world)) :
    LifeSound answer (history ++ [Act.exchange (act, reply)]) { life with world := world } := by
  have step := act_step_of_execute executed
  have sane := sound.releases.sound
  have next := sound.releases.act step
  obtain ⟨allocated, frees⟩ := frees_of_act sane sound.allocated step
  have disposes : (Act.exchange (act, reply)).1.disposes = act.disposesEnvironment := rfl
  -- the handle is cleared by a disposal and never set again
  have env : world.environment.env = 0 ↔
      life.world.environment.env = 0 ∨ act.disposesEnvironment = true := by
    cases disposal : act.disposesEnvironment with
    | true =>
        rw [environment_of_disposal sane disposal step]
        simp [World.cleared]
    | false => simp [env_of_act sane step disposal]
  refine ⟨next, sound.cached, allocated, ?_, ?_, ?_, fun shut created => ?_, fun unmade => ?_⟩
  · rw [List.countP_append, List.countP_singleton, disposes, ← sound.frees]
    exact frees
  · cases disposal : act.disposesEnvironment with
    | true => exact .inl (env.mpr (.inr disposal))
    | false =>
        rw [show _ = _ from env_of_act sane step disposal]
        exact sound.handle
  · rw [show _ ↔ _ from env, sound.shut]
    simp [disposes, or_assoc]
  · refine Nat.le_antisymm (next.once envHandle) ?_
    by_cases earlier : life.world.environment.env = 0
    · exact Nat.le_trans (Nat.le_of_eq (sound.closed earlier created).symm)
        (released_mono executed _)
    · have own := sound.handle.resolve_left earlier
      have disposal := (env.mp shut).resolve_left earlier
      exact own ▸ closes_of_disposal sane earlier disposal step
  · have earlier : life.world.environment.env = 0 :=
      sound.shut.mpr (.inl fun complete => unmade complete.1)
    have finalized := seen.resolve_left fun returned => unmade (complete returned).1
    subst finalized
    cases executed
    rw [finalize_of_shut earlier]
    exact sound.unmade unmade

private theorem disposes_of_other {call : EnvironmentCall} (other : call.act? = none) :
    call.disposes = false := by
  rw [EnvironmentCall.disposes, other]
  rfl

private theorem step (sound : LifeSound answer history life)
    (complete : result = .ok () → answer.complete)
    (seen : Seen result life exchange) (step : life.Step exchange after) :
    LifeSound answer (history ++ [exchange]) after := by
  cases LifeEffect.of_step step with
  | kept other only =>
      refine sound.quiet ?_ (only.cached sound.cached) (by rw [only.world]) (by rw [only.world])
        (disposes_of_other other)
      rw [only.world]
      exact sound.releases
  | asked => exact sound.quiet sound.releases sound.cached rfl rfl rfl
  | reconfigured other related =>
      have releases := sound.releases.reconfigured related
      obtain ⟨_, rfl, calls, rfl, same, _⟩ := related
      exact sound.quiet releases sound.cached rfl (releases_of_unread same)
        (disposes_of_other other)
  | opened created held =>
      exact sound.quiet (sound.releases.native rfl rfl rfl rfl) sound.cached rfl rfl rfl
  | failed other created =>
      exact sound.quiet sound.releases sound.cached rfl rfl (disposes_of_other other)
  | @act act reply world admitted executed =>
      refine sound.act complete (seen.imp_right fun finalized => ?_) executed
      cases finalized
      rfl

/-- The run lemma: along every life of an object whose constructor ended so. -/
theorem of_life {start : Life runtime} (constructed : Constructed answer result start)
    (run : Run Life.Step (Seen result) start history life) : LifeSound answer history life := by
  induction run with
  | nil => exact .start constructed
  | snoc _ seen step ih => exact ih.step constructed.complete seen step

end LifeSound

/-- One call of a life whose reply is known. -/
def Life.stepTo (life : Life runtime) (exchange : Exchange) : Option (Life runtime) :=
  (exchange.1.run life).bind fun outcome => if outcome.1 = exchange.2 then some outcome.2 else none

private theorem Life.step_of_stepTo {life after : Life runtime} {exchange : Exchange}
    (stepped : life.stepTo exchange = some after) : life.Step exchange after := by
  obtain ⟨⟨result, left⟩, ran, rest⟩ := Option.bind_eq_some_iff.mp stepped
  dsimp only at rest
  split at rest
  · rename_i same
    cases rest
    exact ran.trans (by rw [same])
  · cases rest

/-- Replaying calls gives a life, and what holds where it leads to can be evaluated. -/
theorem life_of_replay (start : Life runtime) (history : List Exchange)
    (holds : Life runtime → Prop) [DecidablePred holds]
    (observed : (replay Life.stepTo (fun _ _ => true) start history).any
      (fun life => decide (holds life)) = true) :
    ∃ life, Run Life.Step (Seen (.ok ())) start history life ∧ holds life := by
  obtain ⟨life, replayed, held⟩ := (Option.any_eq_true _ _).mp observed
  exact ⟨life, run_of_replay Life.step_of_stepTo (fun _ => .inl rfl) replayed,
    of_decide_eq_true held⟩

/-- The constructor with a configuration, when LMDB refuses nothing. -/
def threeDatabases (runtime : Runtime) : Option (Except Fault Unit × Life runtime) :=
  LmdbEnvironment.new (some ⟨some 3, none, some 65536, false⟩) ⟨.success, .success, .success⟩
    (.unborn runtime 8)

/-- The object that it leaves. -/
def threeDatabasesStart (runtime : Runtime) : Life runtime where
  intPtrSize := 8
  autoReduceMapSizeIn32BitProcess := false
  maxDatabases := 3
  settings := { NativeSettings.created with maxDbs := 3, mapSize := some 65536 }
  world := .opened runtime .none 0

private theorem threeDatabases_eq :
    threeDatabases runtime = some (.ok (), threeDatabasesStart runtime) :=
  rfl

/-- Settings that LMDB takes before the environment is opened, and the opening. -/
def configuredAndOpened : List Exchange :=
  [(.setOptions .noSync true, .ok .nothing), (.setMaxReaders 10, .ok .nothing),
    (.openAt "store" .none 0 ⟨.success, 7⟩, .ok .nothing)]

/-- A transaction with settings in between. -/
def used : List Exchange :=
  [(.act (.call (.beginDatabaseTransaction .none none .success)), .ok (.returned (.transaction 0))),
    (.setOptions .noSync false, .ok .nothing), (.getOptions .success, .ok (.options .none)),
    (.getMaxDatabases, .ok (.number 3)), (.getMaxReaders, .ok (.number 10)),
    (.setMaxDatabases 4, .error (.inl (.lmdb .eInval "Unknown LMDB error code: EINVAL."))),
    (.act (.call (.commit 0 ⟨.success, true⟩)), .ok (.returned .nothing))]

/-- Two disposals after it. -/
def usedAndDisposed : List Exchange :=
  used ++ [(.act (.call (.disposeEnvironment [])), .ok (.returned .nothing)),
    (.getPath none, .error (.inl (.objectDisposed "LmdbEnvironment"))),
    (.act (.call (.disposeEnvironment [])), .ok (.returned .nothing))]

/-- However the constructor ended and whatever is called then, LMDB's environment
is closed exactly once if it was made and a disposal or the constructor gave it
up, and never otherwise; the `GCHandle` is freed once for every disposal. -/
theorem closed_once {config : Option LmdbEnvironmentConfiguration}
    {answer : LmdbEnvironment.ConstructAnswer} {intPtrSize : Nat} {result : Except Fault Unit}
    {start life : Life runtime} {history : List Exchange}
    (constructed : LmdbEnvironment.new config answer (.unborn runtime intPtrSize) =
      some (result, start))
    (run : Run Life.Step (Seen result) start history life) :
    life.world.released (.env envHandle) =
      (if answer.create = .success ∧ (answer.setUserctx ≠ .success ∨
        ∃ exchange ∈ history, exchange.1.disposes = true) then 1 else 0) ∧
    life.world.environment.instanceHandleFrees =
      history.countP fun exchange => exchange.1.disposes := by
  have sound := LifeSound.of_life (constructed_of_new constructed) run
  refine ⟨?_, sound.frees⟩
  by_cases created : answer.create = .success
  · have given : life.world.environment.env = 0 ↔ answer.setUserctx ≠ .success ∨
        ∃ exchange ∈ history, exchange.1.disposes = true := by
      rw [sound.shut, LmdbEnvironment.ConstructAnswer.complete]
      simp [created]
    split
    · rename_i up
      exact sound.closed (given.mpr up.2) created
    · rename_i kept
      exact sound.releases.open' (fun shut => kept ⟨created, given.mp shut⟩) envHandle
  · rw [if_neg fun made => created made.1]
    exact sound.unmade created

/-- The second disposal closes nothing and frees the `GCHandle` again. -/
theorem closed_once_twice : ∃ life : Life .ascii,
    Run Life.Step (Seen (.ok ())) (threeDatabasesStart .ascii)
      (configuredAndOpened ++ usedAndDisposed) life ∧
    life.world.released (.env envHandle) = 1 ∧
    life.world.environment.instanceHandleFrees = 2 := by
  obtain ⟨life, run, _⟩ := life_of_replay (threeDatabasesStart .ascii)
    (configuredAndOpened ++ usedAndDisposed)
    (fun life : Life .ascii => life.settings.phase = .opened) (by decide +kernel)
  obtain ⟨released, freed⟩ := closed_once threeDatabases_eq run
  exact ⟨life, run, released.trans (by decide), freed.trans (by decide)⟩

/-- What calls tell about an environment that was opened as the life shows it: its limits
and its path are those of the opening, its options differ at most in those that may
change, and its limits cannot be set nor the environment be opened again. -/
def Life.Tells (opened : Life runtime) (exchange : Exchange) : Prop :=
  match exchange.1 with
  | .getMaxDatabases =>
      ∀ reply, exchange.2 = .ok reply → reply = .number opened.settings.maxDbs.toInt32
  | .getMaxReaders =>
      ∀ reply, exchange.2 = .ok reply → reply = .number opened.settings.maxReaders.toInt32
  | .getOptions _ => ∀ reply, exchange.2 = .ok reply → ∃ options, reply = .options options ∧
      options.fixed = opened.world.native.flags.fixed
  | .getPath _ => ∀ reply, exchange.2 = .ok reply → reply = .path opened.settings.path
  | .setMaxDatabases _ | .setMaxReaders _ | .openAt .. => ∀ reply, exchange.2 ≠ .ok reply
  | .setMapSize .. | .setOptions .. | .act _ => True

/-- What stays as it was when the environment was opened. -/
structure StaysOpened (opened life : Life runtime) : Prop where
  phase : life.settings.phase = .opened
  limits : life.settings.limits = opened.settings.limits
  fixed : life.world.native.flags.fixed = opened.world.native.flags.fixed
  cached : life.Cached

namespace StaysOpened

variable {opened life after : Life runtime} {exchange : Exchange}

private theorem step (stays : StaysOpened opened life) (step : life.Step exchange after) :
    StaysOpened opened after := by
  cases LifeEffect.of_step step with
  | kept _ only =>
      refine ⟨only.phase.trans stays.phase, (only.frozen stays.phase).trans stays.limits, ?_,
        only.cached stays.cached⟩
      rw [only.world]
      exact stays.fixed
  | asked => exact ⟨stays.phase, stays.limits, stays.fixed, stays.cached⟩
  | reconfigured _ related =>
      obtain ⟨_, rfl, calls, rfl, _, same⟩ := related
      exact ⟨stays.phase, stays.limits, same.trans stays.fixed, stays.cached⟩
  | opened created | failed _ created => exact absurd (created.symm.trans stays.phase) (by decide)
  | act _ executed =>
      refine ⟨stays.phase, stays.limits, ?_, stays.cached⟩
      rw [flags_of_execute executed]
      exact stays.fixed

/-- Setting a limit throws. -/
theorem refuses {libFunc : IntPtr → Life runtime → Option (DbRetCode × Life runtime)}
    (refused : ∀ env ret left, libFunc env life = some (ret, left) → ret ≠ .success)
    {result : Except Fault Unit}
    (ran : LmdbEnvironment.runChecked (fun handle => .await (libFunc handle)) life =
      some (result, after)) : result ≠ .ok () := by
  rcases Life.runChecked_cases ran with ⟨_, threw⟩ | ⟨_, outcome, called, told⟩
  · exact threw
  · obtain ⟨⟨ret, left⟩, answered, equal⟩ := Option.map_eq_some_iff.mp called
    cases equal
    exact fun returned => refused _ _ _ answered (Except.ok.inj (told.mp returned))

/-- A value that was read is the one that LMDB gave. -/
theorem reads {α : Type} {libFunc : IntPtr → Life runtime → Option ((DbRetCode × α) × Life runtime)}
    {value : α}
    (ran : LmdbEnvironment.getChecked (fun handle => .await (libFunc handle)) life =
      some (.ok value, after)) :
    ∃ env ret left, libFunc env life = some ((ret, value), left) := by
  unfold LmdbEnvironment.getChecked at ran
  rcases Method.bind_eq_some_iff.mp ran with ⟨_, _, failed⟩ | ⟨env, middle, checked, rest⟩
  · cases failed
  have same : middle = life := by
    rw [Life.onWorld_checkDisposed] at checked
    split at checked <;> cases checked
    rfl
  subst same
  rcases Method.bind_eq_some_iff.mp rest with ⟨_, _, failed⟩ | ⟨⟨ret, given⟩, left, called, last⟩
  · cases failed
  obtain ⟨⟨reply, _⟩, answered, equal⟩ := Option.map_eq_some_iff.mp called
  cases equal
  rcases Method.bind_eq_some_iff.mp last with ⟨_, _, failed⟩ | ⟨_, _, _, returned⟩
  · cases failed
  · cases returned
    exact ⟨_, _, _, answered⟩

private theorem of_getMaxDatabases (stays : StaysOpened opened life) {value : Int32}
    (ran : LmdbEnvironment.getMaxDatabases life = some (.ok value, after)) :
    value = opened.settings.maxDbs.toInt32 := by
  have own : life.settings.maxDbs = opened.settings.maxDbs := congrArg Prod.fst stays.limits
  unfold LmdbEnvironment.getMaxDatabases at ran
  rcases Method.bind_eq_some_iff.mp ran with ⟨_, _, failed⟩ | ⟨_, middle, checked, rest⟩
  · cases failed
  rw [Life.onWorld_checkDisposed] at checked
  split at checked <;> cases checked
  cases rest
  rw [show life.maxDatabases = _ from stays.cached, own]

private theorem of_getOptions (stays : StaysOpened opened life) {answer : DbRetCode}
    {options : LmdbEnvironmentOptions} {world : World runtime}
    (ran : LmdbEnvironment.getOptions answer life.world = some (.ok options, world)) :
    options.fixed = opened.world.native.flags.fixed := by
  by_cases shut : life.world.environment.env = 0
  · rw [LmdbEnvironment.getOptions, Method.bind_of_error (envCheck_of_shut shut)] at ran
    cases ran
  · rw [getOptions_eq life.world shut] at ran
    rcases Method.bind_eq_some_iff.mp ran with ⟨_, _, failed⟩ | ⟨_, _, checked, returned⟩
    · cases failed
    · cases returned
      by_cases success : answer = .success
      · rw [if_pos success]
        exact stays.fixed
      · obtain ⟨_, threw⟩ := checkRetCode_failed success _
        rw [threw] at checked
        cases checked

private theorem setEarly (stays : StaysOpened opened life)
    {change : NativeSettings → NativeSettings}
    {ret : DbRetCode} {left : Life runtime}
    (answered : Life.setEarly change life = some (ret, left)) : ret ≠ .success := by
  rcases Life.setEarly_cases answered with ⟨created, _⟩ | ⟨refused, _⟩
  · exact absurd (created.symm.trans stays.phase) (by decide)
  · exact refused

private theorem of_getPath (stays : StaysOpened opened life)
    (whole : life.settings.pathFreed = false)
    {freed path : Option String}
    (ran : LmdbEnvironment.getPath freed life = some (.ok path, after)) :
    path = opened.settings.path := by
  obtain ⟨_, _, _, answered⟩ := reads ran
  have limits : life.settings.path = opened.settings.path :=
    congrArg (fun limits => limits.2.2) stays.limits
  unfold Life.mdbEnvGetPath at answered
  split at answered
  · cases answered
  · cases answered
    rw [whole, limits]
    rfl

/-- Every call tells what the opening fixed, and the path while nobody has freed it. -/
theorem tells (stays : StaysOpened opened life)
    (whole : exchange.1.asksPath = true → life.settings.pathFreed = false)
    (step : life.Step exchange after) : opened.Tells exchange := by
  obtain ⟨call, result⟩ := exchange
  have ran : call.run life = some (result, after) := step
  unfold Life.Tells
  cases call with
  | getMaxDatabases =>
      rintro reply rfl
      obtain ⟨value, got, rfl⟩ := Life.value_of_then ran
      exact congrArg EnvironmentReply.number (stays.of_getMaxDatabases got)
  | getMaxReaders =>
      rintro reply rfl
      obtain ⟨value, got, rfl⟩ := Life.value_of_then ran
      obtain ⟨_, read, rfl⟩ := Life.value_of_then got
      obtain ⟨_, _, _, answered⟩ := reads read
      have limits : life.settings.maxReaders = opened.settings.maxReaders :=
        congrArg (fun limits => limits.2.1) stays.limits
      unfold Life.mdbEnvGetMaxreaders at answered
      split at answered
      · cases answered
      · cases answered
        rw [limits]
  | getOptions answer =>
      rintro reply rfl
      unfold EnvironmentCall.run at ran
      dsimp only at ran
      split at ran
      · cases ran
      · obtain ⟨⟨inner, world⟩, asked, equal⟩ := Option.map_eq_some_iff.mp ran
        rcases Method.bind_eq_some_iff.mp asked with ⟨_, _, rfl⟩ | ⟨options, _, got, returned⟩
        · cases equal
        · cases returned
          cases equal
          exact ⟨options, rfl, stays.of_getOptions got⟩
  | setMaxDatabases value =>
      rintro reply rfl
      obtain ⟨_, set, _⟩ := Life.value_of_then ran
      rcases Method.bind_eq_some_iff.mp set with ⟨_, _, failed⟩ | ⟨_, _, limited, _⟩
      · cases failed
      · exact refuses (fun env ret left => stays.setEarly) limited rfl
  | setMaxReaders value =>
      rintro reply rfl
      obtain ⟨_, set, _⟩ := Life.value_of_then ran
      refine refuses (fun env ret left answered => ?_) set rfl
      unfold Life.mdbEnvSetMaxreaders at answered
      split at answered
      · cases answered
        decide
      · exact stays.setEarly answered
  | openAt path options fileMode answer =>
      rintro reply rfl
      obtain ⟨_, again, _⟩ := Life.value_of_then ran
      refine refuses (fun env ret left answered => ?_) again rfl
      unfold Life.mdbEnvOpen at answered
      rw [stays.phase] at answered
      cases answered
      decide
  | getPath freed =>
      rintro reply rfl
      obtain ⟨value, got, rfl⟩ := Life.value_of_then ran
      exact congrArg EnvironmentReply.path (stays.of_getPath (whole rfl) got)
  | setMapSize | setOptions | act => trivial

/-- Nothing but asking for the path frees it. -/
theorem path_intact (stays : StaysOpened opened life) (other : exchange.1.asksPath = false)
    (step : life.Step exchange after) : after.settings.pathFreed = life.settings.pathFreed := by
  cases LifeEffect.of_step step with
  | kept _ only => exact only.pathFreed
  | asked => cases other
  | opened created | failed _ created => exact absurd (created.symm.trans stays.phase) (by decide)
  | reconfigured | act => rfl

end StaysOpened

/-- The acts of a life so far lead an environment that was opened as this one to
the same world, but for options that may change at any time. -/
structure FollowsHistory (acts : List (Act × Except Exception Returned)) (history : List Exchange)
    (life : Life runtime) : Prop where
  listed : history.filter (fun exchange => exchange.1.act?.isSome) = acts.map Act.exchange
  created : life.settings.phase = .created → life.world.environment.env ≠ 0 →
    acts = [] ∧ ∃ flags others,
      (World.opened runtime flags 0).Reconfigured others .unread life.world
  opened : life.settings.phase = .opened → ∃ flags lastTxnId others world,
    Run Act.Replies Always (World.opened runtime flags lastTxnId) acts world ∧
      world.Reconfigured others .unread life.world

namespace FollowsHistory

variable {answer : LmdbEnvironment.ConstructAnswer} {history : List Exchange}
  {acts : List (Act × Except Exception Returned)} {life after : Life runtime}
  {result : Except Fault Unit} {exchange : Exchange}

private theorem listed_other (follows : FollowsHistory acts history life) {call : EnvironmentCall}
    (other : call.act? = none) (reply : Except Fault EnvironmentReply) :
    (history ++ [(call, reply)]).filter (fun exchange => exchange.1.act?.isSome) =
      acts.map Act.exchange := by
  rw [List.filter_append, follows.listed]
  simp [other]

private theorem act (follows : FollowsHistory acts history life)
    (sound : LifeSound answer history life)
    {act : Act} {reply : Except Exception Returned} {world : World runtime}
    (admitted : life.admits act = true) (executed : act.execute life.world = some (reply, world)) :
    FollowsHistory (acts ++ [(act, reply)]) (history ++ [Act.exchange (act, reply)])
      { life with world := world } where
  listed := by
    rw [List.filter_append, follows.listed, List.map_append]
    rfl
  created created held := by
    -- before the environment is opened, an act can only dispose it
    have step := act_step_of_execute executed
    have sane := sound.releases.sound
    cases disposal : act.disposesEnvironment with
    | true =>
        refine absurd ?_ held
        rw [environment_of_disposal sane disposal step]
        rfl
    | false =>
        refine absurd ?_ held
        have phase : life.settings.phase = .created := created
        have shut : life.world.environment.env = 0 := by
          simpa [Life.admits, disposal, phase] using admitted
        exact (env_of_act sane step disposal).trans shut
  opened opened := by
    obtain ⟨flags, lastTxnId, others, before, run, related⟩ := follows.opened opened
    have ended : Method.SameEnd (World.Reconfigured others .unread) (act.execute before)
        (act.execute life.world) := MissesOptions.execute act before life.world related
    rw [executed] at ended
    generalize same : act.execute before = left at ended
    cases ended with
    | @some left _ ended =>
        obtain ⟨own, next⟩ := left
        obtain ⟨rfl, kept⟩ := ended
        exact ⟨flags, lastTxnId, others, next, .snoc run trivial same, kept⟩

private theorem step (follows : FollowsHistory acts history life)
    (sound : LifeSound answer history life)
    (step : life.Step exchange after) :
    ∃ acts, FollowsHistory acts (history ++ [exchange]) after := by
  cases LifeEffect.of_step step with
  | kept other only =>
      refine ⟨acts, follows.listed_other other _, fun created held => ?_, fun opened => ?_⟩
      · rw [only.world] at held ⊢
        exact follows.created (only.phase.symm.trans created) held
      · rw [only.world]
        exact follows.opened (only.phase.symm.trans opened)
  | asked => exact ⟨acts, follows.listed_other rfl _, follows.created, follows.opened⟩
  | reconfigured other related =>
      refine ⟨acts, follows.listed_other other _, fun created held => ?_, fun opened => ?_⟩
      · have before : life.world.environment.env ≠ 0 := by
          obtain ⟨_, rfl, _⟩ := related
          exact held
        obtain ⟨none, flags, others, kept⟩ := follows.created created before
        exact ⟨none, flags, _, kept.trans related⟩
      · obtain ⟨flags, lastTxnId, others, world, run, kept⟩ := follows.opened opened
        exact ⟨flags, lastTxnId, _, world, run, kept.trans related⟩
  | opened created held =>
      refine ⟨acts, ⟨follows.listed_other rfl _, ?_, fun _ => ?_⟩⟩
      · intro again
        cases again
      · obtain ⟨rfl, flags, others, _, same, calls, rfl, unread, _⟩ := follows.created created held
        rw [same]
        exact ⟨_, _, _, _, .nil, _, rfl, calls, rfl, unread, rfl⟩
  | failed other created =>
      refine ⟨acts, ⟨follows.listed_other other _, ?_, ?_⟩⟩
      · intro again
        cases again
      · intro opened
        cases opened
  | @act act reply world admitted executed => exact ⟨_, follows.act sound admitted executed⟩

private theorem start (constructed : Constructed answer result life) :
    FollowsHistory [] [] life where
  listed := rfl
  created _ held := by
    have world := constructed.world
    unfold LmdbEnvironment.ConstructAnswer.world at world
    dsimp only at world
    refine ⟨rfl, .none, .none, ?_⟩
    by_cases created : answer.create = .success
    · by_cases linked : answer.setUserctx = .success
      · rw [if_neg (not_not_intro created), if_neg (not_not_intro linked)] at world
        rw [world]
        exact .refl (World.opened runtime .none 0)
      · rw [if_neg (not_not_intro created), if_pos linked] at world
        rw [world] at held
        exact absurd rfl held
    · rw [if_pos created] at world
      rw [world] at held
      exact absurd rfl held
  opened opened := absurd (constructed.phase.symm.trans opened) (by decide)

/-- The run lemma: every life has such acts. -/
theorem of_life {start : Life runtime} (constructed : Constructed answer result start)
    (run : Run Life.Step (Seen result) start history life) :
    ∃ acts, FollowsHistory acts history life := by
  induction run with
  | nil => exact ⟨[], .start constructed⟩
  | snoc prior _ step ih =>
      obtain ⟨_, follows⟩ := ih
      exact follows.step (.of_life constructed prior) step

end FollowsHistory

/-- The acts of a life that has opened its environment, with all that they return
and throw, are a history of an environment that was open from the start. It leads
to the same world, but for options that may change at any time and the calls that
read them: whatever is set in between, no act notices. -/
theorem history_of_life {config : Option LmdbEnvironmentConfiguration}
    {answer : LmdbEnvironment.ConstructAnswer} {intPtrSize : Nat} {result : Except Fault Unit}
    {start life : Life runtime} {history : List Exchange}
    (constructed : LmdbEnvironment.new config answer (.unborn runtime intPtrSize) =
      some (result, start))
    (run : Run Life.Step (Seen result) start history life)
    (opened : life.settings.phase = .opened) :
    ∃ (acts : List (Act × Except Exception Returned)) (flags others : LmdbEnvironmentOptions)
        (lastTxnId : Nat) (world : World runtime),
      history.filter (fun exchange => exchange.1.act?.isSome) = acts.map Act.exchange ∧
      Run Act.Replies Always (World.opened runtime flags lastTxnId) acts world ∧
      world.Reconfigured others .unread life.world := by
  obtain ⟨acts, follows⟩ := FollowsHistory.of_life (constructed_of_new constructed) run
  obtain ⟨flags, lastTxnId, others, world, ran, related⟩ := follows.opened opened
  exact ⟨acts, flags, others, lastTxnId, world, follows.listed, ran, related⟩

/-- The four acts of the life, without the settings in between. -/
theorem history_of_life_four : ∃ (life : Life .ascii)
    (acts : List (Act × Except Exception Returned)) (flags others : LmdbEnvironmentOptions)
    (lastTxnId : Nat) (world : World .ascii),
    Run Life.Step (Seen (.ok ())) (threeDatabasesStart .ascii)
      (configuredAndOpened ++ usedAndDisposed) life ∧
    acts.map Act.exchange =
      [(.act (.call (.beginDatabaseTransaction .none none .success)),
          .ok (.returned (.transaction 0))),
        (.act (.call (.commit 0 ⟨.success, true⟩)), .ok (.returned .nothing)),
        (.act (.call (.disposeEnvironment [])), .ok (.returned .nothing)),
        (.act (.call (.disposeEnvironment [])), .ok (.returned .nothing))] ∧
    Run Act.Replies Always (World.opened .ascii flags lastTxnId) acts world ∧
    world.Reconfigured others .unread life.world := by
  obtain ⟨life, run, opened⟩ := life_of_replay (threeDatabasesStart .ascii)
    (configuredAndOpened ++ usedAndDisposed)
    (fun life : Life .ascii => life.settings.phase = .opened) (by decide +kernel)
  obtain ⟨acts, flags, others, lastTxnId, world, listed, ran, related⟩ :=
    history_of_life threeDatabases_eq run opened
  exact ⟨life, acts, flags, others, lastTxnId, world, run, listed.symm.trans rfl, ran, related⟩

end KdSoftLmdb
