import KdSoftLmdb.Effects.Disposed
import KdSoftLmdb.Invariants.Releases
import KdSoftLmdb.Session

/-!
# What disposal releases

Every class exchanges its handle before it calls LMDB, so a second `Close`,
`Dispose`, `Abort` or `Commit` finds nothing to release. The environment also
frees a `GCHandle` that it keeps in a read-only field. A mutating method works on
a copy of such a field, so the field stays allocated, and every further disposal
frees the handle again.
-/

namespace KdSoftLmdb

variable {runtime : Runtime}

/-- A public call, or a run of the finalizer of the environment. -/
inductive Act where
  | call (op : Op)
  | finalize

namespace Act

/-- The act runs `LmdbEnvironment.Dispose(bool)`. -/
def disposesEnvironment : Act → Bool
  | .call (.disposeEnvironment _) | .finalize => true
  | .call _ => false

/-- Execute an act. -/
def stepTo (world : World runtime) : Act → Option (World runtime)
  | .call op => KdSoftLmdb.stepTo world op
  | .finalize => some (LmdbEnvironment.finalize world)

def Step (world : World runtime) (act : Act) (after : World runtime) : Prop :=
  act.stepTo world = some after

/-- The native function with which an act may release a `Database`. -/
def releaseOf? (d : DbRef) : Act → Option LibFunc
  | .call (.disposeDatabase e) => if e = d then some .mdbDbiClose else none
  | .call (.drop e _ answer) => if e = d ∧ answer = .success then some .mdbDrop else none
  | _ => none

/-- The act ends an object that is disposed already. -/
def Repeats (world : World runtime) : Act → Prop
  | .call (.commit t _) | .call (.disposeTransaction t) => world.handle t = 0
  | .call (.disposeDatabase d) => world.dbi d = 0
  | .call (.disposeCursor c) => world.cur c = 0
  | .call (.disposeEnvironment _) | .finalize => world.environment.env = 0
  | .call _ => False

end Act

/-- One act with the states around it. -/
structure Transition (runtime : Runtime) where
  before : World runtime
  act : Act
  after : World runtime

/-- The transition leads from one state to the other. -/
def Transition.Step (world : World runtime) (transition : Transition runtime)
    (after : World runtime) : Prop :=
  transition.before = world ∧ transition.after = after ∧ transition.act.Step world after

/-- The acts that a new environment goes through, each with the states around it. -/
abbrev Course (flags : LmdbEnvironmentOptions) (lastTxnId : Nat)
    (transitions : List (Transition runtime)) (world : World runtime) : Prop :=
  Run Transition.Step Always (World.opened runtime flags lastTxnId) transitions world

/-- The calls of a native function so far. -/
def Native.made (native : Native) (function : LibFunc) : Nat :=
  native.calls.countP fun call => call.function = function

/-- How often a transition released a `Database`. -/
def Transition.releases (d : DbRef) (transition : Transition runtime) : Nat :=
  match transition.act.releaseOf? d with
  | some function =>
      transition.after.native.made function - transition.before.native.made function
  | none => 0

/-- How often `Dispose(bool)` ran. -/
def disposals (transitions : List (Transition runtime)) : Nat :=
  transitions.countP fun transition => transition.act.disposesEnvironment

/-- Nothing was released twice, the handle of a disposed environment was freed
once, and ending a disposed object changed nothing. -/
structure ReleasedOnce (transitions : List (Transition runtime)) (world : World runtime) :
    Prop where
  environment : ∀ env, world.released (.env env) ≤ 1
  transactions : ∀ txn, world.released (.txn txn) ≤ 1
  cursors : ∀ cursor, world.released (.cursor cursor) ≤ 1
  databases : ∀ d, (transitions.map (Transition.releases d)).sum ≤ 1
  instanceHandle : 0 < disposals transitions → world.environment.instanceHandleFrees = 1
  repeated : ∀ transition ∈ transitions, transition.act.Repeats transition.before →
    transition.after = transition.before

section Finalizer

variable {world : World runtime}

/-- The finalizer of a closed environment only clears the registries. -/
theorem finalize_of_shut (shut : world.environment.env = 0) :
    LmdbEnvironment.finalize world = { world with environment := world.cleared } := by
  unfold LmdbEnvironment.finalize LmdbEnvironment.disposeWith World.onEnvironment World.cleared
  simp only [shut, ne_eq, not_true_eq_false, if_false]
  split <;> rfl

/-- The finalizer closes an environment that is open. -/
theorem finalize_of_open (opened : world.environment.env ≠ 0) :
    LmdbEnvironment.finalize world = { world with
      environment := world.cleared
      native := world.native.mdbEnvClose world.environment.env } := by
  unfold LmdbEnvironment.finalize LmdbEnvironment.disposeWith World.cleared
  simp only [opened, ne_eq, not_false_eq_true, if_true, Bool.false_eq_true, if_false,
    World.onEnvironment, World.onNative]
  split <;> rfl

private theorem finalize_sound (sound : WorldSound world) :
    WorldSound (LmdbEnvironment.finalize world) := by
  have forgotten : WorldSound { world with environment := world.cleared } :=
    ⟨sound.natives, ⟨rfl, sound.transactions.unborn, sound.transactions.older⟩,
      ⟨sound.cursors.bound, sound.cursors.owned⟩, sound.databases.forgotten rfl rfl⟩
  by_cases shut : world.environment.env = 0
  · rw [finalize_of_shut shut]
    exact forgotten
  · rw [finalize_of_open shut]
    exact ⟨⟨sound.natives.txns, sound.natives.older, sound.natives.slots, sound.natives.cursors,
      sound.natives.positive⟩, ⟨rfl, sound.transactions.unborn, sound.transactions.older⟩,
      ⟨sound.cursors.bound, sound.cursors.owned⟩, forgotten.databases.same rfl rfl rfl id⟩

private theorem ReleasesSound.finalize (releases : ReleasesSound world) :
    ReleasesSound (LmdbEnvironment.finalize world) := by
  have sound := finalize_sound releases.sound
  by_cases shut : world.environment.env = 0
  · rw [finalize_of_shut shut] at sound ⊢
    exact releases.same sound rfl (fun _ => rfl) rfl fun opened => (opened rfl).elim
  · rw [finalize_of_open shut] at sound ⊢
    exact releases.closeEnvironment (releases.open' shut) sound rfl (fun _ => rfl) rfl rfl

/-- The step lemma, for a call or the finalizer. -/
theorem ReleasesSound.act (releases : ReleasesSound world) {act : Act} {after : World runtime}
    (step : act.Step world after) : ReleasesSound after := by
  cases act with
  | call op => exact releases.step (step_of_stepTo step)
  | finalize =>
      cases step
      exact releases.finalize

end Finalizer

section Acts

variable {world after : World runtime} {act : Act}

/-- Effects other than disposing the environment leave its `GCHandle` alone. -/
theorem instanceHandle_of_effect {op : Op} (effect : Effect world op after)
    (other : ∀ order, op ≠ .disposeEnvironment order) :
    after.environment.instanceHandle = world.environment.instanceHandle ∧
    after.environment.instanceHandleFrees = world.environment.instanceHandleFrees := by
  cases effect with
  | closed => exact closing_instanceHandle _ _ _
  | @promoted t answer _ rest _ _ _ _ _ promoted =>
      have closed := closing_instanceHandle world t (.commit answer)
      obtain ⟨_, _, rfl⟩ := promoted
      split <;> exact closed
  | databaseGone =>
      rw [databaseCallback_environment]
      split <;> exact ⟨rfl, rfl⟩
  | cursorGone =>
      rw [cursorCallback_environment]
      exact ⟨rfl, rfl⟩
  | environmentDisposed => exact absurd rfl (other _)
  | recorded | begunDatabase | begun | begunTaken | begunLeaked | reader | opened | openFailed
  | cursorOpened | cursorRenewed => exact ⟨rfl, rfl⟩

/-- A disposal, open environment or not, leaves this environment object. -/
theorem environment_of_disposal (sound : WorldSound world) (disposes : act.disposesEnvironment = true)
    (step : act.Step world after) : after.environment = world.cleared := by
  have disposed (order : List TxnRef) :
      (LmdbEnvironment.dispose order world).environment = world.cleared := by
    by_cases shut : world.environment.env = 0
    · rw [dispose_of_shut order shut]
    · rw [dispose_of_open order shut sound.transactions.idle]
  cases act with
  | finalize =>
      cases step
      by_cases shut : world.environment.env = 0
      · rw [finalize_of_shut shut]
      · rw [finalize_of_open shut]
  | call op =>
      cases op
      case disposeEnvironment order =>
        obtain ⟨_, executed⟩ := step_of_stepTo step
        obtain ⟨_, returned⟩ := execute_eq_some_iff.mp executed
        obtain ⟨_, _, rfl⟩ := disposeEnvironment_cases returned
        exact disposed order
      all_goals cases disposes

/-- An act frees the `GCHandle` if it disposes the environment. -/
theorem frees_of_act (sound : WorldSound world)
    (allocated : world.environment.instanceHandle = true) (step : act.Step world after) :
    after.environment.instanceHandle = true ∧
    after.environment.instanceHandleFrees = world.environment.instanceHandleFrees +
      if act.disposesEnvironment then 1 else 0 := by
  cases disposes : act.disposesEnvironment with
  | true =>
      rw [environment_of_disposal sound disposes step]
      exact ⟨allocated, if_pos allocated⟩
  | false =>
      cases act with
      | finalize => cases disposes
      | call op =>
          have other (order : List TxnRef) : op ≠ .disposeEnvironment order := by
            rintro rfl
            cases disposes
          obtain ⟨same, count⟩ :=
            instanceHandle_of_effect (effect_of_step (step_of_stepTo step)) other
          exact ⟨same.trans allocated, count⟩

/-- Only a disposal clears the handle of the environment. -/
theorem env_of_act (sound : WorldSound world) (step : act.Step world after)
    (other : act.disposesEnvironment = false) :
    after.environment.env = world.environment.env := by
  cases act with
  | finalize => cases other
  | call op =>
      cases treeEffect_of_effect sound.natives (effect_of_step (step_of_stepTo step)) with
      | begun _ _ _ equal => rw [equal]; rfl
      | ended _ _ leaves => exact leaves.env
      | disposed dispose =>
          subst dispose
          cases other
      | kept keeps => exact keeps.env

/-- References to databases are not handed out twice, and a handle is not set again. -/
theorem dbi_of_act (sound : WorldSound world) (step : act.Step world after) :
    world.dbs.next ≤ after.dbs.next ∧
    ∀ d, after.dbi d ≠ 0 → world.dbi d ≠ 0 ∨ world.dbs.next ≤ d := by
  have same (kept : SameDatabases world after) : world.dbs.next ≤ after.dbs.next ∧
      ∀ d, after.dbi d ≠ 0 → world.dbi d ≠ 0 ∨ world.dbs.next ≤ d := by
    refine ⟨Nat.le_of_eq kept.next.symm, fun d live => .inl ?_⟩
    rcases (kept.object d).dbi with equal | lost
    · exact fun zero => live (equal.trans zero)
    · exact absurd lost live
  cases act with
  | finalize =>
      cases step
      refine same (.of_eq ?_)
      by_cases shut : world.environment.env = 0
      · rw [finalize_of_shut shut]
      · rw [finalize_of_open shut]
  | call op =>
      rcases databases_of_effect sound.transactions.idle (effect_of_step (step_of_stepTo step)) with
        ⟨t, kind, dbi, text, native, _, rfl⟩ | kept
      · refine ⟨Nat.le_succ _, fun d live => ?_⟩
        by_cases newest : d = world.dbs.next
        · exact .inr (Nat.le_of_eq newest.symm)
        · refine .inl ?_
          rw [World.dbi, added_dbs_of_ne newest] at live
          exact live
      · exact same kept

private theorem made_record (native : Native) (function other : LibFunc)
    (handles : List NativeHandle) :
    (native.record function handles).made other =
      native.made other + if function = other then 1 else 0 := by
  simp only [Native.made, Native.record, List.countP_cons, decide_eq_true_eq]

/-- A disposal of a live database makes one releasing call. -/
theorem disposeDatabase_made {d : DbRef} (live : world.dbi d ≠ 0) :
    (Database.dispose d world).native.made .mdbDbiClose = world.native.made .mdbDbiClose + 1 ∧
    (Database.dispose d world).dbi d = 0 := by
  unfold Database.dispose Database.exchange
  dsimp only
  rw [if_pos live]
  refine ⟨?_, ?_⟩
  · rw [databaseCallback_native]
    exact made_record world.native .mdbDbiClose .mdbDbiClose _
  · rw [World.dbi, databaseCallback_dbs]
    exact congrArg Database.dbi (Heap.modify_obj_self _ _ _)

/-- A drop that LMDB accepts makes one releasing call. -/
theorem drop_made {d : DbRef} {t : TxnRef} {result : Except Exception Unit} (live : world.dbi d ≠ 0)
    (returned : Database.drop d t .success world = some (result, after)) :
    after.native.made .mdbDrop = world.native.made .mdbDrop + 1 ∧ after.dbi d = 0 := by
  rw [Database.drop, Method.bind_of_ok (Database.checkDisposed_of_live live), Method.get_bind,
    Method.await_bind, World.awaitNative] at returned
  obtain ⟨⟨ret, dropped⟩, ran, rest⟩ := Option.bind_eq_some_iff.mp returned
  obtain ⟨⟨code, native⟩, gave, equal⟩ := Option.map_eq_some_iff.mp ran
  cases equal
  have calls := mdbDrop_calls gave
  have accepted : code = .success := by
    unfold Native.mdbDrop at gave
    dsimp only at gave
    rw [if_pos rfl] at gave
    split at gave
    · split at gave <;> cases gave <;> rfl
    · cases gave
  subst accepted
  rw [Method.bind_of_ok (checkRetCode_success _)] at rest
  cases rest
  refine ⟨?_, ?_⟩
  · have made : native.made .mdbDrop =
        (world.native.record .mdbDrop [.txn (world.handle t), .dbi (world.dbi d)]).made .mdbDrop :=
      congrArg (List.countP _) calls
    rw [Database.setDisposed, databaseCallback_native]
    exact made.trans (made_record _ _ _ _)
  · rw [Database.setDisposed, World.dbi, databaseCallback_dbs]
    exact congrArg Database.dbi (Heap.modify_obj_self _ _ _)

/-- A call that ends databases releases a live one once and a disposed one not at all. -/
theorem made_once {d : DbRef} {op : Op} {function : LibFunc} (named : op.database? = some d)
    (ends : op ≠ .databaseEnvironment d) (transition : Step world op after)
    (releases : world.dbi d ≠ 0 →
      after.native.made function = world.native.made function + 1 ∧ after.dbi d = 0) :
    after.native.made function - world.native.made function = 0 ∨
    after.native.made function - world.native.made function = 1 ∧
      world.dbi d ≠ 0 ∧ after.dbi d = 0 := by
  by_cases live : world.dbi d = 0
  · rcases database_disposed_step live named transition with same | ⟨reads, _⟩
    · exact .inl (by rw [same, Nat.sub_self])
    · exact absurd reads ends
  · obtain ⟨made, gone⟩ := releases live
    exact .inr ⟨by omega, live, gone⟩

/-- An act releases a database at most once, and one that does finds it undisposed
and leaves it disposed. -/
theorem releases_of_act (d : DbRef) (step : act.Step world after) :
    (⟨world, act, after⟩ : Transition runtime).releases d = 0 ∨
    (⟨world, act, after⟩ : Transition runtime).releases d = 1 ∧ world.dbi d ≠ 0 ∧ after.dbi d = 0 := by
  unfold Transition.releases
  dsimp only
  split
  · rename_i function releases
    unfold Act.releaseOf? at releases
    split at releases
    · rename_i e
      split at releases
      · rename_i same
        subst same
        cases releases
        have transition := step_of_stepTo step
        refine made_once rfl (by nofun) transition fun live => ?_
        obtain ⟨_, executed⟩ := transition
        obtain ⟨_, ran⟩ := void_cases (execute_eq_some_iff.mp executed).2
        cases ran
        exact disposeDatabase_made live
      · cases releases
    · rename_i e t answer
      split at releases
      · rename_i same
        obtain ⟨rfl, rfl⟩ := same
        cases releases
        have transition := step_of_stepTo step
        refine made_once rfl (by nofun) transition fun live => ?_
        obtain ⟨_, executed⟩ := transition
        obtain ⟨_, ran⟩ := void_cases (execute_eq_some_iff.mp executed).2
        exact drop_made live ran
      · cases releases
    · cases releases
  · exact .inl rfl

/-- Ending a disposed transaction, database or cursor changes nothing. -/
theorem unchanged_of_repeats (repeats : act.Repeats world) (step : act.Step world after)
    (other : act.disposesEnvironment = false) : after = world := by
  cases act with
  | finalize => cases other
  | call op =>
      have transition := step_of_stepTo step
      cases op with
      | commit t answer => exact transaction_disposed_step repeats rfl transition
      | disposeTransaction t => exact transaction_disposed_step repeats rfl transition
      | disposeDatabase d =>
          rcases database_disposed_step repeats rfl transition with same | ⟨absurd, _⟩
          · exact same
          · cases absurd
      | disposeCursor c =>
          obtain ⟨_, executed⟩ := transition
          obtain ⟨_, ran⟩ := void_cases (execute_eq_some_iff.mp executed).2
          cases ran
          exact disposeCursor_of_disposed repeats
      | disposeEnvironment => cases other
      | _ => exact repeats.elim

end Acts

/-- What holds along the course of an environment. -/
structure CourseSound (transitions : List (Transition runtime)) (world : World runtime) :
    Prop where
  releases : ReleasesSound world
  allocated : world.environment.instanceHandle = true
  frees : world.environment.instanceHandleFrees = disposals transitions
  shut : world.environment.env = 0 → 0 < disposals transitions
  once : ∀ d, (transitions.map (Transition.releases d)).sum ≤ 1
  held : ∀ d, world.dbi d ≠ 0 → (transitions.map (Transition.releases d)).sum = 0
  fresh : ∀ d, world.dbs.next ≤ d → (transitions.map (Transition.releases d)).sum = 0
  repeated : disposals transitions ≤ 1 → ∀ transition ∈ transitions,
    transition.act.Repeats transition.before → transition.after = transition.before

namespace CourseSound

variable {transitions : List (Transition runtime)} {world after : World runtime} {act : Act}

private theorem start (flags : LmdbEnvironmentOptions) (lastTxnId : Nat) :
    CourseSound [] (World.opened runtime flags lastTxnId) where
  releases := .opened flags lastTxnId
  allocated := rfl
  frees := rfl
  shut shut := absurd shut Nat.one_ne_zero
  once _ := Nat.zero_le 1
  held _ _ := rfl
  fresh _ _ := rfl
  repeated _ _ := nofun

private theorem disposals_snoc (transitions : List (Transition runtime))
    (transition : Transition runtime) :
    disposals (transitions ++ [transition]) =
      disposals transitions + if transition.act.disposesEnvironment then 1 else 0 := by
  rw [disposals, List.countP_append, List.countP_singleton]
  rfl

private theorem snoc (sound : CourseSound transitions world) (step : act.Step world after) :
    CourseSound (transitions ++ [⟨world, act, after⟩]) after := by
  obtain ⟨allocated, frees⟩ := frees_of_act sound.releases.sound sound.allocated step
  obtain ⟨next, kept⟩ := dbi_of_act sound.releases.sound step
  have count := disposals_snoc transitions ⟨world, act, after⟩
  have sum (d : DbRef) :
      ((transitions ++ [(⟨world, act, after⟩ : Transition runtime)]).map
        (Transition.releases d)).sum =
      (transitions.map (Transition.releases d)).sum +
        Transition.releases d ⟨world, act, after⟩ := by
    rw [List.map_append, List.sum_append, List.map_singleton, List.sum_singleton]
  refine ⟨sound.releases.act step, allocated, ?_, fun shut => ?_, fun d => ?_, fun d live => ?_,
    fun d beyond => ?_, fun few transition member repeats => ?_⟩
  · rw [frees, count, sound.frees]
  · rw [count]
    cases disposes : act.disposesEnvironment with
    | true => simp
    | false =>
        rw [env_of_act sound.releases.sound step disposes] at shut
        exact Nat.lt_of_lt_of_le (sound.shut shut) (Nat.le_add_right _ _)
  · rw [sum]
    rcases releases_of_act d step with none | ⟨one, live, _⟩
    · rw [none]
      exact sound.once d
    · have held := sound.held d live
      omega
  · rw [sum]
    rcases releases_of_act d step with none | ⟨_, _, gone⟩
    · rw [none]
      exact (kept d live).elim (sound.held d) (sound.fresh d)
    · exact absurd gone live
  · rw [sum]
    have older := Nat.le_trans next beyond
    rcases releases_of_act d step with none | ⟨_, live, _⟩
    · rw [none]
      exact sound.fresh d older
    · have bound := sound.releases.sound.databases.bound d live
      exact absurd bound (Nat.not_lt_of_le older)
  · rw [count] at few
    rcases List.mem_append.mp member with earlier | last
    · exact sound.repeated (Nat.le_trans (Nat.le_add_right _ _) few) transition earlier repeats
    · cases List.mem_singleton.mp last
      refine unchanged_of_repeats repeats step ?_
      cases disposes : act.disposesEnvironment with
      | false => rfl
      | true =>
          have shut : world.environment.env = 0 := by
            cases act with
            | finalize => exact repeats
            | call op =>
                cases op
                case disposeEnvironment => exact repeats
                all_goals cases disposes
          have earlier := sound.shut shut
          simp only [disposes, if_true] at few
          omega

private theorem of_course {flags : LmdbEnvironmentOptions} {lastTxnId : Nat}
    (course : Course flags lastTxnId transitions world) : CourseSound transitions world := by
  induction course with
  | nil => exact start flags lastTxnId
  | @snoc _ state transition _ _ _ step ih =>
      obtain ⟨before, act, after⟩ := transition
      obtain ⟨rfl, rfl, stepped⟩ := step
      exact ih.snoc stepped

end CourseSound

/-- Along every course of an environment, nothing is released twice and every
repeated call does nothing exactly when the environment is disposed at most once. -/
theorem releasedOnce_iff {flags : LmdbEnvironmentOptions} {lastTxnId : Nat}
    {transitions : List (Transition runtime)} {world : World runtime}
    (course : Course flags lastTxnId transitions world) :
    ReleasedOnce transitions world ↔ disposals transitions ≤ 1 := by
  have sound := CourseSound.of_course course
  constructor
  · intro released
    by_contra more
    have disposed : 0 < disposals transitions := by omega
    have freed := released.instanceHandle disposed
    rw [sound.frees] at freed
    omega
  · intro few
    refine ⟨sound.releases.once, sound.releases.txns.once, sound.releases.cursors.once, sound.once,
      fun disposed => ?_, sound.repeated few⟩
    rw [sound.frees]
    omega

/-- Acts that follow each other are the acts of transitions that follow each other. -/
theorem transitions_of_run {start world : World runtime} {acts : List Act}
    (run : Run Act.Step Always start acts world) :
    ∃ transitions, transitions.map Transition.act = acts ∧
      Run Transition.Step Always start transitions world := by
  induction run with
  | nil => exact ⟨[], rfl, .nil⟩
  | @snoc _ before act after _ _ step ih =>
      obtain ⟨transitions, same, prior⟩ := ih
      refine ⟨transitions ++ [⟨before, act, after⟩], ?_, .snoc prior trivial ⟨rfl, rfl, step⟩⟩
      rw [List.map_append, same, List.map_singleton]

/-- Replaying acts gives a course, and what holds where it leads to can be evaluated. -/
theorem course_of_replay (flags : LmdbEnvironmentOptions) (lastTxnId : Nat) (acts : List Act)
    (holds : World runtime → Prop) [DecidablePred holds]
    (observed : (replay Act.stepTo (fun _ _ => true) (World.opened runtime flags lastTxnId)
      acts).any (fun world => decide (holds world)) = true) :
    ∃ transitions world, transitions.map Transition.act = acts ∧
      Course flags lastTxnId transitions world ∧ holds world := by
  obtain ⟨world, replayed, held⟩ := (Option.any_eq_true _ _).mp observed
  have run : Run Act.Step Always (World.opened runtime flags lastTxnId) acts world :=
    run_of_replay id (fun _ => trivial) replayed
  obtain ⟨transitions, same, course⟩ := transitions_of_run run
  exact ⟨transitions, world, same, course, of_decide_eq_true held⟩

private theorem disposals_of_acts {transitions : List (Transition runtime)} {acts : List Act}
    (same : transitions.map Transition.act = acts) :
    disposals transitions = acts.countP Act.disposesEnvironment := by
  rw [← same, List.countP_map]
  rfl

/-- Everything is ended twice, and the environment is disposed once. -/
def endedTwice : List Act :=
  [.call (.beginDatabaseTransaction .none none .success), .call (plainOpen 0 "a" 2),
    .call (.openCursor 0 0 .success), .call (.disposeCursor 0), .call (.disposeCursor 0),
    .call (.commit 0 ⟨.success, true⟩), .call (.disposeTransaction 0),
    .call (.disposeDatabase 0), .call (.disposeDatabase 0), .call (.disposeEnvironment [])]

/-- Ending everything twice releases it once. -/
theorem releasedOnce_endedTwice : ∃ (transitions : List (Transition .ascii)) (world : World .ascii),
    transitions.map Transition.act = endedTwice ∧ Course .none 0 transitions world ∧
    ReleasedOnce transitions world := by
  obtain ⟨transitions, world, same, course, _⟩ := course_of_replay .none 0 endedTwice
    (fun world : World .ascii => world.environment.env = 0) (by decide +kernel)
  have few : disposals transitions ≤ 1 := by
    rw [disposals_of_acts same]
    decide
  exact ⟨transitions, world, same, course, (releasedOnce_iff course).mpr few⟩

/-- A second `Dispose` of an environment frees its `GCHandle` again. -/
theorem dispose_frees_twice : ∃ (transitions : List (Transition .ascii)) (world : World .ascii),
    transitions.map Transition.act =
      [.call (.disposeEnvironment []), .call (.disposeEnvironment [])] ∧
    Course .none 0 transitions world ∧ world.environment.instanceHandleFrees = 2 ∧
    ¬ReleasedOnce transitions world := by
  obtain ⟨transitions, world, same, course, freed⟩ := course_of_replay .none 0
    [.call (.disposeEnvironment []), .call (.disposeEnvironment [])]
    (fun world : World .ascii => world.environment.instanceHandleFrees = 2) (by decide +kernel)
  refine ⟨transitions, world, same, course, freed, fun released => ?_⟩
  have disposed : 0 < disposals transitions := by
    rw [disposals_of_acts same]
    decide
  cases (released.instanceHandle disposed).symm.trans freed

end KdSoftLmdb
