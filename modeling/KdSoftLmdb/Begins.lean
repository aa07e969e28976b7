import KdSoftLmdb.Commits
import KdSoftLmdb.Threads.Registering

/-!
# Begins on many threads

Once LMDB has begun a transaction, `BeginTransaction` has to enter it into the
registry, under an id that other transactions may have too: readers of one
snapshot share theirs, a nested transaction has its parent's, and a reader that
begins between a native commit and its callback has that of the writer. Then the
begin aborts what LMDB began and throws.
-/

namespace KdSoftLmdb

variable {runtime : Runtime} {τ : Type}

/-- The condition on the steps of the threads. -/
def Undisturbed (observed : Observed τ runtime) : τ × Action Op → Prop
  | (_, .call _) => True
  | (thread, .advance) =>
      ∀ frame ∈ observed.pool.frames thread, frame.Undisturbed observed.pool

instance [Fintype τ] (pool : Threads τ runtime) :
    ∀ frame : Frame, Decidable (frame.Undisturbed pool) := by
  intro frame
  apply frame.casesOn (motive := fun frame => Decidable (frame.Undisturbed pool)) <;> intros <;>
    unfold Frame.Undisturbed <;> infer_instance

instance [Fintype τ] (observed : Observed τ runtime) :
    ∀ label : τ × Action Op, Decidable (Undisturbed observed label)
  | (_, .call _) => .isTrue trivial
  | (thread, .advance) => inferInstanceAs
      (Decidable (∀ frame ∈ observed.pool.frames thread, frame.Undisturbed observed.pool))

/-- LMDB began this transaction for the call. -/
def Report.Began (report : Report τ (World runtime) Frame Op (Except Exception Returned))
    (txn : IntPtr) : Prop :=
  ∃ frame ∈ report.passed, frame.began? = some txn

/-- The steps that a begin has still to make after the native one, at most. -/
def Frame.stepsLeft : Frame → Nat
  | mdbTxnId .. => 4
  | options .. => 3
  | tryAdd .. => 2
  | refused .. | databaseTxnId .. => 1
  | _ => 0

/-- Every call for which LMDB began a transaction returns an object that holds it,
live, and no such call waits on its way there. -/
structure BeginsReturn (observed : Observed τ runtime) : Prop where
  returned : ∀ report ∈ observed.reports, ∀ txn, report.Began txn →
    ∃ t, report.result = .ok (.transaction t) ∧ report.shared.handle t = txn ∧
      report.shared.Live txn
  onward : ∀ thread frame txn, observed.pool.frames thread = some frame →
    frame.began? = some txn → ¬observed.pool.Waits (machine runtime) thread frame ∧
      ∃ progress after, (machine runtime).advance frame observed.pool.shared =
        some (progress, after) ∧ ∀ next, progress = .more next → next.stepsLeft < frame.stepsLeft

/-- The frames in which a begin throws after LMDB has begun the transaction. -/
def Frame.Fails : Frame → Prop
  | refused .. => True
  | options _ _ _ answer => answer ≠ .success
  | _ => False

/-- How the step of a begin ends that holds a native transaction. -/
inductive BeginStep (frame : Frame) (txn : IntPtr) (after : World runtime) :
    Progress Frame (Except Exception Returned) → Prop where
  | onward {next} (began : next.began? = some txn) (fewer : next.stepsLeft < frame.stepsLeft) :
      BeginStep frame txn after (.more next)
  | returns {t} (holds : after.handle t = txn) :
      BeginStep frame txn after (.finish (.ok (.transaction t)))
  | throws {exception} (fails : frame.Fails) :
      BeginStep frame txn after (.finish (.error exception))

section Steps

variable {world : World runtime} {frame : Frame} {txn : IntPtr}

private theorem advance_options (opened : world.environment.env ≠ 0) (txnId : Nat)
    (parent : Option TxnRef) (answer : DbRetCode) : ∃ progress after,
      (machine runtime).advance (.options txn txnId parent answer) world = some (progress, after) ∧
        BeginStep (.options txn txnId parent answer) txn after progress := by
  dsimp only [machine]
  rw [Frame.advance, Frame.body, Method.bind_apply, getOptions_eq world opened]
  by_cases succeeded : answer = .success
  · subst succeeded
    rw [Method.bind_of_ok (checkRetCode_success _)]
    exact ⟨_, _, rfl, .onward rfl (by simp [Frame.stepsLeft])⟩
  · obtain ⟨message, threw⟩ := checkRetCode_failed succeeded { world with
      native := world.native.record .mdbEnvGetFlags [.env world.environment.env] }
    rw [Method.bind_of_error threw]
    exact ⟨_, _, rfl, .throws succeeded⟩

private theorem advance_tryAdd (world : World runtime) (txnId : Nat) (kind : TransactionKind)
    (parent : Option TxnRef) (checkConcurrent : Bool) : ∃ progress after,
      (machine runtime).advance (.tryAdd txn txnId kind parent checkConcurrent) world =
          some (progress, after) ∧
        BeginStep (.tryAdd txn txnId kind parent checkConcurrent) txn after progress := by
  dsimp only [machine]
  rw [Frame.advance, Frame.body, Method.get_bind, Method.call_bind]
  split
  · exact ⟨_, _, rfl, .onward rfl (by simp [Frame.stepsLeft])⟩
  · refine ⟨_, _, rfl, .returns ?_⟩
    exact congrArg Transaction.txn (Heap.alloc_obj_next _ _)

/-- A begin that holds a native transaction can always go on. -/
theorem beginStep (opened : world.environment.env ≠ 0) (began : frame.began? = some txn) :
    ∃ progress after, (machine runtime).advance frame world = some (progress, after) ∧
      BeginStep frame txn after progress := by
  cases frame
  case mdbTxnId txn modes parent answer =>
    cases began
    dsimp only [machine]
    rw [Frame.advance, Frame.body, Method.call_bind]
    split
    · exact ⟨_, _, rfl, .onward rfl (by simp [Frame.stepsLeft])⟩
    · exact ⟨_, _, rfl, .onward rfl (by simp [Frame.stepsLeft])⟩
  case options txn txnId parent answer =>
    cases began
    exact advance_options opened txnId parent answer
  case tryAdd txn txnId kind parent checkConcurrent =>
    cases began
    exact advance_tryAdd world txnId kind parent checkConcurrent
  case refused =>
    cases began
    exact ⟨_, _, rfl, .throws trivial⟩
  case databaseTxnId =>
    cases began
    exact ⟨_, _, rfl, .returns (congrArg Transaction.txn (Heap.alloc_obj_next _ _))⟩
  all_goals cases began

/-- No frame of a begin that holds a native transaction takes a lock. -/
theorem needs_of_began (began : frame.began? = some txn) :
    (machine runtime).needs world frame = none := by
  cases frame <;> cases began <;> rfl

end Steps

/-- What holds of every run in which no begin is disturbed. -/
structure BeginsSound (start : World runtime) (observed : Observed τ runtime) : Prop where
  holding : HoldingSound start observed.pool
  registering : RegisteringSound observed.pool
  calls : observed.Calls fun frame _ _ passed =>
    ∀ earlier ∈ passed, ∀ txn, earlier.began? = some txn → frame.began? = some txn
  returned : ∀ report ∈ observed.reports, ∀ txn, report.Began txn →
    ∃ t, report.result = .ok (.transaction t) ∧ report.shared.handle t = txn ∧
      report.shared.Live txn

namespace BeginsSound

private theorem idle (flags : LmdbEnvironmentOptions) (lastTxnId : Nat) :
    BeginsSound (World.opened runtime flags lastTxnId)
      (.idle τ (World.opened runtime flags lastTxnId) : Observed τ runtime) where
  holding := (CommitsSound.idle ⟨flags, lastTxnId, [], .nil⟩).holding
  registering := .idle flags lastTxnId
  calls thread frame call passed here := by cases here
  returned report member := by cases member

variable {start : World runtime} {observed after : Observed τ runtime} {label : τ × Action Op}

/-- The native transaction that a begin holds is live. -/
theorem live_of_began {frame : Frame} {world : World runtime} {txn : IntPtr}
    (knows : frame.Sound world) (began : frame.began? = some txn) : world.Live txn := by
  cases frame
  case mdbTxnId | databaseTxnId =>
    cases began
    exact knows
  case options =>
    cases began
    exact knows.1
  case tryAdd =>
    cases began
    exact knows.1.1
  case refused => exact knows.elim
  all_goals cases began

/-- Under the condition a begin that holds a native transaction does not throw. -/
theorem not_fails {frame : Frame} {pool : Threads τ runtime} (knows : frame.Sound pool.shared)
    (undisturbed : frame.Undisturbed pool) : ¬frame.Fails := by
  intro fails
  cases frame
  case refused => exact knows
  case options => exact fails undisturbed
  all_goals exact fails

private theorem beginsReturn (sound : BeginsSound start observed) : BeginsReturn observed where
  returned := sound.returned
  onward thread frame txn here began := by
    obtain ⟨progress, after, stepped, goes⟩ := beginStep sound.registering.opened began
    refine ⟨?_, progress, after, stepped, ?_⟩
    · rw [Pool.Waits, needs_of_began began]
      exact id
    · rintro next rfl
      cases goes with
      | onward _ fewer => exact fewer

variable [DecidableEq τ]

private theorem step (sound : BeginsSound start observed) (undisturbed : Undisturbed observed label)
    (step : observed.Step (machine runtime) label after) : BeginsSound start after := by
  have holding := sound.holding.step step.pool
  cases step with
  | call idle enters =>
      refine ⟨holding, sound.registering.enter idle enters, sound.calls.entered ?_, sound.returned⟩
      intro earlier member
      cases member
  | @advance thread frame progress shared call passed here within unlocked stepped =>
      have undisturbed := undisturbed frame here
      have registering := sound.registering.advance sound.holding here undisturbed stepped
      have knows := sound.registering.frames thread frame here
      have began {earlier : Frame} (member : earlier ∈ frame :: passed) {txn : IntPtr}
          (holds : earlier.began? = some txn) : frame.began? = some txn := by
        rcases List.mem_cons.mp member with rfl | before
        · exact holds
        · exact sound.calls thread frame call passed here within earlier before txn holds
      have goes {txn : IntPtr} (holds : frame.began? = some txn) :
          BeginStep frame txn shared progress := by
        obtain ⟨_, _, ran, goes⟩ := beginStep sound.registering.opened holds
        cases ran.symm.trans stepped
        exact goes
      refine ⟨holding, registering, sound.calls.advanced ?_ fun _ _ _ _ _ _ _ kept => kept, ?_⟩
      · rintro next rfl earlier member txn holds
        cases goes (began member holds) with
        | onward kept => exact kept
      · intro report member txn holds
        rcases Watched.mem_reports_advanced member with earlier | ⟨result, rfl, rfl⟩
        · exact sound.returned report earlier txn holds
        · obtain ⟨earlier, passes, holds⟩ := holds
          have mine := began passes holds
          have live := sound.registering.live_kept sound.holding here undisturbed stepped here mine
            (live_of_began knows mine)
          cases goes mine with
          | returns held => exact ⟨_, rfl, held, live⟩
          | throws fails => exact absurd fails (not_fails knows undisturbed)

end BeginsSound

/-- In every run in which no outstanding transaction has the id of one that is
entered into the registry, and none is ended under a begin, all begins return. -/
theorem begins_return [DecidableEq τ] {flags : LmdbEnvironmentOptions} {lastTxnId : Nat}
    {observed : Observed τ runtime} {labels : List (τ × Action Op)}
    (run : Run (Watched.Step (machine runtime)) Undisturbed
      (.idle τ (World.opened runtime flags lastTxnId)) labels observed) :
    BeginsReturn observed := by
  have sound := run.invariant (BeginsSound (World.opened runtime flags lastTxnId))
    (.idle flags lastTxnId) fun held condition step => held.step condition step
  exact sound.beginsReturn

/-- The call of a reader on a thread, with its steps. -/
def readerOn (thread : Bool) (steps : Nat) : List (Bool × Action Op) :=
  (thread, .call (.beginReadOnlyTransaction .none none ⟨.success, .success⟩)) ::
    List.replicate steps (thread, .advance)

/-- Two readers of one snapshot without thread-local storage. -/
theorem begins_return_two_readers : ∃ observed : Observed Bool .ascii,
    BeginsReturn observed ∧ observed.pool.shared.handle 0 = 1 ∧
      observed.pool.shared.handle 1 = 2 := by
  obtain ⟨observed, run, handles⟩ := Watched.watched_of_replay (machine .ascii) Undisturbed
    (.idle Bool (World.opened .ascii .noThreadLocalStorage 0)) (readerOn false 5 ++ readerOn true 5)
    (fun observed => observed.pool.shared.handle 0 = 1 ∧ observed.pool.shared.handle 1 = 2)
    (by decide +kernel)
  exact ⟨observed, begins_return run, handles⟩

/-- The call threw after LMDB had begun a transaction. -/
def Report.refused (report : Report τ (World runtime) Frame Op (Except Exception Returned)) :
    Bool :=
  match report.passed, report.result with
  | .refused _ _ :: _, .error _ => true
  | _, _ => false

/-- Two readers of one snapshot with thread-local storage: the second one's
transaction is aborted, and its begin throws. -/
theorem second_reader_refused : ∃ observed : Observed Bool .ascii,
    Run (Watched.Step (machine .ascii)) Always (.idle Bool (World.opened .ascii .none 0))
      (readerOn false 5 ++ readerOn true 6) observed ∧
    (observed.pool.shared.native.txns.obj 2).fate = .aborted ∧ ¬BeginsReturn observed := by
  obtain ⟨observed, run, aborted, reported⟩ := Watched.watched_of_replay (machine .ascii) Always
    (.idle Bool (World.opened .ascii .none 0)) (readerOn false 5 ++ readerOn true 6)
    (fun observed => (observed.pool.shared.native.txns.obj 2).fate = .aborted ∧
      observed.reports.any Report.refused = true) (by decide +kernel)
  obtain ⟨report, member, refused⟩ := List.any_eq_true.mp reported
  refine ⟨observed, run, aborted, fun returns => ?_⟩
  unfold Report.refused at refused
  split at refused
  · rename_i txn txnId earlier exception passed result
    have began : report.Began txn := ⟨.refused txn txnId, by rw [passed]; simp, rfl⟩
    obtain ⟨t, returned, _⟩ := returns.returned report member txn began
    cases result.symm.trans returned
  · cases refused

end KdSoftLmdb
