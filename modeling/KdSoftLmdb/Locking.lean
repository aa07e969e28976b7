import KdSoftLmdb.Library.Reports
import KdSoftLmdb.Threads.Databases

/-!
# dbTxnLock and LMDB's writer lock

`BeginDatabaseTransaction` calls `mdb_txn_begin` under `dbTxnLock`, and a
top-level begin waits until the present writer ends. The writer's own thread may
want `dbTxnLock` meanwhile: for the indexer, for `Databases`, for another
`BeginDatabaseTransaction`, or in the callback of a database or of a database
transaction. Then each of the two waits for the other.
-/

namespace KdSoftLmdb

variable {runtime : Runtime} {τ : Type}

/-- The calls that begin, end and open, and those on databases. -/
abbrev AnyCall := Op ⊕ DatabaseCall
abbrev AnyFrame := Frame ⊕ DatabaseFrame
abbrev AnyResult := Except Exception Returned ⊕ Except Exception DatabaseReturned

/-- The wrapper with all calls that take `dbTxnLock`. -/
def locking (runtime : Runtime) : Machine (World runtime) AnyFrame AnyCall AnyResult Frame.Lock :=
  (machine runtime).sum (databaseMachine runtime)

/-- Threads that make these calls, with a report of every call. -/
abbrev Lockers (τ : Type) (runtime : Runtime) :=
  Watched τ (World runtime) AnyFrame AnyCall AnyResult

/-- The transaction that a call returned. -/
def transaction? : AnyResult → Option TxnRef
  | .inl (.ok (.transaction t)) => some t
  | _ => none

/-- The transaction is the top-level write transaction that holds LMDB's writer lock. -/
def Native.isWriter (native : Native) (txn : IntPtr) : Bool :=
  native.live txn && !(native.txns.obj txn).readOnly && (native.txns.obj txn).chain.isEmpty

/-- The thread got the live write transaction from its begin. -/
def OwnsWriter (lockers : Lockers τ runtime) (thread : τ) : Prop :=
  ∃ report ∈ lockers.reports, report.thread = thread ∧
    (transaction? report.result).any (fun t =>
      lockers.pool.shared.native.isWriter (lockers.pool.shared.nativeTxn t)) = true

/-- The thread is in the native begin of a top-level `BeginDatabaseTransaction`. -/
def inTopLevelBegin : AnyFrame → Bool
  | .inl (.databaseTxnBegin parentTxn ..) => parentTxn = 0
  | _ => false

/-- One thread holds `dbTxnLock` while its native begin cannot return, and the
thread of the present writer waits for `dbTxnLock`. -/
structure Deadlock (lockers : Lockers τ runtime) (holder owner : τ) : Prop where
  different : holder ≠ owner
  holds : (lockers.pool.frames holder).bind (locking runtime).holds = some .dbTxnLock
  blocked : ∃ frame, lockers.pool.frames holder = some frame ∧ inTopLevelBegin frame = true ∧
    (locking runtime).advance frame lockers.pool.shared = none
  owns : OwnsWriter lockers owner
  waits : (lockers.pool.frames owner).bind ((locking runtime).needs lockers.pool.shared) =
    some .dbTxnLock

/-- The call starts with a block under `dbTxnLock`. -/
def startsUnderDbTxnLock : AnyCall → Bool
  | .inl (.beginDatabaseTransaction modes _ _) => !modes.isReadOnly
  | .inr (.indexer _) | .inr .databases => true
  | _ => false

/-- The step after the next one is a callback that takes `dbTxnLock`. -/
def leadsToDbTxnLock (world : World runtime) : AnyFrame → Bool
  | .inl (.release t _ _) => world.isDatabaseTransaction t
  | .inr (.disposed d) => (world.dbs.obj d).disposed = .databaseDisposed
  | _ => false

/-- A native begin that LMDB grants once the writer lock is free. -/
def beginsWriter : AnyFrame → Bool
  | .inl (.databaseTxnBegin parentTxn _ _ answer) => parentTxn = 0 && answer = .success
  | _ => false

/-- The condition on the steps: the thread of the present writer does not come
before `dbTxnLock` while another thread is in the native begin under it, and no
thread goes into that begin while the thread of the writer waits for the lock. -/
def LockOrder (lockers : Lockers τ runtime) : τ × Action AnyCall → Prop
  | (thread, .call call) => startsUnderDbTxnLock call = true → OwnsWriter lockers thread →
      ∀ other, thread ≠ other → (lockers.pool.frames other).any beginsWriter = false
  | (thread, .advance) =>
      match lockers.pool.frames thread with
      | some (.inl (.beginDatabase _ parent answer)) =>
          LmdbEnvironment.parentHandle lockers.pool.shared parent = 0 → answer = .success →
            ∀ other, thread ≠ other → OwnsWriter lockers other →
              (lockers.pool.frames other).bind ((locking runtime).needs lockers.pool.shared) ≠
                some .dbTxnLock
      | some frame => leadsToDbTxnLock lockers.pool.shared frame = true →
          OwnsWriter lockers thread →
            ∀ other, thread ≠ other → (lockers.pool.frames other).any beginsWriter = false
      | none => True

instance : ∀ (lockers : Lockers τ runtime) (label : τ × Action AnyCall),
    Decidable (Always lockers label) :=
  fun _ _ => .isTrue trivial

instance [DecidableEq τ] (lockers : Lockers τ runtime) (thread : τ) :
    Decidable (OwnsWriter lockers thread) :=
  inferInstanceAs (Decidable (∃ report ∈ lockers.reports, _ ∧ _))

instance [DecidableEq τ] [Fintype τ] (lockers : Lockers τ runtime) (label : τ × Action AnyCall) :
    Decidable (LockOrder lockers label) := by
  unfold LockOrder
  split
  · infer_instance
  · split <;> infer_instance

/-- What a frame of `begin`, `end` and `open` names was handed out before. -/
def Knows (frame : AnyFrame) (world : World runtime) : Prop :=
  ∀ own, frame = .inl own → own.Known world

/-- What threads and reports name was handed out. -/
structure LocksKnown (lockers : Lockers τ runtime) : Prop where
  frames : lockers.pool.Everywhere Knows
  reports : ∀ report ∈ lockers.reports, ∀ t, transaction? report.result = some t →
    t < lockers.pool.shared.txns.next ∧
      lockers.pool.shared.nativeTxn t < lockers.pool.shared.native.txns.next

/-- What holds of every run that keeps the lock order. -/
structure LocksSound (lockers : Lockers τ runtime) : Prop where
  known : LocksKnown lockers
  apart : lockers.pool.Apart (fun _ frame => beginsWriter frame = true) fun thread frame =>
    OwnsWriter lockers thread ∧
      (locking runtime).needs lockers.pool.shared frame = some .dbTxnLock

section Steps

variable {world after : World runtime} {frame : AnyFrame} {progress : Progress AnyFrame AnyResult}

/-- What a step of either machine keeps. -/
theorem persists_of_locking
    (stepped : (locking runtime).advance frame world = some (progress, after)) :
    Persists world after := by
  cases frame with
  | inl frame =>
      obtain ⟨_, ran, _⟩ := Machine.sum_advance_inl stepped
      exact persists_of_advance ran
  | inr frame =>
      obtain ⟨_, ran, _⟩ := Machine.sum_advance_inr stepped
      exact (databaseAdvance_keeps ran).2.1

private theorem Knows.mono (knows : Knows frame world) (persists : Persists world after) :
    Knows frame after := fun own equal => (knows own equal).mono persists

private theorem Knows.advance {next : AnyFrame} (knows : Knows frame world)
    (stepped : (locking runtime).advance frame world = some (progress, after))
    (goes : progress = .more next) : Knows next after := by
  intro own equal
  subst equal
  cases frame with
  | inl frame =>
      obtain ⟨taken, ran, rfl⟩ := Machine.sum_advance_inl stepped
      cases taken with
      | finish => cases goes
      | more following =>
          cases goes
          exact (knows frame rfl).advance ran rfl
  | inr frame =>
      obtain ⟨taken, ran, rfl⟩ := Machine.sum_advance_inr stepped
      cases taken <;> cases goes

/-- A transaction that a call returns is one of the objects, over a native transaction. -/
theorem Knows.returned {result : AnyResult} {t : TxnRef} (knows : Knows frame world)
    (stepped : (locking runtime).advance frame world = some (.finish result, after))
    (returned : transaction? result = some t) :
    t < after.txns.next ∧ after.nativeTxn t < after.native.txns.next := by
  cases frame with
  | inl frame =>
      obtain ⟨taken, ran, equal⟩ := Machine.sum_advance_inl stepped
      cases taken with
      | more => cases equal
      | finish own =>
          cases equal
          unfold transaction? at returned
          split at returned
          · rename_i equal
            cases equal
            cases returned
            exact (knows frame rfl).returned ran rfl
          · cases returned
  | inr frame =>
      obtain ⟨taken, ran, equal⟩ := Machine.sum_advance_inr stepped
      cases taken <;> cases equal
      cases returned

/-- The lock that a frame needs does not depend on what other threads do. -/
theorem needs_kept (knows : Knows frame world) (persists : Persists world after) :
    (locking runtime).needs after frame = (locking runtime).needs world frame := by
  cases frame with
  | inr frame => rfl
  | inl frame =>
      cases frame
      case callback t txnId ending =>
        have same := (persists.object t ((knows _ rfl).subject t rfl)).2
        simp only [World.isDatabaseTransaction, decide_eq_decide] at same
        exact if_congr same rfl rfl
      all_goals rfl

/-- A native transaction that is the writer now was the writer before. -/
theorem isWriter_before (persists : Persists world after) {txn : IntPtr}
    (known : txn < world.native.txns.next) (writes : after.native.isWriter txn = true) :
    world.native.isWriter txn = true := by
  have same := persists.native txn known
  simp only [Native.isWriter, Native.live, Bool.and_eq_true, beq_iff_eq] at writes ⊢
  rw [← same.readOnly, ← same.chain]
  exact ⟨⟨same.live writes.1.1, writes.1.2⟩, writes.2⟩

/-- A native begin that does not return was asked to succeed. -/
theorem beginsWriter_of_blocked (inBegin : inTopLevelBegin frame = true)
    (blocked : (locking runtime).advance frame world = none) : beginsWriter frame = true := by
  cases frame with
  | inr => cases inBegin
  | inl frame =>
      cases frame <;> try cases inBegin
      rename_i parentTxn modes parent answer
      rw [beginsWriter, Bool.and_eq_true]
      refine ⟨inBegin, ?_⟩
      by_contra failed
      have failed : answer ≠ .success := fun equal => failed (decide_eq_true equal)
      have stuck := Machine.sum_advance_inl_eq_none.mp blocked
      dsimp only [machine] at stuck
      rw [Frame.advance, Option.map_eq_none_iff, Frame.body] at stuck
      by_cases shut : world.environment.env = 0
      · rw [Method.bind_of_error (envCheck_of_shut shut)] at stuck
        cases stuck
      · rw [Method.bind_of_ok (envCheck_of_open shut), Method.bind_apply, Method.await_apply,
          World.awaitNative, Native.mdbTxnBegin, if_neg failed] at stuck
        dsimp only [Option.map_some] at stuck
        obtain ⟨message, threw⟩ := checkRetCode_failed failed { world with
          native := world.native.record .mdbTxnBegin [.env world.environment.env, .txn parentTxn] }
        rw [Method.bind_of_error threw] at stuck
        cases stuck

/-- A call starts in no native begin, and before `dbTxnLock` only as said. -/
theorem frame_roles {op : Op} {own : Frame} (starts : op.frame? = some own) :
    beginsWriter (.inl own) = false ∧
      (own.needs world = some .dbTxnLock → startsUnderDbTxnLock (.inl op) = true) := by
  cases op
  case openDatabase | openMultiValueDatabase | openFixedMultiValueDatabase =>
    obtain ⟨_, _, rfl⟩ := Option.map_eq_some_iff.mp starts
    refine ⟨rfl, fun needs => ?_⟩
    cases needs
  case beginDatabaseTransaction modes parent answer =>
    cases starts
    refine ⟨rfl, fun needs => ?_⟩
    rw [Frame.needs] at needs
    split at needs
    · cases needs
    · rename_i writable
      rw [startsUnderDbTxnLock, Bool.eq_false_of_not_eq_true writable]
      rfl
  case beginTransaction | beginReadOnlyTransaction | commit | disposeTransaction =>
    cases starts
    refine ⟨rfl, fun needs => ?_⟩
    cases needs
  all_goals cases starts

/-- What a thread is about to do when it enters a call. -/
theorem enter_roles {call : AnyCall} (enters : (locking runtime).enter world call = some frame) :
    Knows frame world ∧ beginsWriter frame = false ∧
      ((locking runtime).needs world frame = some .dbTxnLock →
        startsUnderDbTxnLock call = true) := by
  cases call with
  | inl op =>
      obtain ⟨own, entered, rfl⟩ := Option.map_eq_some_iff.mp enters
      refine ⟨fun other equal => Sum.inl.inj equal ▸ .enter entered, ?_⟩
      dsimp only [machine] at entered
      split at entered
      · exact frame_roles entered
      · cases entered
  | inr call =>
      obtain ⟨own, entered, rfl⟩ := Option.map_eq_some_iff.mp enters
      refine ⟨fun other equal => (nomatch equal), rfl, fun needs => ?_⟩
      dsimp only [databaseMachine] at entered
      split at entered
      · cases entered
        cases call
        case indexer | databases => rfl
        all_goals cases needs
      · cases entered

/-- Only `BeginDatabaseTransaction` goes into a native begin under `dbTxnLock`. -/
theorem beginsWriter_next {next : AnyFrame}
    (stepped : (locking runtime).advance frame world = some (.more next, after))
    (begins : beginsWriter next = true) : ∃ modes parent answer,
      frame = .inl (.beginDatabase modes parent answer) ∧
        LmdbEnvironment.parentHandle world parent = 0 ∧ answer = .success := by
  cases frame with
  | inr frame =>
      obtain ⟨taken, _, equal⟩ := Machine.sum_advance_inr stepped
      cases taken <;> cases equal
      cases begins
  | inl frame =>
      obtain ⟨taken, ran, equal⟩ := Machine.sum_advance_inl stepped
      cases moves_of_advance ran with
      | follows follows =>
          cases equal
          cases follows
          case beginDatabase =>
            rw [beginsWriter, Bool.and_eq_true] at begins
            exact ⟨_, _, _, rfl, of_decide_eq_true begins.1, of_decide_eq_true begins.2⟩
          case mdbSetCompare call _ _ _ _ =>
            unfold OpenCall.afterCompare at begins
            split at begins <;> cases begins
          all_goals cases begins
      | begun | databaseBegun | exchanged | ended | released | commitSucceeded =>
          cases equal
          cases begins
      | _ => cases equal

/-- Only two steps lead before `dbTxnLock`. -/
theorem needs_next {next : AnyFrame}
    (stepped : (locking runtime).advance frame world = some (.more next, after))
    (needs : (locking runtime).needs after next = some .dbTxnLock) :
    leadsToDbTxnLock world frame = true := by
  cases frame with
  | inr frame =>
      obtain ⟨taken, ran, equal⟩ := Machine.sum_advance_inr stepped
      cases taken <;> cases equal
      obtain ⟨d, rfl, callback⟩ := disposed_of_needs ran needs
      exact decide_eq_true callback
  | inl frame =>
      obtain ⟨taken, ran, equal⟩ := Machine.sum_advance_inl stepped
      have persists := persists_of_advance ran
      cases moves_of_advance ran with
      | follows follows =>
          cases equal
          cases follows
          case mdbSetCompare call _ _ _ _ =>
            unfold OpenCall.afterCompare at needs
            split at needs <;> cases needs
          all_goals cases needs
      | @released t txnId ending =>
          cases equal
          have kind : ((Transaction.releaseManagedResources t ending.forCommit world).txns.obj
              t).kind = (world.txns.obj t).kind := by
            rw [releaseManagedResources_eq]
            dsimp only
            rw [Heap.modify_obj_self]
            rfl
          change (if _ = _ then _ else _) = _ at needs
          rw [kind] at needs
          split at needs
          · rename_i database
            exact decide_eq_true database
          · cases needs
      | @ended t handle txnId ending =>
          cases equal
          change (if _ = _ then _ else _) = _ at needs
          split at needs <;> cases needs
      | begun | databaseBegun | exchanged | commitSucceeded =>
          cases equal
          cases needs
      | _ => cases equal

end Steps

section Runs

variable [DecidableEq τ] {lockers after : Lockers τ runtime} {label : τ × Action AnyCall}
  {thread : τ} {frame : AnyFrame} {progress : Progress AnyFrame AnyResult} {call : AnyCall}
  {passed : List AnyFrame} {shared : World runtime}

omit [DecidableEq τ] in
private theorem LocksSound.no_deadlock (sound : LocksSound lockers) (holder owner : τ) :
    ¬Deadlock lockers holder owner := by
  intro dead
  obtain ⟨frame, here, inBegin, blocked⟩ := dead.blocked
  obtain ⟨waiting, there, needs⟩ := Option.bind_eq_some_iff.mp dead.waits
  exact sound.apart holder owner frame waiting dead.different here there
    (beginsWriter_of_blocked inBegin blocked) ⟨dead.owns, needs⟩

/-- A thread that owns the writer after a step owned the same one before, unless the step
was the return from its begin. -/
theorem LocksKnown.writer_kept (known : LocksKnown lockers)
    (persists : Persists lockers.pool.shared shared) {owner : τ}
    (still : owner ≠ thread ∨ ∃ next, progress = .more next)
    (owns : OwnsWriter (lockers.advanced thread call passed progress shared) owner) :
    OwnsWriter lockers owner ∧ ∃ txn, lockers.pool.shared.native.isWriter txn = true ∧
      shared.native.isWriter txn = true := by
  obtain ⟨report, member, mine, writes⟩ := owns
  rcases Watched.mem_reports_advanced member with earlier | ⟨result, rfl, rfl⟩
  · obtain ⟨t, returned, writes⟩ := (Option.any_eq_true _ _).mp writes
    obtain ⟨named, bound⟩ := known.reports report earlier t returned
    have writes : shared.native.isWriter (shared.nativeTxn t) = true := writes
    rw [(persists.object t named).1] at writes
    have before := isWriter_before persists bound writes
    refine ⟨⟨report, earlier, mine, ?_⟩, _, before, writes⟩
    rw [returned, Option.any_some]
    exact before
  · rcases still with different | ⟨_, equal⟩
    · exact absurd mine.symm different
    · cases equal

/-- A call begins. -/
theorem LocksKnown.enter (known : LocksKnown lockers)
    (enters : (locking runtime).enter lockers.pool.shared call = some frame) :
    LocksKnown (lockers.entered thread call frame) where
  frames := known.frames.set (fun next equal => by cases equal; exact (enter_roles enters).1)
    fun _ _ _ _ => id
  reports := known.reports

/-- A call goes on. -/
theorem LocksKnown.advance (known : LocksKnown lockers)
    (here : lockers.pool.frames thread = some frame)
    (stepped : (locking runtime).advance frame lockers.pool.shared = some (progress, shared)) :
    LocksKnown (lockers.advanced thread call passed progress shared) := by
  have persists := persists_of_locking stepped
  refine ⟨known.frames.set (fun next equal => ?_) ?_, fun report member t returned => ?_⟩
  · cases progress with
    | finish => cases equal
    | more following =>
        cases equal
        exact (known.frames thread frame here).advance stepped rfl
  · exact fun _ _ _ _ knows => knows.mono persists
  · rcases Watched.mem_reports_advanced member with earlier | ⟨result, rfl, rfl⟩
    · obtain ⟨named, bound⟩ := known.reports report earlier t returned
      refine ⟨Nat.lt_of_lt_of_le named persists.txns, ?_⟩
      change shared.nativeTxn t < _
      rw [(persists.object t named).1]
      exact Nat.lt_of_lt_of_le bound persists.natives
    · exact (known.frames thread frame here).returned stepped returned

omit [DecidableEq τ] in
/-- Before the first call, nothing was handed out. -/
theorem LocksKnown.idle (world : World runtime) : LocksKnown (.idle τ world) where
  frames _ _ here := by cases here
  reports _ member := by cases member

private theorem LocksSound.enter (sound : LocksSound lockers)
    (order : LockOrder lockers (thread, .call call))
    (enters : (locking runtime).enter lockers.pool.shared call = some frame) :
    LocksSound (lockers.entered thread call frame) := by
  obtain ⟨knows, outside, starts⟩ := enter_roles enters
  refine ⟨sound.known.enter enters, sound.apart.set (fun next equal begins => ?_)
    (fun next equal second => ?_) fun _ _ _ _ => ⟨id, id⟩⟩
  · cases equal
    cases outside.symm.trans begins
  · cases equal
    intro other frame' different there begins
    have free := order (starts second.2) second.1 other different
    rw [there, Option.any_some] at free
    cases free.symm.trans begins

omit [DecidableEq τ] in
/-- The condition on a step that leads before `dbTxnLock`. -/
theorem LockOrder.free (order : LockOrder lockers (thread, .advance))
    (here : lockers.pool.frames thread = some frame)
    (leads : leadsToDbTxnLock lockers.pool.shared frame = true)
    (owns : OwnsWriter lockers thread) (other : τ) (different : thread ≠ other) :
    (lockers.pool.frames other).any beginsWriter = false := by
  rw [LockOrder, here] at order
  split at order
  · rename_i begins
    cases begins
    cases leads
  · rename_i equal
    cases equal
    exact order leads owns other different
  · rename_i none
    cases none

private theorem LocksSound.advance (sound : LocksSound lockers)
    (order : LockOrder lockers (thread, .advance)) (here : lockers.pool.frames thread = some frame)
    (stepped : (locking runtime).advance frame lockers.pool.shared = some (progress, shared)) :
    LocksSound (lockers.advanced thread call passed progress shared) := by
  have persists := persists_of_locking stepped
  have before {owner : τ} {waiting : AnyFrame} (there : lockers.pool.frames owner = some waiting)
      (still : owner ≠ thread ∨ ∃ next, progress = .more next)
      (second : OwnsWriter (lockers.advanced thread call passed progress shared) owner ∧
        (locking runtime).needs shared waiting = some .dbTxnLock) :
      OwnsWriter lockers owner ∧
        (locking runtime).needs lockers.pool.shared waiting = some .dbTxnLock :=
    ⟨(sound.known.writer_kept persists still second.1).1,
      needs_kept (sound.known.frames owner waiting there) persists ▸ second.2⟩
  refine ⟨sound.known.advance here stepped,
    sound.apart.set (fun next equal begins => ?_) (fun next equal second => ?_)
      fun other waiting different there => ⟨id, before there (.inl different.symm)⟩⟩
  · -- the thread goes into the native begin
    cases progress with
    | finish => cases equal
    | more following =>
        cases equal
        obtain ⟨modes, parent, answer, rfl, topLevel, accepted⟩ := beginsWriter_next stepped begins
        rw [LockOrder, here] at order
        intro other waiting different there second
        obtain ⟨owns, needs⟩ := before there (.inl different.symm) second
        refine order topLevel accepted other different owns ?_
        rw [there]
        exact needs
  · -- the thread comes before the lock
    cases progress with
    | finish => cases equal
    | more following =>
        cases equal
        intro other beginning different there begins
        have owns := (sound.known.writer_kept persists (.inr ⟨_, rfl⟩) second.1).1
        have free := order.free here (needs_next stepped second.2) owns other different
        rw [there, Option.any_some] at free
        cases free.symm.trans begins

omit [DecidableEq τ] in
private theorem LocksSound.idle (world : World runtime) : LocksSound (.idle τ world) where
  known := .idle world
  apart _ _ _ _ _ here := by cases here

private theorem LocksSound.step (sound : LocksSound lockers) (order : LockOrder lockers label)
    (step : lockers.Step (locking runtime) label after) : LocksSound after := by
  cases step with
  | call _ enters => exact sound.enter order enters
  | advance here _ _ stepped => exact sound.advance order here stepped

/-- While the threads keep the lock order, `dbTxnLock` and LMDB's writer lock do
not lock each other out. -/
theorem lock_order_sound {flags : LmdbEnvironmentOptions} {lastTxnId : Nat}
    {labels : List (τ × Action AnyCall)}
    (run : Run (Watched.Step (locking runtime)) LockOrder
      (.idle τ (World.opened runtime flags lastTxnId)) labels lockers) (holder owner : τ) :
    ¬Deadlock lockers holder owner := by
  have sound : LocksSound lockers :=
    run.invariant LocksSound (.idle _) fun held order step => held.step order step
  exact sound.no_deadlock holder owner

end Runs

/-- Neither of the two threads can make a step. -/
theorem Deadlock.stuck [DecidableEq τ] {lockers after : Lockers τ runtime} {holder owner : τ}
    (dead : Deadlock lockers holder owner) (action : Action AnyCall) :
    ¬lockers.Step (locking runtime) (holder, action) after ∧
      ¬lockers.Step (locking runtime) (owner, action) after := by
  obtain ⟨frame, here, _, blocked⟩ := dead.blocked
  obtain ⟨waiting, there, needs⟩ := Option.bind_eq_some_iff.mp dead.waits
  constructor
  · intro step
    cases step with
    | call idle => cases idle.symm.trans here
    | advance here' _ _ stepped =>
        cases here.symm.trans here'
        cases blocked.symm.trans stepped
  · intro step
    cases step with
    | call idle => cases idle.symm.trans there
    | advance there' _ unlocked _ =>
        cases there.symm.trans there'
        refine unlocked ?_
        rw [Pool.Waits, needs]
        exact ⟨holder, dead.different, dead.holds⟩

/-- One thread begins a write transaction, and another one comes to the native
begin of its `BeginDatabaseTransaction`. -/
def untilSecondBegin : List (Bool × Action AnyCall) :=
  (false, .call (.inl (.beginTransaction .none none ⟨.success, .success⟩))) ::
    List.replicate 4 (false, .advance) ++
    [(true, .call (.inl (.beginDatabaseTransaction .none none .success))), (true, .advance)]

/-- The writer commits before it asks for the databases, and both calls return. -/
theorem lock_order_sound_commit : ∃ lockers : Lockers Bool .ascii,
    lockers.reports.length = 4 ∧ ∀ holder owner, ¬Deadlock lockers holder owner := by
  obtain ⟨lockers, run, returned⟩ := Watched.watched_of_replay (locking .ascii) LockOrder
    (.idle Bool (World.opened .ascii .none 0)) (untilSecondBegin ++
      (false, .call (.inl (.commit 0 ⟨.success, true⟩))) :: List.replicate 7 (false, .advance) ++
      [(false, .call (.inr .databases)), (true, .advance), (true, .advance), (false, .advance)])
    (fun lockers => lockers.reports.length = 4) (by decide +kernel)
  exact ⟨lockers, returned, lock_order_sound run⟩

/-- The writer asks for the databases while the other thread is in its native begin. -/
theorem writer_asks_databases : ∃ lockers : Lockers Bool .ascii,
    Run (Watched.Step (locking .ascii)) Always (.idle Bool (World.opened .ascii .none 0))
      (untilSecondBegin ++ [(false, .call (.inr .databases))]) lockers ∧
    Deadlock lockers true false := by
  obtain ⟨lockers, run, holds, blocked, owns, waits⟩ := Watched.watched_of_replay (locking .ascii)
    Always (.idle Bool (World.opened .ascii .none 0))
    (untilSecondBegin ++ [(false, .call (.inr .databases))]) (fun lockers =>
      (lockers.pool.frames true).bind (locking .ascii).holds = some .dbTxnLock ∧
      (lockers.pool.frames true).any (fun frame => inTopLevelBegin frame &&
        ((locking .ascii).advance frame lockers.pool.shared).isNone) = true ∧
      OwnsWriter lockers false ∧
      (lockers.pool.frames false).bind ((locking .ascii).needs lockers.pool.shared) =
        some .dbTxnLock) (by decide +kernel)
  obtain ⟨frame, here, stuck⟩ := (Option.any_eq_true _ _).mp blocked
  rw [Bool.and_eq_true, Option.isNone_iff_eq_none] at stuck
  exact ⟨lockers, run, Bool.noConfusion, holds, ⟨frame, here, stuck.1, stuck.2⟩, owns, waits⟩

end KdSoftLmdb
