import KdSoftLmdb.Locking

/-!
# Callers that keep off dbTxnLock

`LockOrder` looks at what the other threads do. A caller can do without that: the
thread of the present writer makes no call that comes before `dbTxnLock` while its
transaction holds LMDB's writer lock. It may still end a top-level
`DatabaseTransaction`, whose callback takes `dbTxnLock` after the native end.
-/

namespace KdSoftLmdb

variable {runtime : Runtime} {τ : Type}

/-- The call may come before `dbTxnLock` while LMDB's writer lock is taken. -/
def takesDbTxnLock (world : World runtime) : AnyCall → Bool
  | .inl (.beginDatabaseTransaction modes _ _) => !modes.isReadOnly
  | .inl (.commit t _) | .inl (.disposeTransaction t) =>
      world.isDatabaseTransaction t && world.handle t != 0 &&
        !world.native.isWriter (world.nativeTxn t)
  | .inl _ => false
  | .inr _ => true

/-- The condition on the calls: the thread of the present writer makes none of these. -/
def KeepsOff (lockers : Lockers τ runtime) : τ × Action AnyCall → Prop
  | (thread, .call call) =>
      OwnsWriter lockers thread → takesDbTxnLock lockers.pool.shared call = false
  | (_, .advance) => True

instance [DecidableEq τ] (lockers : Lockers τ runtime) :
    ∀ label : τ × Action AnyCall, Decidable (KeepsOff lockers label)
  | (thread, .call call) => inferInstanceAs
      (Decidable (OwnsWriter lockers thread → takesDbTxnLock lockers.pool.shared call = false))
  | (_, .advance) => .isTrue trivial

/-- The frame is on no way to `dbTxnLock`, or the writer ends before it gets there. -/
def Frame.KeepsOff (world : World runtime) : Frame → Prop
  | beginDatabase modes _ _ => modes.isReadOnly = true
  | commit t _ | exchange t _ => world.isDatabaseTransaction t = true → world.handle t ≠ 0 →
      world.native.isWriter (world.nativeTxn t) = true
  | endId t handle _ | nativeEnd t handle _ _ => world.isDatabaseTransaction t = true →
      world.native.isWriter handle = true
  | release t _ _ | callback t _ _ => world.isDatabaseTransaction t = false
  | _ => True

/-- LMDB lets one top-level write transaction in at a time. -/
structure WritersSound (native : Native) : Prop where
  born : ∀ txn, native.live txn = true → txn < native.txns.next
  one : ∀ first second, native.isWriter first = true → native.isWriter second = true →
    first = second

/-- An undisposed transaction object has the native transaction of its begin. -/
def HandlesKept (world : World runtime) : Prop :=
  ∀ t, world.handle t ≠ 0 → t < world.txns.next ∧ world.handle t = world.nativeTxn t

section Writers

variable {native after : Native}

private theorem Native.isWriter_congr (same : after.txns = native.txns) (txn : IntPtr) :
    after.isWriter txn = native.isWriter txn := by
  rw [isWriter, isWriter, live, live, same]

/-- A writer among those that were handed out keeps others from being let in. -/
theorem Native.hasWriter_of_isWriter (sound : WritersSound native) {txn : IntPtr}
    (writes : native.isWriter txn = true) : native.hasWriter = true := by
  have alive : native.live txn = true := by
    rw [isWriter, Bool.and_eq_true, Bool.and_eq_true] at writes
    exact writes.1.1
  exact List.any_eq_true.mpr ⟨txn, List.mem_range.mpr (sound.born txn alive), writes⟩

private theorem WritersSound.of_txns (sound : WritersSound native)
    (same : after.txns = native.txns) :
    WritersSound after := by
  refine ⟨fun txn alive => ?_, fun first second writes writes' => ?_⟩
  · rw [Native.live, same] at alive
    rw [same]
    exact sound.born txn alive
  · rw [Native.isWriter_congr same] at writes writes'
    exact sound.one first second writes writes'

/-- LMDB lets a writer in when there is none. -/
theorem WritersSound.begun (sound : WritersSound native) {parentTxn : IntPtr}
    {modes : TransactionModes} (begins : BeginsUnder native parentTxn modes after) :
    WritersSound after := by
  have txns := begins.state.txns
  have fresh : after.txns.obj native.txns.next = native.begun parentTxn modes := by
    rw [txns, Heap.alloc_obj_next]
  have others {txn : IntPtr} (older : txn ≠ native.txns.next) :
      after.isWriter txn = native.isWriter txn := by
    have same : after.txns.obj txn = native.txns.obj txn := by
      rw [txns, Heap.alloc_obj_of_ne _ _ older]
    rw [Native.isWriter, Native.isWriter, Native.live, Native.live, same]
  have alone {txn : IntPtr} (older : txn ≠ native.txns.next) (writes : after.isWriter txn = true)
      (newest : after.isWriter native.txns.next = true) : False := by
    have none := begins.accepted
    rw [Native.isWriter, Native.live, fresh, Native.begun] at newest
    rw [Native.canBegin, native.hasWriter_of_isWriter sound (others older ▸ writes)] at none
    by_cases topLevel : parentTxn = 0
    · simp_all
    · simp [topLevel] at newest
  refine ⟨fun txn alive => ?_, fun first second writes writes' => ?_⟩
  · rw [txns]
    by_cases newest : txn = native.txns.next
    · exact newest ▸ Nat.lt_succ_self _
    · rw [Native.live, txns, Heap.alloc_obj_of_ne _ _ newest] at alive
      exact Nat.lt_succ_of_lt (sound.born txn alive)
  · by_cases newest : first = native.txns.next <;> by_cases newest' : second = native.txns.next
    · rw [newest, newest']
    · exact (alone newest' writes' (newest ▸ writes)).elim
    · exact (alone newest writes (newest' ▸ writes')).elim
    · exact sound.one first second (others newest ▸ writes) (others newest' ▸ writes')

/-- Neither the ended transaction nor one that was none before is a writer. -/
theorem Native.isWriter_ended {ending : Ending} {root txn : IntPtr}
    (writes : (ending.native root native).isWriter txn = true) :
    native.isWriter txn = true ∧ txn ≠ root := by
  obtain ⟨readOnly, _, chain⟩ := native.endOf_identity root ending.fate txn (native.txns.obj txn)
  rw [isWriter, live_ended, ended_txn, readOnly, chain] at writes
  simp only [Bool.and_eq_true, Bool.not_eq_true'] at writes
  obtain ⟨⟨⟨alive, outside⟩, writable⟩, topLevel⟩ := writes
  refine ⟨?_, ?_⟩
  · rw [isWriter, alive, topLevel, writable]
    rfl
  · rintro rfl
    rw [within, beq_self_eq_true] at outside
    cases outside

private theorem WritersSound.ended (sound : WritersSound native) (ending : Ending) (root : IntPtr) :
    WritersSound (ending.native root native) := by
  refine ⟨fun txn alive => ?_, fun first second writes writes' => ?_⟩
  · rw [Native.live_ended, Bool.and_eq_true] at alive
    rw [Native.ended_next]
    exact sound.born txn alive.1
  · exact sound.one first second (Native.isWriter_ended writes).1 (Native.isWriter_ended writes').1

end Writers

section Steps

variable {world after : World runtime} {frame : AnyFrame} {progress : Progress AnyFrame AnyResult}

/-- No step lets a second writer in. -/
theorem WritersSound.advance (sound : WritersSound world.native)
    (stepped : (locking runtime).advance frame world = some (progress, after)) :
    WritersSound after.native := by
  cases frame with
  | inr frame =>
      obtain ⟨_, ran, _⟩ := Machine.sum_advance_inr stepped
      exact sound.of_txns (databaseAdvance_keeps ran).1
  | inl frame =>
      obtain ⟨_, ran, _⟩ := Machine.sum_advance_inl stepped
      cases moves_of_advance ran with
      | follows _ same | failed _ same | closed same | databaseConstructed same =>
          exact sound.of_txns same
      | begun begins | databaseBegun begins => exact sound.begun begins
      | refused => exact sound.ended .abort _
      | ended => exact sound.ended _ _
      | aborted | commitFailed | commitSucceeded =>
          rw [invokeDisposed_native]
          exact sound
      | committed returned =>
          rw [(committed_keeps returned).1]
          exact sound
      | released =>
          rw [releaseManagedResources_eq]
          exact sound
      | _ => exact sound

/-- A handle is that of the begin until it is exchanged. -/
theorem handles_of_locking
    (stepped : (locking runtime).advance frame world = some (progress, after)) :
    (HandlesKept world → HandlesKept after) ∧
      ∀ t < world.txns.next, after.handle t = world.handle t ∨ after.handle t = 0 := by
  have persists := persists_of_locking stepped
  have kept (fresh : ∀ t, after.handle t = world.handle t ∨ after.handle t = 0 ∨
      t < after.txns.next ∧ after.handle t = after.nativeTxn t) (held : HandlesKept world) :
      HandlesKept after := by
    intro t live
    rcases fresh t with same | disposed | fresh
    · obtain ⟨known, equal⟩ := held t (same ▸ live)
      refine ⟨Nat.lt_of_lt_of_le known persists.txns, ?_⟩
      rw [same, equal, (persists.object t known).1]
    · exact absurd disposed live
    · exact fresh
  cases frame with
  | inr frame =>
      obtain ⟨_, ran, _⟩ := Machine.sum_advance_inr stepped
      have same := (databaseAdvance_keeps ran).2.2
      exact ⟨kept fun t => .inl (same t), fun t _ => .inl (same t)⟩
  | inl frame =>
      obtain ⟨_, ran, _⟩ := Machine.sum_advance_inl stepped
      have hands := hands_of_advance ran
      exact ⟨kept hands.fresh, fun t known => (hands.object known).2⟩

/-- A frame that is off the lock needs it in no state. -/
theorem needs_of_keepsOff {own : Frame} (off : own.KeepsOff world) :
    own.needs world ≠ some .dbTxnLock := by
  intro needs
  unfold Frame.needs at needs
  split at needs
  · rw [Frame.KeepsOff] at off
    rw [if_pos off] at needs
    cases needs
  · rename_i t txnId ending
    split at needs
    · rename_i database
      rw [Frame.KeepsOff, World.isDatabaseTransaction] at off
      exact of_decide_eq_false off database
    · cases needs
  · split at needs <;> cases needs
  all_goals cases needs

/-- The frame is one of the calls that begin, end and open, and off the lock. -/
def KeepsOffLock (frame : AnyFrame) (world : World runtime) : Prop :=
  ∃ own, frame = .inl own ∧ (∀ t, own.subject? = some t → t < world.txns.next) ∧
    own.KeepsOff world

/-- A call that is not one of those starts off the lock. -/
theorem keepsOff_of_frame {op : Op} {own : Frame} (starts : op.frame? = some own)
    (free : takesDbTxnLock world (.inl op) = false) : own.KeepsOff world := by
  cases op
  case openDatabase | openMultiValueDatabase | openFixedMultiValueDatabase =>
    obtain ⟨_, _, rfl⟩ := Option.map_eq_some_iff.mp starts
    trivial
  case beginDatabaseTransaction modes parent answer =>
    cases starts
    rw [takesDbTxnLock, Bool.not_eq_false'] at free
    exact free
  case beginTransaction | beginReadOnlyTransaction =>
    cases starts
    trivial
  case commit | disposeTransaction =>
    cases starts
    intro database live
    simpa [takesDbTxnLock, database, live] using free
  all_goals cases starts

private theorem keepsOff_of_enter {call : AnyCall} (free : takesDbTxnLock world call = false)
    (enters : (locking runtime).enter world call = some frame) : KeepsOffLock frame world := by
  cases call with
  | inr call => cases free
  | inl op =>
      obtain ⟨own, entered, rfl⟩ := Option.map_eq_some_iff.mp enters
      refine ⟨own, rfl, (Frame.Known.enter entered).subject, ?_⟩
      dsimp only [machine] at entered
      split at entered
      · exact keepsOff_of_frame entered free
      · cases entered

/-- What is off the lock stays so while others make steps, as long as the writer is there. -/
theorem KeepsOffLock.mono {other : AnyFrame} (off : KeepsOffLock frame world)
    (stepped : (locking runtime).advance other world = some (progress, after))
    (sound : WritersSound world.native) {writer : IntPtr}
    (writes : world.native.isWriter writer = true) (writes' : after.native.isWriter writer = true) :
    KeepsOffLock frame after := by
  have persists := persists_of_locking stepped
  have handles := (handles_of_locking stepped).2
  obtain ⟨own, rfl, subject, off⟩ := off
  -- a writer from before is still one, as there is no other
  have still {txn : IntPtr} (wrote : world.native.isWriter txn = true) :
      after.native.isWriter txn = true := sound.one writer txn writes wrote ▸ writes'
  refine ⟨own, rfl, fun t named => Nat.lt_of_lt_of_le (subject t named) persists.txns, ?_⟩
  cases own
  case commit t _ | exchange t _ =>
    obtain ⟨native, kind⟩ := persists.object t (subject t rfl)
    intro database live
    rw [native]
    refine still (off (kind ▸ database) ?_)
    rcases handles t (subject t rfl) with same | disposed
    · exact same ▸ live
    · exact absurd disposed live
  case endId t handle _ | nativeEnd t handle _ _ =>
    intro database
    exact still (off ((persists.object t (subject t rfl)).2 ▸ database))
  case release t _ _ | callback t _ _ =>
    exact (persists.object t (subject t rfl)).2.trans off
  case beginDatabase => exact off
  all_goals trivial

/-- The next frame is off the lock as well, as long as the writer is there. -/
theorem KeepsOffLock.next {next : AnyFrame} (off : KeepsOffLock frame world)
    (stepped : (locking runtime).advance frame world = some (.more next, after))
    (sound : WritersSound world.native) (held : HandlesKept world) {writer : IntPtr}
    (writes : world.native.isWriter writer = true) (writes' : after.native.isWriter writer = true) :
    KeepsOffLock next world := by
  obtain ⟨own, rfl, subject, off⟩ := off
  obtain ⟨taken, ran, equal⟩ := Machine.sum_advance_inl stepped
  cases taken with
  | finish => cases equal
  | more following =>
      cases equal
      cases moves_of_advance ran with
      | follows follows =>
          refine ⟨following, rfl,
            fun t named => subject t ((Frame.Known.names follows).2 t named), ?_⟩
          cases follows
          case commit | endId => exact off
          case mdbSetCompare call _ _ _ _ =>
            rw [OpenCall.afterCompare]
            split <;> trivial
          all_goals trivial
      | begun | databaseBegun => exact ⟨_, rfl, nofun, trivial⟩
      | commitSucceeded => exact ⟨_, rfl, subject, trivial⟩
      | exchanged live =>
          refine ⟨_, rfl, subject, fun database => ?_⟩
          rw [(held _ live).2]
          exact off database live
      | @ended t handle txnId ending =>
          -- the writer that is left is not the one that ended
          refine ⟨_, rfl, subject, Bool.eq_false_of_not_eq_true fun database => ?_⟩
          exact (Native.isWriter_ended writes').2 (sound.one _ _ writes (off database))
      | released => exact ⟨_, rfl, subject, off⟩

end Steps

section Runs

variable [DecidableEq τ] {lockers after : Lockers τ runtime} {label : τ × Action AnyCall}

/-- What holds of every run whose callers keep off the lock. -/
structure KeepsOffSound (lockers : Lockers τ runtime) : Prop where
  known : LocksKnown lockers
  writers : WritersSound lockers.pool.shared.native
  handles : HandlesKept lockers.pool.shared
  off : ∀ thread frame, lockers.pool.frames thread = some frame → OwnsWriter lockers thread →
    KeepsOffLock frame lockers.pool.shared

omit [DecidableEq τ] in
private theorem KeepsOffSound.idle (flags : LmdbEnvironmentOptions) (lastTxnId : Nat) :
    KeepsOffSound (.idle τ (World.opened runtime flags lastTxnId)) where
  known := .idle _
  writers := by
    have dead (txn : IntPtr) : (Native.opened flags lastTxnId).live txn = false := rfl
    refine ⟨fun txn alive => ?_, fun first second writes => ?_⟩
    · cases (dead txn).symm.trans alive
    · cases writes
  handles t live := absurd rfl live
  off _ _ here := by cases here

private theorem KeepsOffSound.step (sound : KeepsOffSound lockers)
    (condition : KeepsOff lockers label)
    (step : lockers.Step (locking runtime) label after) : KeepsOffSound after := by
  cases step with
  | @call thread call frame idle enters =>
      refine ⟨sound.known.enter enters, sound.writers, sound.handles,
        fun other frame' here owns => ?_⟩
      by_cases mine : other = thread
      · subst mine
        cases (Pool.set_frames_self _ _ _ _).symm.trans here
        exact keepsOff_of_enter (condition owns) enters
      · exact sound.off other frame' ((Pool.set_frames_of_ne _ _ _ mine).symm.trans here) owns
  | @advance thread frame progress shared call passed here _ _ stepped =>
      have persists := persists_of_locking stepped
      refine ⟨sound.known.advance here stepped, sound.writers.advance stepped,
        (handles_of_locking stepped).1 sound.handles, fun other frame' there owns => ?_⟩
      by_cases mine : other = thread
      · subst mine
        have there := (Pool.set_frames_self _ _ _ _).symm.trans there
        cases progress with
        | finish => cases there
        | more next =>
            cases there
            obtain ⟨owned, writer, writes, writes'⟩ :=
              sound.known.writer_kept persists (.inr ⟨_, rfl⟩) owns
            exact ((sound.off other frame here owned).next stepped sound.writers sound.handles
              writes writes').mono stepped sound.writers writes writes'
      · have there := (Pool.set_frames_of_ne _ _ _ mine).symm.trans there
        obtain ⟨owned, writer, writes, writes'⟩ :=
          sound.known.writer_kept persists (.inl mine) owns
        exact (sound.off other frame' there owned).mono stepped sound.writers writes writes'

end Runs

end KdSoftLmdb
