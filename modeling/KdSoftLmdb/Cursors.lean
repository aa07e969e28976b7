import KdSoftLmdb.Invariants.CursorSets
import KdSoftLmdb.Separation

/-!
# Who closes a native cursor

LMDB frees the open cursors of a write transaction when the transaction ends, and
keeps those of a reader. The wrapper follows: the end of a write transaction only
clears the handles of the cursors in its set, and a read-only cursor closes its
native cursor itself, however long after the end of its transaction.
-/

namespace KdSoftLmdb

variable {runtime : Runtime}

namespace World

/-- LMDB has freed the cursor. -/
def cursorFreed (world : World runtime) (cursor : IntPtr) : Bool :=
  (world.native.cursors.obj cursor).freed

/-- How often the wrapper closed the cursor. -/
def closes (world : World runtime) (cursor : IntPtr) : Nat := world.released (.cursor cursor)

/-- The native cursor that a call closes, if it is not null. -/
def closedBy (world : World runtime) : Op → IntPtr
  | .disposeCursor c => world.cur c
  | _ => 0

/-- The transaction writes. -/
def isWriter (world : World runtime) (t : TxnRef) : Prop :=
  (world.txns.obj t).kind ≠ .readOnlyTransaction

/-- The cursor's native transaction was begun as this write transaction, which has ended. -/
def EndedWith (world : World runtime) (cursor : IntPtr) (t : TxnRef) : Prop :=
  t < world.txns.next ∧ world.isWriter t ∧ world.handle t = 0 ∧
    world.nativeTxn t = (world.native.cursors.obj cursor).txn

end World

/-- What a step does to cursor objects and LMDB's cursors. -/
inductive CursorEffect (world : World runtime) (op : Op) (after : World runtime) : Prop where
  | kept (objects : after.cursors = world.cursors)
      (next : after.native.cursors.next = world.native.cursors.next)
      (natives : ∀ k, after.native.cursors.obj k = world.native.cursors.obj k)
  | ended {t ending} (ends : op.ending? = some (t, ending)) (live : world.handle t ≠ 0)
      (leaves : EndsAs t ending world after)
  | opened {d t} (live : world.native.live (world.handle t) = true)
      (objects : after.cursors = world.cursors.alloc ⟨(world.dbs.obj d).kind,
        world.native.cursors.next, (world.txns.obj t).kind = .readOnlyTransaction, some t⟩)
      (natives : after.native.cursors =
        world.native.cursors.alloc ⟨world.handle t, world.dbi d, false⟩)
  | closed {c} (own : op = .disposeCursor c) (live : world.cur c ≠ 0)
      (objects : after.cursors = world.cursors.modify c Cursor.clearHandle)
      (natives : after.native.cursors =
        world.native.cursors.modify (world.cur c) fun old => { old with freed := true })
  | renewed {c t} (live : world.cur c ≠ 0)
      (objects : after.cursors = world.cursors)
      (natives : after.native.cursors =
        world.native.cursors.modify (world.cur c) fun old => { old with txn := world.handle t })

section Steps

variable {world after : World runtime} {op : Op}

private theorem cursorEffect_of_effect (natives : NativeSound world.native)
    (known : ∀ k, world.cursorFreed k = false →
      (world.native.cursors.obj k).txn < world.native.txns.next)
    (remains : ∀ order, op ≠ .disposeEnvironment order) (effect : Effect world op after) :
    CursorEffect world op after := by
  have same {native : Native} (cursors : native.cursors = world.native.cursors) :
      CursorEffect world op { world with native := native } :=
    .kept rfl (congrArg Heap.next cursors) fun k => congrArg (fun heap => heap.obj k) cursors
  cases effect with
  | recorded unchanged => exact same unchanged.cursors
  | begunDatabase _ _ _ begins =>
      exact .kept rfl (congrArg Heap.next begins.state.cursors)
        fun k => congrArg (fun heap => heap.obj k) begins.state.cursors
  | begun _ _ _ begins =>
      exact .kept rfl (congrArg Heap.next begins.state.cursors)
        fun k => congrArg (fun heap => heap.obj k) begins.state.cursors
  | @begunTaken _ modes parent answer native _ _ begins =>
      have cursors : native.cursors = world.native.cursors := begins.state.cursors
      have next : native.cursors.next = world.native.cursors.next := by rw [cursors]
      refine .kept rfl next fun k => ?_
      refine (Native.ended_cursor .abort world.native.txns.next native k).trans ?_
      rw [cursors]
      split
      · rename_i reached
        cases freed : world.cursorFreed k with
        | true =>
            rw [World.cursorFreed] at freed
            exact congrArg (NativeCursor.mk _ _) freed.symm
        | false =>
            rw [within_newest (natives.begun begins.accepted begins.state) (known k freed)] at reached
            cases reached
      · rfl
  | begunLeaked _ _ begins => exact same begins.state.cursors
  | closed ends live => exact .ended ends live (.of_closing _ _ _)
  | promoted live _ _ _ promoted => exact .ended rfl live (.promoted promoted)
  | reader _ _ state => exact same state.cursors
  | opened _ _ _ _ slot =>
      exact .kept rfl (congrArg Heap.next slot.elsewhere.cursors)
        fun k => congrArg (fun heap => heap.obj k) slot.elsewhere.cursors
  | openFailed _ _ slot => exact same slot.elsewhere.cursors
  | databaseGone _ _ elsewhere =>
      refine .kept (by simp) ?_ fun k => ?_
      · rw [databaseCallback_native]
        exact congrArg Heap.next elsewhere.cursors
      · rw [databaseCallback_native]
        exact congrArg (fun heap => heap.obj k) elsewhere.cursors
  | cursorOpened _ live state => exact .opened live rfl state.cursors
  | cursorGone live state =>
      refine .closed rfl live (cursorCallback_cursors _ _) ?_
      rw [cursorCallback_native]
      exact state.cursors
  | cursorRenewed _ live _ state => exact .renewed live rfl state.cursors
  | environmentDisposed => exact absurd rfl (remains _)

/-- A commit releases the handle of its transaction, or nothing. -/
theorem commit_released {t : TxnRef} {answer : Transaction.CommitAnswer}
    {result : Except Exception Unit}
    (returned : Transaction.commit t answer world = some (result, after)) :
    after.released = world.released ∨
    after.released = withRelease world.released (.txn (world.handle t)) := by
  have closed := closing_released world t (.commit answer)
  cases commit_cases returned with
  | disposed => exact .inl rfl
  | failed | plain => exact .inr closed
  | @database _ _ rest _ _ _ _ _ promoted =>
      have leaves := @EndsAs.promoted _ _ _ _ _ rest _ promoted
      exact .inr ((congrArg Native.releases leaves.native).trans closed)

/-- Only the disposal of its object closes a cursor. -/
theorem closes_of_step (remains : ∀ order, op ≠ .disposeEnvironment order)
    (transition : Step world op after) (k : IntPtr) :
    after.closes k = world.closes k + if k = world.closedBy op ∧ k ≠ 0 then 1 else 0 := by
  obtain ⟨result, executed⟩ := transition
  obtain ⟨_, returned⟩ := execute_eq_some_iff.mp executed
  have other (same : after.closes k = world.closes k) (null : world.closedBy op = 0) :
      after.closes k = world.closes k + if k = world.closedBy op ∧ k ≠ 0 then 1 else 0 := by
    rw [if_neg]
    · exact same
    · rintro ⟨zero, positive⟩
      exact positive (zero.trans null)
  cases op with
  | beginTransaction | beginReadOnlyTransaction =>
      obtain ⟨_, ran, _⟩ := returning_cases returned
      refine other ?_ rfl
      rcases beginTransaction_released ran with same | ⟨_, count⟩
      · exact congrFun same _
      · rw [World.closes, count, withRelease_of_ne (by nofun)]
        rfl
  | commit t answer =>
      obtain ⟨_, ran⟩ := void_cases returned
      refine other ?_ rfl
      rcases commit_released ran with same | count
      · exact congrFun same _
      · rw [World.closes, count, withRelease_of_ne (by nofun)]
        rfl
  | disposeTransaction t =>
      obtain ⟨_, ran⟩ := void_cases returned
      cases ran
      refine other ?_ rfl
      by_cases live : world.handle t = 0
      · rw [dispose_of_disposed live]
      · rw [dispose_of_live live, World.closes, closing_released, withRelease_of_ne (by nofun)]
        rfl
  | disposeCursor c =>
      obtain ⟨_, ran⟩ := void_cases returned
      cases ran
      by_cases live : world.cur c = 0
      · rw [disposeCursor_of_disposed live, if_neg]
        · rfl
        · rintro ⟨zero, positive⟩
          exact positive (zero.trans live)
      · rw [World.closes, disposeCursor_released live, withRelease, World.closedBy]
        refine congrArg (world.closes k + ·) (if_congr ?_ rfl rfl)
        rw [NativeHandle.cursor.injEq]
        exact ⟨fun same => ⟨same, same ▸ live⟩, And.left⟩
  | disposeEnvironment order => exact absurd rfl (remains order)
  | _ => exact other (congrFun (spares_body _ rfl _ _ _ returned) _) rfl

end Steps

/-- What holds of cursors while transactions follow each other. -/
structure CloseSound (world : World runtime) : Prop where
  nesting : NestingSound world
  fates : FatesSound world
  releases : ReleasesSound world
  sets : CursorSetsSound world
  roots : ∀ t, world.parent t = none
  held : ∀ k, world.cursorFreed k = false → ∃ c, world.cur c = k
  gone : ∀ k, 0 < k → k < world.native.cursors.next → world.cursorFreed k = true →
    world.closes k = 0 → ∃ t, world.EndedWith k t

namespace CloseSound

variable {world after : World runtime} {op : Op}

private theorem opened (flags : LmdbEnvironmentOptions) (lastTxnId : Nat) :
    CloseSound (World.opened runtime flags lastTxnId) where
  nesting := .opened flags lastTxnId
  fates := .opened flags lastTxnId
  releases := .opened flags lastTxnId
  sets := .opened flags lastTxnId
  roots _ := rfl
  held _ unfreed := by cases unfreed
  gone _ positive known := (Nat.not_lt.mpr positive known).elim

private theorem leaf (close : CloseSound world) (t : TxnRef) : world.Leaf t :=
  .inr fun u _ isParent => by cases isParent.symm.trans (close.roots u)

private theorem leaves (close : CloseSound world) (succession : InSuccession op) :
    EndsLeaves world op := by
  cases op with
  | commit t | disposeTransaction t => exact close.leaf t
  | disposeEnvironment => exact succession.elim
  | _ => trivial

/-- An open native cursor is in a transaction that LMDB handed out. -/
theorem txn_lt (close : CloseSound world) {k : IntPtr} (unfreed : world.cursorFreed k = false) :
    (world.native.cursors.obj k).txn < world.native.txns.next := by
  obtain ⟨c, rfl⟩ := close.held k unfreed
  have live : world.cur c ≠ 0 := Nat.ne_of_gt (close.nesting.sound.natives.cursors _ unfreed).1
  cases readOnly : (world.cursors.obj c).isReadOnly with
  | true => exact (close.nesting.cursors.reads c live readOnly).1
  | false =>
      obtain ⟨t, callback, alive, _⟩ := close.nesting.sound.cursors.owned c live readOnly
      have same := close.nesting.cursors.writes c t live readOnly callback
      rw [World.nativeCursor] at same
      rw [same]
      exact (close.nesting.sound.natives.txns _ (close.nesting.tree.alive t alive)).2

private theorem cursorEffect (close : CloseSound world) (succession : InSuccession op)
    (effect : Effect world op after) : CursorEffect world op after := by
  refine cursorEffect_of_effect close.nesting.sound.natives (fun _ => close.txn_lt) ?_ effect
  rintro order rfl
  exact succession

/-- The end of `t` frees the open cursors of the writer `t`, and no other ones. -/
theorem ended_cursor (close : CloseSound world) {t : TxnRef} {ending : Ending}
    (live : world.handle t ≠ 0) (leaves : EndsAs t ending world after) {c : CursorRef}
    (held : world.cur c ≠ 0) :
    ((world.cursors.obj c).isReadOnly = false ∧ world.cursorOwner c = some t ∧
      world.isWriter t ∧ (world.nativeCursor c).txn = world.handle t ∧
      after.cur c = 0 ∧ after.cursorFreed (world.cur c) = true) ∨
    (world.cursorOwner c = some t → (world.cursors.obj c).isReadOnly = true) ∧
      after.cursors.obj c = world.cursors.obj c ∧
      after.native.cursors.obj (world.cur c) = world.nativeCursor c := by
  have objects : after.cursors.obj c = if c ∈ world.cursorsOf t then (world.cursors.obj c).release
      else world.cursors.obj c := by
    rw [leaves.cursors, closing_cursor]
    rfl
  have natives := Native.ended_cursor ending (world.handle t)
    (world.native.record .mdbTxnId [.txn (world.handle t)]) (world.cur c)
  rw [← closing_native, ← leaves.native] at natives
  have cursors := close.nesting.cursors
  have tree := close.nesting.tree
  cases readOnly : (world.cursors.obj c).isReadOnly with
  | true =>
      refine .inr ⟨fun _ => rfl, ?_, ?_⟩
      · rw [objects, Cursor.release, if_pos readOnly]
        exact ite_self _
      · obtain ⟨_, reads⟩ := cursors.reads c held readOnly
        rw [World.nativeCursor] at reads
        rw [natives, Native.record_txns, Native.record_cursors, reads, if_neg (by simp)]
        rfl
  | false =>
      obtain ⟨u, callback, alive, member⟩ := close.nesting.sound.cursors.owned c held readOnly
      have txn := cursors.writes c u held readOnly callback
      by_cases same : u = t
      · subst same
        have writer : world.isWriter u := fun reader => by
          cases readOnly.symm.trans ((close.sets.kinds c u callback).2.mpr reader)
        have writes : (world.native.txns.obj (world.handle u)).readOnly = false :=
          Bool.eq_false_iff.mpr fun reads => writer ((tree.readers u alive).mp reads)
        refine .inl ⟨rfl, callback, writer, txn, ?_, ?_⟩
        · rw [World.cur, objects, if_pos (show c ∈ world.cursorsOf u from member), Cursor.release,
            if_neg (by simp [readOnly])]
          rfl
        · rw [World.nativeCursor] at txn
          rw [World.cursorFreed, natives, Native.record_txns, Native.record_cursors, txn, writes,
            if_pos (by simp [Native.within])]
      · have unlisted : c ∉ world.cursorsOf t := fun listed => by
          cases callback.symm.trans (close.sets.listed t c listed).2
          exact same rfl
        refine .inr ⟨fun owner => ?_, ?_, ?_⟩
        · cases callback.symm.trans owner
          exact (same rfl).elim
        · rw [objects, if_neg unlisted]
        · have outside := tree.outside close.nesting.sound.transactions live (close.leaf t) alive same
          rw [World.nativeCursor] at txn
          rw [natives, Native.record_cursors, txn, if_neg]
          · rfl
          · intro reached
            cases (Bool.and_eq_true_iff.mp reached).1.symm.trans outside

/-- An open native cursor keeps its object, unless the object or the end of its
write transaction frees it. -/
theorem held_step (close : CloseSound world) (effect : CursorEffect world op after) {k : IntPtr}
    (unfreed : after.cursorFreed k = false) : ∃ c, after.cur c = k := by
  have sound := close.nesting.sound
  have live {c : CursorRef} (freed : world.cursorFreed (world.cur c) = false) : world.cur c ≠ 0 :=
    Nat.ne_of_gt (sound.natives.cursors _ freed).1
  cases effect with
  | kept objects _ natives =>
      rw [World.cursorFreed, natives] at unfreed
      obtain ⟨c, held⟩ := close.held k unfreed
      exact ⟨c, by rw [World.cur, objects]; exact held⟩
  | @ended t ending _ alive leaves =>
      have before : world.cursorFreed k = false := by
        rw [World.cursorFreed, leaves.native, closing_native, Native.ended_cursor] at unfreed
        split at unfreed
        · cases unfreed
        · exact unfreed
      obtain ⟨c, rfl⟩ := close.held k before
      rcases close.ended_cursor alive leaves (live before) with
        ⟨_, _, _, _, _, freed⟩ | ⟨_, object, _⟩
      · cases unfreed.symm.trans freed
      · exact ⟨c, congrArg Cursor.cur object⟩
  | opened _ objects natives =>
      rw [World.cursorFreed, natives, Heap.alloc_obj] at unfreed
      split at unfreed
      · rename_i new
        refine ⟨world.cursors.next, ?_⟩
        rw [World.cur, objects, Heap.alloc_obj_next, new]
      · obtain ⟨c, rfl⟩ := close.held k unfreed
        have older := Nat.ne_of_lt (sound.cursors.bound c (live unfreed))
        refine ⟨c, ?_⟩
        rw [World.cur, objects, Heap.alloc_obj_of_ne _ _ older]
        rfl
  | @closed c _ held objects natives =>
      rw [World.cursorFreed, natives, Heap.modify_obj] at unfreed
      split at unfreed
      · cases unfreed
      · rename_i different
        obtain ⟨e, rfl⟩ := close.held k unfreed
        have other : e ≠ c := fun same => different (congrArg world.cur same)
        refine ⟨e, ?_⟩
        rw [World.cur, objects, Heap.modify_obj_of_ne _ _ other]
        rfl
  | renewed held objects natives =>
      rw [World.cursorFreed, natives, Heap.modify_obj] at unfreed
      have before : world.cursorFreed k = false := by
        split at unfreed <;> exact unfreed
      obtain ⟨c, held⟩ := close.held k before
      exact ⟨c, by rw [World.cur, objects]; exact held⟩

/-- What has ended stays so. -/
theorem endedWith_kept (close : CloseSound world) (effect : Effect world op after) {k : IntPtr}
    {t : TxnRef} (ended : world.EndedWith k t)
    (same : (after.native.cursors.obj k).txn = (world.native.cursors.obj k).txn) :
    after.EndedWith k t := by
  obtain ⟨known, writer, disposed, begun⟩ := ended
  rw [World.EndedWith, World.isWriter, World.handle, World.nativeTxn, same]
  rcases transactions_of_effect close.nesting.sound.transactions.idle effect with
    ⟨_, _, _, _, _, _, _, _, rfl⟩ | kept
  · rw [begun_txn, if_neg (Nat.ne_of_lt known)]
    exact ⟨Nat.lt_succ_of_lt known, writer, disposed, begun⟩
  · obtain ⟨kind, _, first, txn⟩ := kept.object t
    refine ⟨kept.next ▸ known, kind ▸ writer, ?_, first ▸ begun⟩
    exact txn.elim (fun same => same.trans disposed) id

/-- A freed native cursor that the wrapper did not close went with its transaction. -/
theorem gone_step (close : CloseSound world) (succession : InSuccession op)
    (transition : Step world op after) {k : IntPtr} (positive : 0 < k)
    (known : k < after.native.cursors.next) (freed : after.cursorFreed k = true)
    (unclosed : after.closes k = 0) : ∃ t, after.EndedWith k t := by
  have effect := effect_of_step transition
  have remains : ∀ order, op ≠ .disposeEnvironment order := by
    rintro order rfl
    exact succession
  rw [closes_of_step remains transition] at unclosed
  obtain ⟨unclosedBefore, other⟩ := Nat.add_eq_zero_iff.mp unclosed
  -- it was freed before
  have earlier (knownBefore : k < world.native.cursors.next) (freedBefore : world.cursorFreed k = true)
      (same : (after.native.cursors.obj k).txn = (world.native.cursors.obj k).txn) :
      ∃ t, after.EndedWith k t := by
    obtain ⟨t, ended⟩ := close.gone k positive knownBefore freedBefore unclosedBefore
    exact ⟨t, close.endedWith_kept effect ended same⟩
  cases close.cursorEffect succession effect with
  | kept _ next natives =>
      rw [World.cursorFreed, natives] at freed
      exact earlier (next ▸ known) freed (by rw [natives])
  | @ended t ending _ alive leaves =>
      have next : after.native.cursors.next = world.native.cursors.next := by
        rw [leaves.native, closing_native, Ending.native_cursors]
        rfl
      cases freedBefore : world.cursorFreed k with
      | true =>
          refine earlier (next ▸ known) freedBefore ?_
          rw [leaves.native, closing_native, Native.ended_cursor]
          split <;> rfl
      | false =>
          obtain ⟨c, rfl⟩ := close.held k freedBefore
          rcases close.ended_cursor alive leaves (Nat.ne_of_gt positive) with
            ⟨_, _, writer, txn, _, _⟩ | ⟨_, _, kept⟩
          · have object := leaves.same.object t
            refine ⟨t, ?_, ?_, ?_, ?_⟩
            · rw [leaves.next]
              exact close.nesting.sound.transactions.bound alive
            · rw [World.isWriter, object.kind]
              exact writer
            · rw [leaves.handle, if_pos rfl]
            · rw [World.nativeTxn, object.begun, leaves.native, closing_native, Native.ended_cursor]
              rw [← World.nativeTxn, close.fates.held t alive, ← txn]
              split <;> rfl
          · rw [World.cursorFreed, kept] at freed
            cases freedBefore.symm.trans freed
  | opened _ _ natives =>
      rw [World.cursorFreed, natives, Heap.alloc_obj] at freed
      split at freed
      · cases freed
      · rename_i different
        rw [natives, Heap.alloc_next] at known
        refine earlier (Nat.lt_of_le_of_ne (Nat.le_of_lt_succ known) different) freed ?_
        rw [natives, Heap.alloc_obj_of_ne _ _ different]
  | @closed c own held _ natives =>
      have different : k ≠ world.cur c := by
        intro same
        subst own
        rw [if_pos ⟨same, Nat.ne_of_gt positive⟩] at other
        cases other
      rw [natives, Heap.modify_next] at known
      rw [World.cursorFreed, natives, Heap.modify_obj_of_ne _ _ different] at freed
      exact earlier known freed (by rw [natives, Heap.modify_obj_of_ne _ _ different])
  | @renewed c t held _ natives =>
      have different : k ≠ world.cur c := by
        rintro rfl
        have unfreed := close.nesting.cursors.unfreed c held
        rw [World.cursorFreed, natives, Heap.modify_obj_self] at freed
        cases unfreed.symm.trans freed
      rw [natives, Heap.modify_next] at known
      rw [World.cursorFreed, natives, Heap.modify_obj_of_ne _ _ different] at freed
      exact earlier known freed (by rw [natives, Heap.modify_obj_of_ne _ _ different])

private theorem step (close : CloseSound world) (succession : InSuccession op)
    (transition : Step world op after) : CloseSound after where
  nesting := close.nesting.effect (close.leaves succession) (effect_of_step transition)
  fates := close.fates.effect close.nesting.sound (effect_of_step transition)
  releases := close.releases.step transition
  sets := close.sets.effect close.nesting.sound (effect_of_step transition)
  roots := roots_of_effect close.nesting.sound.transactions.idle succession close.roots
    (effect_of_step transition)
  held _ := close.held_step (close.cursorEffect succession (effect_of_step transition))
  gone _ := close.gone_step succession transition

private theorem of_history {flags : LmdbEnvironmentOptions} {lastTxnId : Nat} {ops : List Op}
    (history : History (fun _ => InSuccession) flags lastTxnId ops world) : CloseSound world :=
  history.invariant CloseSound (opened flags lastTxnId)
    fun close succession transition => close.step succession transition

/-- A read-only cursor changes only when it is closed itself. -/
theorem reader_step (close : CloseSound world) (succession : InSuccession op)
    (transition : Step world op after) {c : CursorRef}
    (readOnly : (world.cursors.obj c).isReadOnly = true) (held : world.cur c ≠ 0)
    (other : op ≠ .disposeCursor c) : after.cur c = world.cur c := by
  cases close.cursorEffect succession (effect_of_step transition) with
  | kept objects | renewed _ objects => rw [World.cur, objects, World.cur]
  | ended _ live leaves =>
      rcases close.ended_cursor live leaves held with ⟨writes, _⟩ | ⟨_, object, _⟩
      · cases readOnly.symm.trans writes
      · rw [World.cur, object, World.cur]
  | opened _ objects =>
      have older := Nat.ne_of_lt (close.nesting.sound.cursors.bound c held)
      rw [World.cur, objects, Heap.alloc_obj_of_ne _ _ older, World.cur]
  | @closed e own _ objects =>
      have different : c ≠ e := by
        rintro rfl
        exact other own
      rw [World.cur, objects, Heap.modify_obj_of_ne _ _ different, World.cur]

/-- The disposal of an open cursor closes its native cursor, which was not closed before. -/
theorem disposeCursor_step (close : CloseSound world) {c : CursorRef}
    (transition : Step world (.disposeCursor c) after) (held : world.cur c ≠ 0) :
    after.cur c = 0 ∧ after.cursorFreed (world.cur c) = true ∧ world.closes (world.cur c) = 0 ∧
      after.closes (world.cur c) = 1 := by
  have unclosed : world.closes (world.cur c) = 0 := close.releases.cursors.held c held
  have closed := closes_of_step (by nofun) transition (world.cur c)
  rw [if_pos ⟨rfl, held⟩, unclosed] at closed
  obtain ⟨_, executed⟩ := transition
  obtain ⟨_, returned⟩ := execute_eq_some_iff.mp executed
  obtain ⟨_, ran⟩ := void_cases returned
  cases ran
  rw [disposeCursor_of_live held] at closed ⊢
  refine ⟨?_, ?_, unclosed, closed⟩
  · rw [World.cur, cursorCallback_cursors, Heap.modify_obj_self]
    rfl
  · rw [World.cursorFreed, cursorCallback_native]
    exact congrArg NativeCursor.freed (if_pos rfl)

end CloseSound

/-- Every native cursor is open and held by one object, or it was closed once: by
its object, or by the end of its write transaction. No call was given a freed
cursor. The set of a live writer holds its undisposed cursors, and all cursors of
an ended writer are disposed. -/
structure World.CursorsClosed (world : World runtime) : Prop where
  once : ∀ k, 0 < k → k < world.native.cursors.next →
    (world.cursorFreed k = false ∧ world.closes k = 0 ∧
      ∃ c, world.cur c = k ∧ ∀ e, world.cur e = k → e = c) ∨
    (world.cursorFreed k = true ∧ (∀ c, world.cur c ≠ k) ∧
      (world.closes k = 1 ∨ world.closes k = 0 ∧ ∃ t, world.EndedWith k t))
  calls : ∀ call ∈ world.native.calls, call.dangling = false
  live : ∀ t, world.isWriter t → world.handle t ≠ 0 →
    ∀ c, c ∈ world.cursorsOf t ↔ world.cursorOwner c = some t ∧ world.cur c ≠ 0
  ended : ∀ t, world.isWriter t → world.handle t = 0 →
    ∀ c, world.cursorOwner c = some t → world.cur c = 0

private theorem CloseSound.closed {world : World runtime} (close : CloseSound world) :
    world.CursorsClosed := by
  have writes {t : TxnRef} {c : CursorRef} (writer : world.isWriter t)
      (callback : world.cursorOwner c = some t) : (world.cursors.obj c).isReadOnly = false :=
    Bool.eq_false_iff.mpr fun readOnly => writer ((close.sets.kinds c t callback).2.mp readOnly)
  refine ⟨fun k positive known => ?_, close.nesting.calls, fun t writer live c => ?_,
    fun t writer disposed c callback => ?_⟩
  · cases freed : world.cursorFreed k with
    | false =>
        obtain ⟨c, rfl⟩ := close.held k freed
        have held := Nat.ne_of_gt positive
        exact .inl ⟨rfl, close.releases.cursors.held c held, c, rfl, fun e same =>
          (close.nesting.cursors.injective c e held same.symm).symm⟩
    | true =>
        refine .inr ⟨rfl, ?_, ?_⟩
        · rintro c rfl
          cases freed.symm.trans (close.nesting.cursors.unfreed c (Nat.ne_of_gt positive))
        · rcases Nat.le_one_iff_eq_zero_or_eq_one.mp (close.releases.cursors.once k) with none | one
          · exact .inr ⟨none, close.gone k positive known freed none⟩
          · exact .inl one
  · constructor
    · intro listed
      exact (close.sets.listed t c listed).symm
    · rintro ⟨callback, held⟩
      obtain ⟨u, same, _, member⟩ :=
        close.nesting.sound.cursors.owned c held (writes writer callback)
      cases callback.symm.trans same
      exact member
  · by_contra held
    obtain ⟨u, same, alive, _⟩ := close.nesting.sound.cursors.owned c held (writes writer callback)
    cases callback.symm.trans same
    exact alive disposed

/-- While transactions follow each other, every native cursor is closed once or
still held; a read-only cursor keeps its handle until it is closed itself, which
closes it for the first time. -/
theorem cursors_closed {flags : LmdbEnvironmentOptions} {lastTxnId : Nat} {ops : List Op}
    {world : World runtime}
    (history : History (fun _ => InSuccession) flags lastTxnId ops world) :
    world.CursorsClosed ∧
    ∀ op after c, InSuccession op → Step world op after → (world.cursors.obj c).isReadOnly = true →
      world.cur c ≠ 0 →
      (op ≠ .disposeCursor c →
        after.cur c = world.cur c ∧ after.cursorFreed (world.cur c) = false) ∧
      (op = .disposeCursor c → after.cur c = 0 ∧ after.cursorFreed (world.cur c) = true ∧
        world.closes (world.cur c) = 0 ∧ after.closes (world.cur c) = 1) := by
  have close := CloseSound.of_history history
  refine ⟨close.closed, fun op after c succession transition readOnly held => ⟨fun other => ?_, ?_⟩⟩
  · have kept := close.reader_step succession transition readOnly held other
    have unfreed := (close.step succession transition).nesting.cursors.unfreed c (kept ▸ held)
    rw [World.nativeCursor, kept] at unfreed
    exact ⟨kept, unfreed⟩
  · rintro rfl
    exact close.disposeCursor_step transition held

/-- Cursors in two writers and a reader: the first writer commits with its cursor
open, the second fails to, and the reader is aborted. -/
def cursorHistory : List Op :=
  [.beginDatabaseTransaction .none none .success, plainOpen 0 "a" 2, .openCursor 0 0 .success,
    .commit 0 ⟨.success, true⟩, .beginReadOnlyTransaction .none none ⟨.success, .success⟩,
    .beginTransaction .none none ⟨.success, .success⟩, .openCursor 0 1 .success,
    .openCursor 0 2 .success, .openCursor 0 2 .success, .disposeCursor 3,
    .commit 2 ⟨⟨-30792⟩, true⟩, .disposeTransaction 1]

/-- A cursor of a reader outlives it and is closed by its own disposal. -/
theorem cursors_closed_reader : ∃ world after : World .ascii,
    History (fun _ => InSuccession) .none 0 cursorHistory world ∧ world.CursorsClosed ∧
    world.handle 1 = 0 ∧ world.cur 1 = 2 ∧ Step world (.disposeCursor 1) after ∧
    after.cur 1 = 0 ∧ after.closes 2 = 1 := by
  obtain ⟨world, history, ended, held, readOnly, disposed⟩ := history_of_replay
    (fun _ => InSuccession) .none 0 cursorHistory (fun world : World .ascii =>
      world.handle 1 = 0 ∧ world.cur 1 = 2 ∧ (world.cursors.obj 1).isReadOnly = true ∧
      (stepTo world (.disposeCursor 1)).isSome = true) (by decide +kernel)
  obtain ⟨after, stepped⟩ := Option.isSome_iff_exists.mp disposed
  have transition := step_of_stepTo stepped
  obtain ⟨closed, readers⟩ := cursors_closed history
  obtain ⟨gone, _, _, once⟩ := (readers (.disposeCursor 1) after 1 trivial transition readOnly
    (by rw [held]; decide)).2 rfl
  exact ⟨world, after, history, closed, ended, held, transition, gone, held ▸ once⟩

end KdSoftLmdb
