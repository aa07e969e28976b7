import KdSoftLmdb.Invariants.Releases

/-!
# The cursor sets of transactions

A transaction lists cursors that are open and whose callback it is, none of them
twice; a cursor is read-only when its transaction is. That every open cursor of
a write transaction is listed is part of `CursorsSound`.
-/

namespace KdSoftLmdb

variable {runtime : Runtime}

/-- The cursors of a transaction. -/
def World.cursorsOf (world : World runtime) (t : TxnRef) : List CursorRef :=
  (world.txns.obj t).cursors

/-- The transaction whose set a cursor is in while it is open. -/
def World.cursorOwner (world : World runtime) (c : CursorRef) : Option TxnRef :=
  (world.cursors.obj c).disposed

/-- What holds of the cursor sets in every reachable state. -/
structure CursorSetsSound (world : World runtime) : Prop where
  listed : ∀ t, ∀ c ∈ world.cursorsOf t, world.cur c ≠ 0 ∧ world.cursorOwner c = some t
  nodup : ∀ t, (world.cursorsOf t).Nodup
  kinds : ∀ c t, world.cursorOwner c = some t → t < world.txns.next ∧
    ((world.cursors.obj c).isReadOnly = true ↔
      (world.txns.obj t).kind = .readOnlyTransaction)

namespace CursorSetsSound

variable {world after : World runtime}

/-- A step that leaves the cursors and the cursor sets alone. -/
theorem transfer (sound : CursorSetsSound world) (cursors : after.cursors = world.cursors)
    (next : world.txns.next ≤ after.txns.next)
    (sets : ∀ t, after.cursorsOf t = world.cursorsOf t)
    (kinds : ∀ t < world.txns.next, (after.txns.obj t).kind = (world.txns.obj t).kind) :
    CursorSetsSound after where
  listed t c member := by
    rw [World.cur, World.cursorOwner, cursors]
    exact sound.listed t c (sets t ▸ member)
  nodup t := by
    rw [sets]
    exact sound.nodup t
  kinds c t owner := by
    rw [World.cursorOwner, cursors] at owner
    obtain ⟨known, kind⟩ := sound.kinds c t owner
    rw [cursors, kinds t known]
    exact ⟨Nat.lt_of_lt_of_le known next, kind⟩

private theorem begun (sound : CursorSetsSound world) (transactions : TransactionsSound world)
    {kind : TransactionKind} {parent : Option TxnRef}
    {registry : Dictionary (id : IntPtr → IntPtr) TxnRef} {native : Native} :
    CursorSetsSound (world.begun kind parent registry native) := by
  refine sound.transfer rfl (Nat.le_succ _) (fun t => ?_) fun t known => ?_
  · rw [World.cursorsOf, begun_txn]
    split
    · rename_i newest
      rw [World.cursorsOf, transactions.unborn t (Nat.le_of_eq newest.symm)]
      rfl
    · rfl
  · rw [begun_txn, if_neg (Nat.ne_of_lt known)]

private theorem closing (sound : CursorSetsSound world) (t : TxnRef) (ending : Ending) :
    CursorSetsSound (closing t ending world) := by
  have owner (c : CursorRef) : (KdSoftLmdb.closing t ending world).cursorOwner c =
      world.cursorOwner c ∧ ((KdSoftLmdb.closing t ending world).cursors.obj c).isReadOnly =
        (world.cursors.obj c).isReadOnly := by
    rw [World.cursorOwner, closing_cursor]
    split
    · unfold Cursor.release
      split <;> exact ⟨rfl, rfl⟩
    · exact ⟨rfl, rfl⟩
  have emptied : (KdSoftLmdb.closing t ending world).cursorsOf t = [] := by
    rw [World.cursorsOf, closing_txn_self]
    rfl
  have others {u : TxnRef} (different : u ≠ t) :
      (KdSoftLmdb.closing t ending world).cursorsOf u = world.cursorsOf u := by
    rw [World.cursorsOf, closing_txn_of_ne _ _ _ different]
    rfl
  refine ⟨fun u c member => ?_, fun u => ?_, fun c u callback => ?_⟩
  · by_cases same : u = t
    · rw [same, emptied] at member
      cases member
    · rw [others same] at member
      obtain ⟨live, callback⟩ := sound.listed u c member
      have unlisted : c ∉ (world.txns.obj t).cursors := fun also => by
        cases callback.symm.trans (sound.listed t c also).2
        exact same rfl
      rw [(owner c).1, World.cur, closing_cursor, if_neg unlisted]
      exact ⟨live, callback⟩
  · by_cases same : u = t
    · rw [same, emptied]
      exact List.nodup_nil
    · rw [others same]
      exact sound.nodup u
  · rw [(owner c).1] at callback
    obtain ⟨known, kind⟩ := sound.kinds c u callback
    have kept := ((SameTransactions.closing world t ending).object u).kind
    rw [(owner c).2, kept]
    exact ⟨by simpa using known, kind⟩

private theorem cursorOpened (sound : CursorSetsSound world) (owned : CursorsSound world)
    {d : DbRef}
    {t : TxnRef} {native : Native} (known : t < world.txns.next)
    (given : world.native.cursors.next ≠ 0) : CursorSetsSound (world.cursorAdded d t native) := by
  have created : (world.cursorAdded d t native).cursors.obj world.cursors.next =
      ⟨(world.dbs.obj d).kind, world.native.cursors.next,
        (world.txns.obj t).kind = .readOnlyTransaction, some t⟩ := if_pos rfl
  have old {c : CursorRef} (different : c ≠ world.cursors.next) :
      (world.cursorAdded d t native).cursors.obj c = world.cursors.obj c := if_neg different
  have kind (u : TxnRef) : ((world.cursorAdded d t native).txns.obj u).kind =
      (world.txns.obj u).kind := by
    rw [cursorAdded_txns, Heap.modify_obj]
    split <;> rfl
  have fresh (u : TxnRef) : world.cursors.next ∉ world.cursorsOf u := fun member =>
    Nat.lt_irrefl _ (owned.bound _ (sound.listed u _ member).1)
  have set (u : TxnRef) : (world.cursorAdded d t native).cursorsOf u =
      if u = t then (world.cursorsOf u).insert world.cursors.next else world.cursorsOf u := by
    rw [World.cursorsOf, cursorAdded_txns, Heap.modify_obj]
    split <;> rfl
  have kept (u : TxnRef) (c : CursorRef) (member : c ∈ world.cursorsOf u) :
      (world.cursorAdded d t native).cur c ≠ 0 ∧
      (world.cursorAdded d t native).cursorOwner c = some u := by
    have different : c ≠ world.cursors.next := fun same => fresh u (same ▸ member)
    rw [World.cur, World.cursorOwner, old different]
    exact sound.listed u c member
  refine ⟨fun u c member => ?_, fun u => ?_, fun c u callback => ?_⟩
  · rw [set] at member
    split at member
    · rename_i same
      rcases List.mem_insert_iff.mp member with rfl | earlier
      · rw [World.cur, World.cursorOwner, created, same]
        exact ⟨given, rfl⟩
      · exact kept u c earlier
    · exact kept u c member
  · rw [set]
    split
    · exact (sound.nodup u).insert
    · exact sound.nodup u
  · rw [kind]
    by_cases same : c = world.cursors.next
    · rw [World.cursorOwner, same, created] at callback
      cases callback
      rw [same, created]
      exact ⟨known, decide_eq_true_iff⟩
    · rw [World.cursorOwner, old same] at callback
      rw [old same]
      exact sound.kinds c u callback

private theorem cursorGone (sound : CursorSetsSound world) (c : CursorRef) (native : Native) :
    CursorSetsSound (Cursor.invokeDisposed c { world with
      cursors := world.cursors.modify c Cursor.clearHandle
      native := native }) := by
  let cleared : World runtime := { world with
    cursors := world.cursors.modify c Cursor.clearHandle
    native := native }
  have object (e : CursorRef) : (Cursor.invokeDisposed c cleared).cursors.obj e =
      if e = c then (world.cursors.obj e).clearHandle else world.cursors.obj e := by
    rw [cursorCallback_cursors]
    rfl
  have owner (e : CursorRef) : (Cursor.invokeDisposed c cleared).cursorOwner e =
      world.cursorOwner e ∧ ((Cursor.invokeDisposed c cleared).cursors.obj e).isReadOnly =
        (world.cursors.obj e).isReadOnly := by
    rw [World.cursorOwner, object]
    split <;> exact ⟨rfl, rfl⟩
  have sublist (t : TxnRef) : ((Cursor.invokeDisposed c cleared).cursorsOf t).Sublist
      (world.cursorsOf t) := by
    obtain ⟨cursors, equal, fewer, _⟩ := cursorCallback_txn cleared c t
    rw [World.cursorsOf, equal]
    exact fewer
  have erased (t : TxnRef) : c ∉ (Cursor.invokeDisposed c cleared).cursorsOf t := by
    intro member
    have listed := (sound.listed t c ((sublist t).subset member)).2
    have callback : (cleared.cursors.obj c).disposed = some t := by
      rw [Heap.modify_obj_self]
      exact listed
    rw [World.cursorsOf, cursorCallback_txns, callback, Heap.modify_obj_self] at member
    exact List.Nodup.not_mem_erase (sound.nodup t) member
  refine ⟨fun t e member => ?_, fun t => (sound.nodup t).sublist (sublist t), fun e t callback => ?_⟩
  · have different : e ≠ c := by
      rintro rfl
      exact erased t member
    rw [(owner e).1, World.cur, object, if_neg different]
    exact sound.listed t e ((sublist t).subset member)
  · rw [(owner e).1] at callback
    obtain ⟨known, kind⟩ := sound.kinds e t callback
    obtain ⟨_, equal, _⟩ := cursorCallback_txn cleared c t
    rw [(owner e).2, equal, cursorCallback_next]
    exact ⟨known, kind⟩

private theorem environmentDisposed (sound : CursorSetsSound world)
    (idle : world.environment.activeDbTxn = none) (order : List TxnRef) :
    CursorSetsSound (LmdbEnvironment.dispose order world) := by
  by_cases shut : world.environment.env = 0
  · rw [dispose_of_shut order shut]
    exact ⟨sound.listed, sound.nodup, sound.kinds⟩
  · rw [dispose_of_open order shut idle]
    have looped : CursorSetsSound (world.enumerated order) :=
      enumerated_invariant CursorSetsSound ⟨sound.listed, sound.nodup, sound.kinds⟩
        fun held _ _ => held.closing _ _
    exact ⟨looped.listed, looped.nodup, looped.kinds⟩

/-- The step lemma: whatever a call does, the cursors of a transaction stay those it lists. -/
theorem effect (sound : CursorSetsSound world) (worldSound : WorldSound world) {op : Op}
    (effect : Effect world op after) : CursorSetsSound after := by
  have transactions := worldSound.transactions
  have untouched {native : Native} : CursorSetsSound { world with native := native } :=
    ⟨sound.listed, sound.nodup, sound.kinds⟩
  cases effect with
  | begunDatabase => exact sound.begun transactions
  | begun => exact sound.begun transactions
  | closed => exact sound.closing _ _
  | @promoted t answer _ _ _ _ _ _ _ promoted =>
      have closed := sound.closing t (.commit answer)
      obtain ⟨_, _, rfl⟩ := promoted
      split
      · refine closed.transfer rfl (Nat.le_refl _) (fun u => ?_) fun u _ => ?_
        · rw [World.cursorsOf, World.onTxn_txns, Heap.modify_obj]
          split <;> rfl
        · rw [World.onTxn_txns, Heap.modify_obj]
          split <;> rfl
      · exact ⟨closed.listed, closed.nodup, closed.kinds⟩
  | opened =>
      refine sound.transfer rfl (Nat.le_refl _) (fun u => ?_) fun u _ => ?_
      · rw [World.cursorsOf, added_txns, Heap.modify_obj]
        split <;> rfl
      · rw [added_txns, Heap.modify_obj]
        split <;> rfl
  | databaseGone =>
      refine sound.transfer (by simp) (Nat.le_of_eq (by simp)) (fun u => ?_) fun u _ => ?_
      all_goals obtain ⟨_, equal, _⟩ := databaseCallback_txn _ _ u
      · rw [World.cursorsOf, equal]
        rfl
      · rw [equal]
  | cursorOpened known =>
      exact sound.cursorOpened worldSound.cursors known
        (Nat.ne_of_gt worldSound.natives.positive.2)
  | cursorGone => exact sound.cursorGone _ _
  | environmentDisposed => exact sound.environmentDisposed transactions.idle _
  | recorded | begunTaken | begunLeaked | reader | openFailed | cursorRenewed => exact untouched

/-- A new environment has no cursors. -/
theorem opened (flags : LmdbEnvironmentOptions) (lastTxnId : Nat) :
    CursorSetsSound (World.opened runtime flags lastTxnId) where
  listed _ _ := nofun
  nodup _ := List.nodup_nil
  kinds _ _ := nofun

end CursorSetsSound

end KdSoftLmdb
