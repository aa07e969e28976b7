import KdSoftLmdb.Invariants.Objects

/-!
# What a step does to the transaction tree

As far as the handles, the parents and the native transactions go, a step begins
one transaction, ends one, disposes the environment, or keeps all of them.
Invariants of the tree are proved by cases on this.
-/

namespace KdSoftLmdb

variable {runtime : Runtime}

open Transaction (CommitAnswer)

/-- Apart from databases, the world is what closing `t` leaves. -/
structure EndsAs (t : TxnRef) (ending : Ending) (world after : World runtime) : Prop where
  native : after.native = (closing t ending world).native
  cursors : after.cursors = (closing t ending world).cursors
  next : after.txns.next = world.txns.next
  txn : ∀ u, ∃ newDatabases,
    after.txns.obj u = { (closing t ending world).txns.obj u with newDatabases := newDatabases }
  transactions : after.environment.transactions =
    (closing t ending world).environment.transactions
  env : after.environment.env = world.environment.env

/-- Handles, parents and classes stay, and so do the fates of LMDB's transactions
and what it knows of the live ones apart from their ids. -/
structure KeepsTree (world after : World runtime) : Prop where
  next : after.txns.next = world.txns.next
  txn : ∀ u, ∃ cursors newDatabases,
    after.txns.obj u = { world.txns.obj u with cursors := cursors, newDatabases := newDatabases }
  native : ∀ txn, world.native.live txn = true → after.native.live txn = true ∧
    (after.native.txns.obj txn).chain = (world.native.txns.obj txn).chain ∧
    (after.native.txns.obj txn).readOnly = (world.native.txns.obj txn).readOnly
  known : world.native.txns.next ≤ after.native.txns.next
  fate : ∀ txn < world.native.txns.next,
    (after.native.txns.obj txn).fate = (world.native.txns.obj txn).fate
  transactions : after.environment.transactions = world.environment.transactions
  env : after.environment.env = world.environment.env

/-- The four things that can happen to the tree. -/
inductive TreeEffect (world : World runtime) (op : Op) (after : World runtime) : Prop where
  | begun {kind modes parent registry native} (creates : op.Creates kind modes parent)
      (valid : validParent world parent = true) (begins : Begins world modes parent native)
      (equal : after = world.begun kind parent registry native)
  | ended {t ending} (ends : op.ending? = some (t, ending)) (live : world.handle t ≠ 0)
      (leaves : EndsAs t ending world after)
  | disposed {order} (dispose : op = .disposeEnvironment order)
      (perm : order.Perm world.environment.transactions.values)
      (equal : after = LmdbEnvironment.dispose order world)
  | kept (keeps : KeepsTree world after)

section

variable {world after : World runtime} {op : Op}

/-- `closing` ends the transaction. -/
theorem EndsAs.of_closing (world : World runtime) (t : TxnRef) (ending : Ending) :
    EndsAs t ending world (closing t ending world) :=
  ⟨rfl, rfl, by simp, fun _ => ⟨_, rfl⟩, rfl, closing_env _ _ _⟩

/-- So does `closing` with the promotions after it. -/
theorem EndsAs.promoted {t : TxnRef} {answer : CommitAnswer} {done rest : List DbRef}
    {middle : World runtime} (promoted : Promoted done (closing t (.commit answer) world) middle) :
    EndsAs t (.commit answer) world (if rest = [] then middle.onTxn t fun transaction =>
      { transaction with newDatabases := [] } else middle) := by
  obtain ⟨_, _, rfl⟩ := promoted
  split
  · refine ⟨rfl, rfl, by simp [World.onTxn], fun u => ?_, rfl, closing_env _ _ _⟩
    rw [World.onTxn_txns, Heap.modify_obj]
    split <;> exact ⟨_, rfl⟩
  · exact ⟨rfl, rfl, by simp, fun u => ⟨_, rfl⟩, rfl, closing_env _ _ _⟩

/-- Only the transaction that ends loses its handle. -/
theorem EndsAs.handle {t : TxnRef} {ending : Ending} (leaves : EndsAs t ending world after)
    (u : TxnRef) : after.handle u = if u = t then 0 else world.handle u := by
  obtain ⟨_, equal⟩ := leaves.txn u
  rw [World.handle, equal, ← closing_handle world t ending]
  rfl

/-- No transaction is created and none gets another parent. -/
theorem EndsAs.same {t : TxnRef} {ending : Ending} (leaves : EndsAs t ending world after) :
    SameTransactions world after := by
  refine ⟨leaves.next, fun u => ((SameTransactions.closing world t ending).object u).trans ?_⟩
  obtain ⟨_, equal⟩ := leaves.txn u
  rw [equal]
  exact ⟨rfl, rfl, rfl, .inl rfl⟩

/-- Where the tree is kept, the transactions are the same objects. -/
theorem KeepsTree.same (keeps : KeepsTree world after) : SameTransactions world after := by
  refine ⟨keeps.next, fun u => ?_⟩
  obtain ⟨_, _, equal⟩ := keeps.txn u
  rw [equal]
  exact ⟨rfl, rfl, rfl, .inl rfl⟩

/-- Where the tree is kept, every transaction keeps its handle. -/
theorem KeepsTree.handle (keeps : KeepsTree world after) (u : TxnRef) :
    after.handle u = world.handle u := by
  obtain ⟨_, _, equal⟩ := keeps.txn u
  rw [World.handle, equal]
  rfl

/-- LMDB's transactions were not touched. -/
theorem KeepsTree.of_native (next : after.txns.next = world.txns.next)
    (txn : ∀ u, ∃ cursors newDatabases, after.txns.obj u =
      { world.txns.obj u with cursors := cursors, newDatabases := newDatabases })
    (native : after.native.txns = world.native.txns)
    (transactions : after.environment.transactions = world.environment.transactions)
    (env : after.environment.env = world.environment.env) : KeepsTree world after := by
  refine ⟨next, txn, fun handle live => ?_, Nat.le_of_eq (by rw [native]), fun _ _ => by rw [native],
    transactions, env⟩
  rw [Native.live, native]
  exact ⟨live, rfl, rfl⟩

/-- The objects were not touched either. -/
theorem KeepsTree.of_eq {native : Native} (same : native.txns = world.native.txns) :
    KeepsTree world { world with native := native } :=
  .of_native rfl (fun _ => ⟨_, _, rfl⟩) same rfl rfl

/-- One more native transaction that no object holds. -/
theorem KeepsTree.extra {modes : TransactionModes} {parent : Option TxnRef} {native : Native}
    (natives : NativeSound world.native) (begins : Begins world modes parent native) :
    KeepsTree world { world with native := native } := by
  have same {txn : IntPtr} (older : txn < world.native.txns.next) :
      native.txns.obj txn = world.native.txns.obj txn := begins.txn_of_ne (Nat.ne_of_lt older)
  refine ⟨rfl, fun _ => ⟨_, _, rfl⟩, fun txn live => ?_, ?_, fun txn older => by rw [same older],
    rfl, rfl⟩
  · rw [Native.live, same (natives.txns txn live).2]
    exact ⟨live, rfl, rfl⟩
  · rw [begins.state]
    exact Nat.le_succ _

/-- An abort of the newest native transaction ends nothing else. -/
theorem within_newest {native : Native} (natives : NativeSound native) {txn newest : IntPtr}
    (older : txn < newest) : native.within txn newest = false := by
  have unlisted : newest ∉ (native.txns.obj txn).chain := fun member =>
    Nat.lt_asymm older (natives.older txn newest member)
  simp [Native.within, Nat.ne_of_lt older, unlisted]

/-- A transaction that is begun and aborted at once leaves the tree. -/
theorem KeepsTree.aborted {modes : TransactionModes} {parent : Option TxnRef} {native : Native}
    (natives : NativeSound world.native) (begins : Begins world modes parent native) :
    KeepsTree world { world with native := native.mdbTxnAbort world.native.txns.next } := by
  have extra := KeepsTree.extra natives begins
  have begunSound := natives.begun begins.accepted begins.state
  have ended {txn : IntPtr} (older : txn < world.native.txns.next) :
      (native.mdbTxnAbort world.native.txns.next).txns.obj txn = native.txns.obj txn := by
    have reached := Native.ended_txn .abort world.native.txns.next native txn
    rw [Native.endOf, if_neg (Nat.ne_of_lt older), if_neg] at reached
    · exact reached
    · rw [within_newest begunSound older]
      simp
  refine ⟨rfl, fun _ => ⟨_, _, rfl⟩, fun txn live => ?_, ?_, fun txn older => ?_, rfl, rfl⟩
  · obtain ⟨alive, chain, readOnly⟩ := extra.native txn live
    rw [Native.live, ended (natives.txns txn live).2]
    exact ⟨alive, chain, readOnly⟩
  · exact Nat.le_trans extra.known
      (Nat.le_of_eq (Native.ended_next .abort world.native.txns.next native).symm)
  · rw [ended older]
    exact extra.fate txn older

/-- Renewing or resetting a reader leaves the tree. -/
theorem KeepsTree.reader {t : TxnRef} {native : Native} {reset : Bool} {id : Nat}
    (state : ({ world.native with txns := world.native.txns.modify (world.handle t) fun old =>
      { old with reset := reset, id := id } } : Native).Unchanged native) :
    KeepsTree world { world with native := native } := by
  refine ⟨rfl, fun _ => ⟨_, _, rfl⟩, fun txn live => ?_, ?_, fun txn _ => ?_, rfl, rfl⟩
  · rw [state, Native.live, Heap.modify_obj]
    split <;> exact ⟨live, rfl, rfl⟩
  · rw [state]
    exact Nat.le_refl _
  · rw [state, Heap.modify_obj]
    split <;> rfl

/-- Opening a database leaves the tree. -/
theorem KeepsTree.added {t : TxnRef} {kind : DatabaseKind} {dbi : Nat} {text : String}
    {native : Native} (same : native.txns = world.native.txns) :
    KeepsTree world (world.added t kind dbi text native) := by
  refine .of_native rfl (fun u => ?_) same rfl rfl
  rw [added_txns, Heap.modify_obj]
  split <;> exact ⟨_, _, rfl⟩

/-- Disposing a database leaves the tree. -/
theorem KeepsTree.databaseGone {d : DbRef} {native : Native}
    (same : native.txns = world.native.txns) :
    KeepsTree world (Database.invokeDisposed d { world with
      dbs := world.dbs.modify d Database.clearHandle
      native := native }) := by
  refine .of_native (by simp) (fun u => ?_) ?_ ?_ ?_
  · obtain ⟨newDatabases, equal, _⟩ := databaseCallback_txn _ _ u
    exact ⟨_, newDatabases, equal⟩
  · rw [databaseCallback_native]
    exact same
  · rw [databaseCallback_environment]
    split <;> rfl
  · rw [databaseCallback_environment]
    split <;> rfl

/-- Opening a cursor leaves the tree. -/
theorem KeepsTree.cursorAdded {d : DbRef} {t : TxnRef} {native : Native}
    (same : native.txns = world.native.txns) : KeepsTree world (world.cursorAdded d t native) := by
  refine .of_native rfl (fun u => ?_) same rfl rfl
  rw [cursorAdded_txns, Heap.modify_obj]
  split <;> exact ⟨_, _, rfl⟩

/-- Disposing a cursor leaves the tree. -/
theorem KeepsTree.cursorGone {c : CursorRef} {native : Native}
    (same : native.txns = world.native.txns) :
    KeepsTree world (Cursor.invokeDisposed c { world with
      cursors := world.cursors.modify c Cursor.clearHandle
      native := native }) := by
  refine .of_native (by simp) (fun u => ?_) ?_ (by simp) (by simp)
  · obtain ⟨cursors, equal, _⟩ := cursorCallback_txn _ _ u
    exact ⟨cursors, _, equal⟩
  · rw [cursorCallback_native]
    exact same

/-- What a call does to the tree follows from what it does. -/
theorem treeEffect_of_effect (natives : NativeSound world.native)
    (effect : Effect world op after) : TreeEffect world op after := by
  cases effect with
  | recorded unchanged => exact .kept (.of_eq unchanged.txns)
  | begunDatabase valid writable _ begins => exact .begun (.database writable) valid begins rfl
  | begun begin valid accepted begins => exact .begun (.plain begin accepted) valid begins rfl
  | begunTaken _ _ begins => exact .kept (.aborted natives begins)
  | begunLeaked _ _ begins => exact .kept (.extra natives begins)
  | closed ends live => exact .ended ends live (.of_closing _ _ _)
  | promoted live _ _ _ promoted => exact .ended rfl live (.promoted promoted)
  | reader _ _ state => exact .kept (.reader state)
  | opened _ _ _ _ slot => exact .kept (.added slot.elsewhere.txns)
  | openFailed _ _ slot => exact .kept (.of_eq slot.elsewhere.txns)
  | databaseGone _ _ elsewhere => exact .kept (.databaseGone elsewhere.txns)
  | cursorOpened _ _ state => exact .kept (.cursorAdded state.txns)
  | cursorGone _ state => exact .kept (.cursorGone state.txns)
  | cursorRenewed _ _ _ state => exact .kept (.of_eq state.txns)
  | environmentDisposed perm => exact .disposed rfl perm rfl

end

end KdSoftLmdb
