import KdSoftLmdb.Threads.Holding

/-!
# What other threads leave alone

Between two steps of a thread the others may begin and end transactions. The
objects and native transactions that the thread knows stay what they were; only
handles are cleared and native transactions end.
-/

namespace KdSoftLmdb

variable {runtime : Runtime}

/-- A native transaction is the same one, and has not come to life again. -/
structure NativeTxn.Persists (before after : NativeTxn) : Prop where
  id : after.id = before.id
  readOnly : after.readOnly = before.readOnly
  chain : after.chain = before.chain
  live : after.fate = .live → before.fate = .live

/-- The objects and native transactions there were are still what they were. -/
structure Persists (before after : World runtime) : Prop where
  txns : before.txns.next ≤ after.txns.next
  object : ∀ t < before.txns.next, after.nativeTxn t = before.nativeTxn t ∧
    after.isDatabaseTransaction t = before.isDatabaseTransaction t
  natives : before.native.txns.next ≤ after.native.txns.next
  native : ∀ txn < before.native.txns.next,
    (before.native.txns.obj txn).Persists (after.native.txns.obj txn)
  env : after.environment.env = before.environment.env

private theorem NativeTxn.Persists.refl (txn : NativeTxn) : txn.Persists txn :=
  ⟨rfl, rfl, rfl, fun live => live⟩

namespace Persists

variable {before after : World runtime}

/-- Only the listed parts of the objects and LMDB's transactions matter. -/
theorem of_eq (objects : after.txns.next = before.txns.next)
    (same : ∀ t, after.nativeTxn t = before.nativeTxn t ∧
      after.isDatabaseTransaction t = before.isDatabaseTransaction t)
    (native : after.native.txns = before.native.txns)
    (env : after.environment.env = before.environment.env) : Persists before after := by
  refine ⟨Nat.le_of_eq objects.symm, fun t _ => same t, ?_, fun txn _ => ?_, env⟩
  · rw [native]
  · rw [native]
    exact .refl _

/-- One transaction object was changed, and not in what persists. -/
theorem of_modify {t : TxnRef} {change : Transaction → Transaction}
    (txns : after.txns = before.txns.modify t change)
    (native : after.native.txns = before.native.txns)
    (same : ∀ transaction, (change transaction).begun = transaction.begun ∧
      (change transaction).kind = transaction.kind)
    (env : after.environment.env = before.environment.env) : Persists before after := by
  refine .of_eq (by rw [txns]; rfl) (fun u => ?_) native env
  simp only [World.nativeTxn, World.isDatabaseTransaction, txns, Heap.modify_obj]
  split
  · rw [(same _).1, (same _).2]
    exact ⟨rfl, rfl⟩
  · exact ⟨rfl, rfl⟩

/-- A transaction that LMDB begins is none of those it knew. -/
theorem begun {parentTxn : IntPtr} {modes : TransactionModes} {native : Native}
    (begins : BeginsUnder before.native parentTxn modes native) :
    Persists before { before with native := native } := by
  refine ⟨Nat.le_refl _, fun _ _ => ⟨rfl, rfl⟩, ?_, fun txn known => ?_, rfl⟩
  · rw [begins.state.txns]
    exact Nat.le_succ _
  · rw [begins.state.txns, Heap.alloc_obj_of_ne _ _ (Nat.ne_of_lt known)]
    exact .refl _

private theorem constructed {transaction : Transaction}
    (txns : after.txns = before.txns.alloc transaction)
    (native : after.native.txns = before.native.txns)
    (env : after.environment.env = before.environment.env) : Persists before after := by
  refine ⟨?_, fun t known => ?_, by rw [native], fun txn _ => by rw [native]; exact .refl _, env⟩
  · rw [txns]
    exact Nat.le_succ _
  · rw [World.nativeTxn, World.isDatabaseTransaction, txns,
      Heap.alloc_obj_of_ne _ _ (Nat.ne_of_lt known)]
    exact ⟨rfl, rfl⟩

/-- A native transaction that ends takes live ones with it, and changes nothing else. -/
theorem ended (world : World runtime) (ending : Ending) (handle : IntPtr) :
    Persists world (world.onNative (ending.native handle)) := by
  refine ⟨Nat.le_refl _, fun _ _ => ⟨rfl, rfl⟩, Nat.le_of_eq ?_, fun txn _ => ?_, rfl⟩
  · exact (Native.ended_next ending handle world.native).symm
  · have identity := world.native.endOf_identity handle ending.fate txn (world.native.txns.obj txn)
    rw [World.onNative, Native.ended_txn]
    refine ⟨identity.2.1, identity.1, identity.2.2, fun live => ?_⟩
    have alive : (ending.native handle world.native).live txn = true := by
      rw [Native.live, Native.ended_txn, live]
      rfl
    rw [Native.live_ended, Bool.and_eq_true] at alive
    exact beq_iff_eq.mp alive.1

end Persists

section Steps

variable {world after : World runtime} {frame : Frame}

private theorem invokeDisposed_env (t : TxnRef) (txnId : Nat) (world : World runtime) :
    (Transaction.invokeDisposed t txnId world).environment.env = world.environment.env := by
  unfold Transaction.invokeDisposed
  split <;> rfl

/-- The promotion changes the registry of databases only. -/
theorem committed_environment {t : TxnRef} {result : Except Exception Unit}
    (returned : Transaction.committed t world = some (result, after)) :
    after.environment.env = world.environment.env ∧
      after.environment.transactions = world.environment.transactions := by
  rcases committed_cases t world with ⟨_, plain⟩ | ⟨_, database⟩
  · cases plain.symm.trans returned
    exact ⟨rfl, rfl⟩
  · obtain ⟨_, _, _, middle, _, promoted, ran, _⟩ := databaseCommitted_cases t world
    cases (database.trans ran).symm.trans returned
    obtain ⟨_, _, rfl⟩ := promoted
    split <;> exact ⟨rfl, rfl⟩

/-- Every step leaves the objects and native transactions alone that there were. -/
theorem persists_of_advance {progress : Progress Frame (Except Exception Returned)}
    (stepped : (machine runtime).advance frame world = some (progress, after)) :
    Persists world after := by
  cases moves_of_advance stepped with
  | follows _ same | failed _ same | closed same => exact .of_eq rfl (fun _ => ⟨rfl, rfl⟩) same rfl
  | begun begins | databaseBegun begins => exact .begun begins
  | constructed => exact .constructed rfl rfl rfl
  | databaseConstructed same => exact .constructed rfl same rfl
  | refused => exact .ended world .abort _
  | @unheld t | @exchanged t =>
      exact .of_modify (World.onTxn_txns t _ world) rfl (fun _ => ⟨rfl, rfl⟩) rfl
  | ended => exact .ended world _ _
  | released =>
      rw [releaseManagedResources_eq]
      exact .of_modify rfl rfl (fun _ => ⟨rfl, rfl⟩) rfl
  | aborted | commitFailed | commitSucceeded =>
      refine .of_eq ?_ (fun u => ?_) ?_ (invokeDisposed_env _ _ world)
      all_goals simp only [World.nativeTxn, World.isDatabaseTransaction, invokeDisposed_txns,
        invokeDisposed_native, and_self]
  | committed returned =>
      obtain ⟨native, next, same⟩ := committed_keeps returned
      exact .of_eq next (fun u => (same u).2) (by rw [native]) (committed_environment returned).1
  | @added call =>
      let change (transaction : Transaction) : Transaction :=
        { transaction with newDatabases := transaction.newDatabases ++ [world.dbs.next] }
      exact @Persists.of_modify _ world _ call.t change rfl rfl (fun _ => ⟨rfl, rfl⟩) rfl

end Steps

/-- The transaction object that a call ends. -/
def Frame.subject? : Frame → Option TxnRef
  | commit t _ | exchange t _ | endId t .. | nativeEnd t .. | release t .. | callback t ..
  | committed t => some t
  | _ => none

/-- What a frame names was handed out before. -/
structure Frame.Known (frame : Frame) (world : World runtime) : Prop where
  began : ∀ txn, frame.began? = some txn → txn < world.native.txns.next
  subject : ∀ t, frame.subject? = some t → t < world.txns.next

namespace Frame.Known

variable {world after : World runtime} {frame next : Frame}

/-- What a frame knows stays true. -/
theorem mono (known : frame.Known world) (persists : Persists world after) : frame.Known after where
  began txn began := Nat.lt_of_lt_of_le (known.began txn began) persists.natives
  subject t subject := Nat.lt_of_lt_of_le (known.subject t subject) persists.txns

/-- The next frame names what the last one named. -/
theorem onward (known : frame.Known world) (persists : Persists world after)
    (began : ∀ txn, next.began? = some txn → frame.began? = some txn)
    (subject : ∀ t, next.subject? = some t → frame.subject? = some t) : next.Known after where
  began txn named := (known.mono persists).began txn (began txn named)
  subject t named := (known.mono persists).subject t (subject t named)

/-- What a frame knows when its call begins. -/
theorem enter {op : Op} (enters : (machine runtime).enter world op = some frame) :
    frame.Known world := by
  cases enters_of_enter enters with
  | commit known | dispose known =>
      refine ⟨nofun, fun t subject => ?_⟩
      cases subject
      exact known
  | begin | beginDatabase | nameCheck => exact ⟨nofun, nofun⟩

/-- The next frame knows of nothing that this one does not. -/
theorem names (follows : Follows world frame next) :
    (∀ txn, next.began? = some txn → frame.began? = some txn) ∧
      ∀ t, next.subject? = some t → frame.subject? = some t := by
  cases follows
  case mdbSetCompare call _ _ _ _ =>
    unfold OpenCall.afterCompare
    split <;> exact ⟨nofun, nofun⟩
  all_goals exact ⟨fun _ named => named, fun _ named => named⟩

/-- What the next frame knows. -/
theorem advance (known : frame.Known world) {progress : Progress Frame (Except Exception Returned)}
    (stepped : (machine runtime).advance frame world = some (progress, after))
    (goes : progress = .more next) : next.Known after := by
  have persists := persists_of_advance stepped
  cases moves_of_advance stepped with
  | follows follows =>
      cases goes
      exact known.onward persists (names follows).1 (names follows).2
  | begun begins | databaseBegun begins =>
      cases goes
      refine ⟨fun txn named => ?_, nofun⟩
      cases named
      rw [begins.state.txns]
      exact Nat.lt_succ_self _
  | exchanged | ended | released | commitSucceeded =>
      cases goes
      exact known.onward persists nofun fun _ named => named
  | _ => cases goes

/-- A transaction that a call returns is one of the objects, over a native transaction. -/
theorem returned (known : frame.Known world) {t : TxnRef}
    {progress : Progress Frame (Except Exception Returned)}
    (stepped : (machine runtime).advance frame world = some (progress, after))
    (returns : progress = .finish (.ok (.transaction t))) :
    t < after.txns.next ∧ after.nativeTxn t < after.native.txns.next := by
  cases moves_of_advance stepped with
  | @constructed txn txnId kind parent =>
      cases returns
      refine ⟨Nat.lt_succ_self _, ?_⟩
      have begun : (LmdbEnvironment.construct kind txn parent
          (LmdbEnvironment.tryAdd txnId world.txns.next world).2).2.nativeTxn world.txns.next =
          txn := congrArg Transaction.begun (Heap.alloc_obj_next world.txns _)
      rw [begun]
      exact known.began txn rfl
  | @databaseConstructed txn parent native same =>
      cases returns
      refine ⟨Nat.lt_succ_self _, ?_⟩
      have begun : (LmdbEnvironment.construct .databaseTransaction txn parent
          { world with native := native }).2.nativeTxn world.txns.next = txn :=
        congrArg Transaction.begun (Heap.alloc_obj_next world.txns _)
      have next : native.txns.next = world.native.txns.next := congrArg Heap.next same
      rw [begun]
      exact Nat.lt_of_lt_of_eq (known.began txn rfl) next.symm
  | @committed _ result =>
      cases result <;> cases returns
  | _ => cases returns

end Frame.Known

end KdSoftLmdb
