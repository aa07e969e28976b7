import KdSoftLmdb.Invariants.Ancestry
import KdSoftLmdb.Invariants.Releases
import KdSoftLmdb.Threads.Moves

/-!
# Who holds a native transaction

Between `mdb_txn_begin` and the constructor, and again between the exchange and
`mdb_txn_commit` or `mdb_txn_abort`, a thread holds the native transaction and no
object does. `Hands` lists how a step passes native transactions on. Threads and
objects together are an account: whatever the interleaving, no native transaction
has two holders, and none is committed or aborted twice.
-/

namespace KdSoftLmdb

variable {runtime : Runtime} {τ : Type}

/-- The native transaction that a thread holds in a frame. -/
def Frame.carries? : Frame → Option IntPtr
  | mdbTxnId txn .. | options txn .. | tryAdd txn .. | refused txn _ | databaseTxnId txn _ =>
      some txn
  | endId _ handle _ | nativeEnd _ handle _ _ => some handle
  | _ => none

/-- The transaction whose handle the thread has exchanged and not ended yet. -/
def Frame.ends? : Frame → Option TxnRef
  | endId t .. | nativeEnd t .. => some t
  | _ => none

/-- The native transaction that the next step commits or aborts. -/
def Frame.releases? : Frame → Option IntPtr
  | refused txn _ => some txn
  | nativeEnd _ handle _ _ => some handle
  | _ => none

section Released

open Method

/-- The callback of a transaction calls no native function. -/
theorem invokeDisposed_native (t : TxnRef) (txnId : Nat) (world : World runtime) :
    (Transaction.invokeDisposed t txnId world).native = world.native := by
  unfold Transaction.invokeDisposed
  split <;> rfl

/-- The callback of a transaction changes no transaction object. -/
theorem invokeDisposed_txns (t : TxnRef) (txnId : Nat) (world : World runtime) :
    (Transaction.invokeDisposed t txnId world).txns = world.txns := by
  unfold Transaction.invokeDisposed
  split <;> rfl

/-- `Committed` changes databases and the list of new ones only. -/
theorem committed_keeps {t : TxnRef} {world after : World runtime} {result : Except Exception Unit}
    (returned : Transaction.committed t world = some (result, after)) :
    after.native = world.native ∧ after.txns.next = world.txns.next ∧
      ∀ u, after.handle u = world.handle u ∧ after.nativeTxn u = world.nativeTxn u ∧
        after.isDatabaseTransaction u = world.isDatabaseTransaction u := by
  rcases committed_cases t world with ⟨_, plain⟩ | ⟨_, database⟩
  · cases plain.symm.trans returned
    exact ⟨rfl, rfl, fun _ => ⟨rfl, rfl, rfl⟩⟩
  · obtain ⟨_, _, _, middle, _, promoted, ran, _⟩ := databaseCommitted_cases t world
    cases (database.trans ran).symm.trans returned
    obtain ⟨_, _, rfl⟩ := promoted
    split
    · refine ⟨rfl, rfl, fun u => ?_⟩
      simp only [World.handle, World.nativeTxn, World.isDatabaseTransaction, World.onTxn,
        Heap.modify_obj]
      split <;> exact ⟨rfl, rfl, rfl⟩
    · exact ⟨rfl, rfl, fun _ => ⟨rfl, rfl, rfl⟩⟩

private theorem spares_setComparer
    {set : Comparer → IntPtr → Nat → DbRetCode → Native → DbRetCode × Native}
    (quiet : ∀ comparer handle dbi answer (native : Native),
      (set comparer handle dbi answer native).2.releases = native.releases)
    (holder : Option CompareHolder) (handle dbi : Nat) (answer : DbRetCode) :
    Spares runtime (setComparer set holder handle dbi answer) := by
  unfold setComparer
  split
  · refine keeps_call ?_
    exact fun world => quiet _ _ _ _ world.native
  · exact keeps_pure _

/-- The native begin that two methods make, with the frame that follows it. -/
theorem spares_mdbTxnBegin (parentTxn : IntPtr) (modes : TransactionModes) (ret : DbRetCode)
    (next : IntPtr → Progress Frame Returned) : Spares runtime (do
      let handle ← LmdbEnvironment.checkDisposed
      let (ret, txn) ← .await (World.awaitNative (Native.mdbTxnBegin handle parentTxn modes ret))
      checkRetCode ret
      pure (next txn)) := by
  refine spares_checkEnvironment.bind fun handle => ?_
  refine (spares_await fun native value after returned => ?_).bind fun begun => ?_
  · rw [Native.releases_congr _ (mdbTxnBegin_calls returned), native.releases_quiet rfl]
  · exact (spares_checkRetCode _).bind fun _ => keeps_pure _

/-- A step commits or aborts a native transaction in two frames only. -/
theorem spares_frame {frame : Frame} (quiet : frame.releases? = none) :
    Spares runtime frame.body := by
  cases frame with
  | refused | nativeEnd => cases quiet
  | begin => exact .get_bind fun world => keeps_pure _
  | mdbTxnBegin parentTxn modes parent answer =>
      exact spares_mdbTxnBegin _ _ _ fun txn => .more (.mdbTxnId txn modes parent answer)
  | mdbTxnId =>
      refine (keeps_call fun world => world.native.releases_quiet rfl).bind fun _ => ?_
      split <;> exact keeps_pure _
  | options => exact (spares_getOptions _).bind fun _ => keeps_pure _
  | tryAdd =>
      refine .get_bind fun world => Keeps.bind (keeps_call ?_) fun added => ?_
      · exact fun _ => rfl
      · split
        · exact keeps_pure _
        · refine Keeps.bind (keeps_call ?_) fun _ => keeps_pure _
          exact fun _ => rfl
  | beginDatabase =>
      rw [Frame.body]
      split
      · exact keeps_throw _
      · refine .get_bind fun world => ?_
        split
        · exact keeps_throw _
        · exact keeps_pure _
  | databaseTxnBegin parentTxn modes parent answer =>
      exact spares_mdbTxnBegin _ _ _ fun txn => .more (.databaseTxnId txn parent)
  | databaseTxnId =>
      refine (keeps_call fun world => world.native.releases_quiet rfl).bind fun _ => ?_
      refine Keeps.bind (keeps_call ?_) fun _ => keeps_pure _
      exact fun _ => rfl
  | commit => exact (spares_checkTransaction _).bind fun _ => keeps_pure _
  | exchange =>
      refine Keeps.bind (keeps_call ?_) fun handle => ?_
      · exact fun _ => rfl
      · split <;> exact keeps_pure _
  | endId =>
      exact (keeps_call fun world => world.native.releases_quiet rfl).bind fun _ => keeps_pure _
  | release =>
      refine (keeps_modify fun world => ?_).bind fun _ => keeps_pure _
      rw [releaseManagedResources_eq]
      rfl
  | callback t txnId ending =>
      refine (keeps_modify fun world => ?_).bind fun _ => ?_
      · exact congrArg Native.releases (invokeDisposed_native t txnId world)
      · cases ending with
        | abort => exact keeps_pure _
        | commit => exact (spares_checkRetCode _).bind fun _ => keeps_pure _
  | committed t =>
      refine Keeps.bind (fun world result after returned => ?_) fun _ => keeps_pure _
      exact congrArg Native.releases (committed_keeps returned).1
  | nameCheck =>
      refine .get_bind fun world => ?_
      split
      · exact keeps_throw _
      · split
        · exact keeps_throw _
        · exact keeps_pure _
  | openHandle => exact (spares_checkTransaction _).bind fun _ => keeps_pure _
  | mdbDbiOpen =>
      refine (spares_await fun native value after returned => ?_).bind fun opened => ?_
      · rw [Native.releases_congr _ (mdbDbiOpen_calls returned), native.releases_quiet rfl]
      · exact (spares_checkRetCode _).bind fun _ => keeps_pure _
  | mdbTxnEnv =>
      exact (keeps_call fun world => world.native.releases_quiet rfl).bind fun _ => keeps_pure _
  | mdbSetCompare =>
      refine (spares_setComparer ?_ _ _ _ _).bind fun ret => ?_
      · exact fun _ => spares_setOrder _ (fun _ => rfl) _
      · split <;> exact keeps_pure _
  | mdbSetDupsort =>
      refine (spares_setComparer ?_ _ _ _ _).bind fun ret => ?_
      · exact fun _ => spares_setOrder _ (fun _ => rfl) _
      · split <;> exact keeps_pure _
  | mdbDbiClose =>
      refine (keeps_modify fun world => world.native.releases_quiet rfl).bind fun _ => ?_
      exact (spares_checkRetCode _).bind fun _ => keeps_pure _
  | addNew => exact (spares_addNew _ _ _ _ _).bind fun _ => keeps_pure _

end Released

/-- Objects and threads hold what they held, and nothing was released. -/
structure SameHolders (world after : World runtime) : Prop where
  objects : after.txns.next = world.txns.next
  handle : ∀ t, after.handle t = world.handle t
  nativeTxn : ∀ t, after.nativeTxn t = world.nativeTxn t
  natives : after.native.txns.next = world.native.txns.next

/-- What a step does to the holders of native transactions. -/
inductive Hands (world : World runtime) : Frame → Option Frame → World runtime → Prop where
  | keeps {frame frame? after} (same : SameHolders world after)
      (carried : ∀ next, frame? = some next → next.carries? = frame.carries?)
      (ends : frame?.bind Frame.ends? = frame.ends?) (released : after.released = world.released) :
      Hands world frame frame? after
  | begun {frame next after} (objects : after.txns = world.txns)
      (natives : after.native.txns.next = world.native.txns.next + 1)
      (carried : frame.carries? = none ∧ frame.ends? = none)
      (carries : next.carries? = some world.native.txns.next ∧ next.ends? = none)
      (released : after.released = world.released) : Hands world frame (some next) after
  | constructed {frame txn transaction after} (holds : transaction.txn = txn ∧ transaction.begun = txn)
      (objects : after.txns = world.txns.alloc transaction)
      (natives : after.native.txns.next = world.native.txns.next)
      (carried : frame.carries? = some txn ∧ frame.ends? = none)
      (released : after.released = world.released) : Hands world frame none after
  | refused {frame txn after} (same : SameHolders world after)
      (carried : frame.carries? = some txn ∧ frame.ends? = none)
      (released : after.released = withRelease world.released (.txn txn)) :
      Hands world frame none after
  | exchanged {frame next t after} (live : world.handle t ≠ 0)
      (objects : after.txns = world.txns.modify t fun transaction => { transaction with txn := 0 })
      (natives : after.native = world.native) (carried : frame.carries? = none ∧ frame.ends? = none)
      (carries : next.carries? = some (world.handle t) ∧ next.ends? = some t) :
      Hands world frame (some next) after
  | ended {frame next t handle after} (same : SameHolders world after)
      (carried : frame.carries? = some handle ∧ frame.ends? = some t)
      (carries : next.carries? = none ∧ next.ends? = none)
      (released : after.released = withRelease world.released (.txn handle)) :
      Hands world frame (some next) after

section Hands

variable {world after : World runtime}

private theorem SameHolders.onNative {native : Native} (same : native.txns = world.native.txns) :
    SameHolders world { world with native := native } :=
  ⟨rfl, fun _ => rfl, fun _ => rfl, congrArg Heap.next same⟩

private theorem Follows.hands {frame next : Frame} (follows : Follows world frame next) :
    next.carries? = frame.carries? ∧ next.ends? = frame.ends? := by
  cases follows
  case mdbSetCompare call _ _ _ _ =>
    unfold OpenCall.afterCompare
    split <;> exact ⟨rfl, rfl⟩
  all_goals exact ⟨rfl, rfl⟩

private theorem SameHolders.of_modify {t : TxnRef} {change : Transaction → Transaction}
    (txns : after.txns = world.txns.modify t change) (native : after.native = world.native)
    (same : ∀ transaction, (change transaction).txn = transaction.txn ∧
      (change transaction).begun = transaction.begun) : SameHolders world after := by
  refine ⟨by rw [txns]; rfl, fun u => ?_, fun u => ?_, by rw [native]⟩
  all_goals
    simp only [World.handle, World.nativeTxn, txns, Heap.modify_obj]
    split
  · exact (same _).1
  · rfl
  · exact (same _).2
  · rfl

private theorem SameHolders.invokeDisposed (world : World runtime) (t : TxnRef) (txnId : Nat) :
    SameHolders world (Transaction.invokeDisposed t txnId world) := by
  refine ⟨?_, fun u => ?_, fun u => ?_, ?_⟩
  all_goals simp only [World.handle, World.nativeTxn, invokeDisposed_txns, invokeDisposed_native]

private theorem SameHolders.ended (world : World runtime) (ending : Ending) (handle : IntPtr) :
    SameHolders world (world.onNative (ending.native handle)) :=
  ⟨rfl, fun _ => rfl, fun _ => rfl, Native.ended_next _ _ _⟩

/-- The native call that ends a transaction releases it. -/
theorem ended_released (world : World runtime) (ending : Ending) (handle : IntPtr) :
    (world.onNative (ending.native handle)).released =
      withRelease world.released (.txn handle) := by
  have releasing : ending.function.releases? [.txn handle] = some (.txn handle) := by
    cases ending <;> rfl
  exact (Native.releases_congr _ (Ending.native_calls _ _ _)).trans
    (world.native.releases_releasing releasing)

/-- Every step passes native transactions on in one of these ways. -/
theorem hands_of_advance {frame : Frame} {progress : Progress Frame (Except Exception Returned)}
    (stepped : (machine runtime).advance frame world = some (progress, after)) :
    Hands world frame progress.frame? after := by
  by_cases quiet : frame.releases? = none
  · have released : after.released = world.released := by
      obtain ⟨⟨outcome, _⟩, returned, equal⟩ := Option.map_eq_some_iff.mp stepped
      cases equal
      exact spares_frame quiet _ _ _ returned
    cases moves_of_advance stepped with
    | follows follows same =>
        obtain ⟨carries, ends⟩ := follows.hands
        refine .keeps (.onNative same) (fun _ equal => ?_) ends released
        cases equal
        exact carries
    | failed fails same =>
        refine .keeps (.onNative same) (fun _ equal => by cases equal) ?_ released
        cases frame <;> first | rfl | cases fails
    | closed same =>
        exact .keeps (.onNative same) (fun _ equal => by cases equal) rfl released
    | begun begins | databaseBegun begins =>
        exact .begun rfl (congrArg Heap.next begins.state.txns) ⟨rfl, rfl⟩ ⟨rfl, rfl⟩ released
    | constructed => exact .constructed ⟨rfl, rfl⟩ rfl rfl ⟨rfl, rfl⟩ released
    | databaseConstructed same =>
        exact .constructed ⟨rfl, rfl⟩ rfl (congrArg Heap.next same) ⟨rfl, rfl⟩ released
    | refused | ended => cases quiet
    | @unheld t _ disposed =>
        refine .keeps ⟨rfl, fun u => ?_, fun u => ?_, rfl⟩ (fun _ equal => by cases equal) rfl
          released
        · simp only [World.handle, Transaction.exchange, World.onTxn, Heap.modify_obj]
          split
          · rename_i same
            exact same ▸ disposed.symm
          · rfl
        · simp only [World.nativeTxn, Transaction.exchange, World.onTxn, Heap.modify_obj]
          split <;> rfl
    | exchanged live => exact .exchanged live rfl rfl ⟨rfl, rfl⟩ ⟨rfl, rfl⟩
    | @released t _ ending =>
        refine .keeps ?_ (fun _ equal => by cases equal; rfl) rfl released
        rw [releaseManagedResources_eq]
        exact .of_modify rfl rfl fun _ => ⟨rfl, rfl⟩
    | aborted | commitFailed =>
        exact .keeps (.invokeDisposed world _ _) (fun _ equal => by cases equal) rfl released
    | commitSucceeded =>
        exact .keeps (.invokeDisposed world _ _) (fun _ equal => by cases equal; rfl) rfl released
    | committed returned =>
        obtain ⟨native, next, same⟩ := committed_keeps returned
        exact .keeps ⟨next, fun u => (same u).1, fun u => (same u).2.1, by rw [native]⟩
          (fun _ equal => by cases equal) rfl released
    | @added call =>
        let change (transaction : Transaction) : Transaction :=
          { transaction with newDatabases := transaction.newDatabases ++ [world.dbs.next] }
        exact .keeps (@SameHolders.of_modify _ world _ call.t change rfl rfl fun _ => ⟨rfl, rfl⟩)
          (fun _ equal => by cases equal) rfl released
  · cases frame
    case refused txn _ =>
      cases stepped
      refine .refused ⟨rfl, fun _ => rfl, fun _ => rfl, rfl⟩ ⟨rfl, rfl⟩ ?_
      exact (Native.releases_congr _ rfl).trans (world.native.releases_releasing rfl)
    case nativeEnd t handle txnId ending =>
      cases stepped
      exact .ended (.ended world ending handle) ⟨rfl, rfl⟩ ⟨rfl, rfl⟩
        (ended_released world ending handle)
    all_goals exact absurd rfl quiet

variable {frame : Frame} {frame? : Option Frame} {t : TxnRef}

/-- Objects and native transactions are only added. -/
theorem Hands.grows (hands : Hands world frame frame? after) :
    world.txns.next ≤ after.txns.next ∧ world.native.txns.next ≤ after.native.txns.next := by
  cases hands with
  | keeps same | refused same | ended same =>
      exact ⟨Nat.le_of_eq same.objects.symm, Nat.le_of_eq same.natives.symm⟩
  | begun objects natives =>
      rw [objects, natives]
      exact ⟨Nat.le_refl _, Nat.le_succ _⟩
  | constructed _ objects natives =>
      rw [objects, natives]
      exact ⟨Nat.le_succ _, Nat.le_refl _⟩
  | exchanged _ objects natives =>
      rw [objects, natives]
      exact ⟨Nat.le_refl _, Nat.le_refl _⟩

/-- An object keeps its native transaction, and keeps or loses its handle. -/
theorem Hands.object (hands : Hands world frame frame? after) (known : t < world.txns.next) :
    after.nativeTxn t = world.nativeTxn t ∧
      (after.handle t = world.handle t ∨ after.handle t = 0) := by
  cases hands with
  | keeps same | refused same | ended same => exact ⟨same.nativeTxn t, .inl (same.handle t)⟩
  | begun objects =>
      rw [World.nativeTxn, World.handle, objects]
      exact ⟨rfl, .inl rfl⟩
  | constructed _ objects =>
      rw [World.nativeTxn, World.handle, objects, Heap.alloc_obj_of_ne _ _ (Nat.ne_of_lt known)]
      exact ⟨rfl, .inl rfl⟩
  | exchanged _ objects =>
      rw [World.nativeTxn, World.handle, objects, Heap.modify_obj]
      split
      · exact ⟨rfl, .inr rfl⟩
      · exact ⟨rfl, .inl rfl⟩

/-- A handle that a step sets is that of the object which it constructs. -/
theorem Hands.fresh (hands : Hands world frame frame? after) (t : TxnRef) :
    after.handle t = world.handle t ∨ after.handle t = 0 ∨
      t < after.txns.next ∧ after.handle t = after.nativeTxn t := by
  cases hands with
  | keeps same | refused same | ended same => exact .inl (same.handle t)
  | begun objects => exact .inl (by rw [World.handle, objects, World.handle])
  | constructed holds objects =>
      by_cases newest : t = world.txns.next
      · refine .inr (.inr ⟨?_, ?_⟩)
        · rw [newest, objects]
          exact Nat.lt_succ_self _
        · rw [World.handle, World.nativeTxn, newest, objects, Heap.alloc_obj_next, holds.1, holds.2]
      · exact .inl (by rw [World.handle, objects, Heap.alloc_obj_of_ne _ _ newest, World.handle])
  | exchanged _ objects =>
      rw [World.handle, objects, Heap.modify_obj]
      split
      · exact .inr (.inl rfl)
      · exact .inl rfl

end Hands

/-- What every transaction object and every thread holds. -/
def Pool.holder (pool : Threads τ runtime) : TxnRef ⊕ τ → IntPtr
  | .inl t => pool.shared.handle t
  | .inr thread => ((pool.frames thread).bind Frame.carries?).getD 0

/-- What a thread knows of the native transaction it holds. -/
structure Frame.Owns (frame : Frame) (world : World runtime) : Prop where
  positive : ∀ txn, frame.carries? = some txn → txn ≠ 0
  ends : ∀ t, frame.ends? = some t →
    t < world.txns.next ∧ frame.carries? = some (world.nativeTxn t)

/-- Native transactions have one holder at most, and one that an object has had
since `start` is held, or was released once. -/
structure HoldingSound (start : World runtime) (pool : Threads τ runtime) : Prop where
  account : Account pool.holder pool.shared.native.txns.next fun txn =>
    pool.shared.released (.txn txn)
  positive : 0 < pool.shared.native.txns.next
  unborn : ∀ t, pool.shared.txns.next ≤ t → pool.shared.handle t = 0
  held : ∀ t, pool.shared.handle t ≠ 0 → pool.shared.handle t = pool.shared.nativeTxn t
  frames : pool.Everywhere Frame.Owns
  gone : ∀ t < pool.shared.txns.next, start.handle t ≠ 0 ∨ start.txns.next ≤ t →
    pool.shared.handle t = 0 → ¬pool.Has Frame.ends? t →
      pool.shared.released (.txn (pool.shared.nativeTxn t)) = 1

namespace HoldingSound

variable {start : World runtime} {pool : Threads τ runtime}

/-- Before the first call, nobody is on the way. -/
theorem idle (releases : ReleasesSound start) (fates : FatesSound start) :
    HoldingSound start (Pool.idle τ start) where
  account := by
    refine releases.txns.rename (Nat.le_refl _) (Sum.elim id fun _ => 0)
      (fun holder holding => ?_) fun first second holding holding' equal => ?_
    · rcases holder with t | thread
      · rfl
      · exact (holding rfl).elim
    · rcases first with t | thread
      · rcases second with u | thread
        · exact congrArg Sum.inl equal
        · exact (holding' rfl).elim
      · exact (holding rfl).elim
  positive := releases.sound.natives.positive.1
  unborn t unknown := congrArg Transaction.txn (releases.sound.transactions.unborn t unknown)
  held t live := (fates.held t live).symm
  frames _ _ here := by cases here
  gone t known since disposed _ := by
    rcases since with live | new
    · exact absurd disposed live
    · exact absurd new (Nat.not_le_of_lt known)

variable [DecidableEq τ] {thread : τ} {frame : Frame} {frame? : Option Frame}
  {shared : World runtime}

private theorem holder_set_of_ne {other : TxnRef ⊕ τ} (different : other ≠ .inr thread)
    (same : ∀ t, shared.handle t = pool.shared.handle t) :
    (pool.set thread frame? shared).holder other = pool.holder other := by
  rcases other with t | other
  · exact same t
  · have others : other ≠ thread := fun equal => different (congrArg Sum.inr equal)
    simp only [Pool.holder, Pool.set_frames_of_ne _ _ _ others]

private theorem holder_set_self : (pool.set thread frame? shared).holder (.inr thread) =
    (frame?.bind Frame.carries?).getD 0 := by
  rw [Pool.holder, Pool.set_frames_self]

/-- Holders and releases are an account after every step. -/
theorem account_set (sound : HoldingSound start pool) (here : pool.frames thread = some frame)
    (hands : Hands pool.shared frame frame? shared) :
    Account (pool.set thread frame? shared).holder shared.native.txns.next fun txn =>
      shared.released (.txn txn) := by
  have own : pool.holder (.inr thread) = frame.carries?.getD 0 := by
    rw [Pool.holder, here]
    rfl
  cases hands with
  | keeps same carried _ released =>
      rw [released]
      refine sound.account.lose (Nat.le_of_eq same.natives.symm) fun holder => ?_
      by_cases mine : holder = .inr thread
      · rw [mine, holder_set_self, own]
        cases frame? with
        | none => exact .inr rfl
        | some next => exact .inl (by rw [Option.bind_some, carried next rfl])
      · exact .inl (holder_set_of_ne mine same.handle)
  | begun objects natives _ carries released =>
      rw [released, natives]
      refine sound.account.acquire (.inr thread) ?_ fun holder different =>
        holder_set_of_ne different fun t => by rw [World.handle, objects, World.handle]
      rw [holder_set_self, Option.bind_some, carries.1]
      rfl
  | @constructed txn transaction _ holds objects natives carried released =>
      rw [released, natives]
      refine @Account.pass _ _ _ _ _ sound.account (.inr thread) (.inl pool.shared.txns.next) ?_
        fun holder different => ?_
      · rw [own, carried.1]
        simp only [Pool.holder, Pool.set_shared, World.handle, objects, Heap.alloc_obj_next]
        exact holds.1
      · rcases holder with t | other
        · have older : t ≠ pool.shared.txns.next := fun equal => different (congrArg Sum.inl equal)
          refine .inl ⟨?_, by simp⟩
          simp only [Pool.holder, Pool.set_shared, World.handle, objects,
            Heap.alloc_obj_of_ne _ _ older]
        · by_cases mine : other = thread
          · exact .inr (by rw [mine, holder_set_self]; rfl)
          · have others : (Sum.inr other : TxnRef ⊕ τ) ≠ .inr thread :=
              fun equal => mine (Sum.inr.inj equal)
            refine .inl ⟨?_, others⟩
            simp only [Pool.holder, Pool.set_frames_of_ne _ _ _ mine]
  | @refused txn _ same carried released =>
      rw [same.natives]
      have holds : pool.holder (.inr thread) = txn := by rw [own, carried.1]; rfl
      have positive := (sound.frames thread frame here).positive txn carried.1
      refine sound.account.release (holds ▸ positive) holder_set_self
        (fun holder different => holder_set_of_ne different same.handle) fun resource => ?_
      simp only [released, withRelease, NativeHandle.txn.injEq, holds]
  | @exchanged next t _ live objects natives carried carries =>
      have handle (u : TxnRef) : shared.handle u = if u = t then 0 else pool.shared.handle u := by
        rw [World.handle, objects, Heap.modify_obj]
        split <;> rfl
      rw [World.released, natives]
      refine @Account.pass _ _ _ _ _ sound.account (.inl t) (.inr thread) ?_
        fun holder different => ?_
      · rw [holder_set_self, Option.bind_some, carries.1]
        rfl
      · rcases holder with u | other
        · by_cases same : u = t
          · exact .inr ((handle u).trans (if_pos same))
          · exact .inl ⟨(handle u).trans (if_neg same), fun equal => same (Sum.inl.inj equal)⟩
        · have others : other ≠ thread := fun equal => different (congrArg Sum.inr equal)
          refine .inl ⟨?_, by simp⟩
          simp only [Pool.holder, Pool.set_frames_of_ne _ _ _ others]
  | @ended next t txn _ same carried carries released =>
      rw [same.natives]
      have holds : pool.holder (.inr thread) = txn := by rw [own, carried.1]; rfl
      have positive := (sound.frames thread frame here).positive txn carried.1
      refine sound.account.release (holds ▸ positive) ?_
        (fun holder different => holder_set_of_ne different same.handle) fun resource => ?_
      · rw [holder_set_self, Option.bind_some, carries.1]
        rfl
      · simp only [released, withRelease, NativeHandle.txn.injEq, holds]

omit [DecidableEq τ] in
/-- What a thread holds was not released yet. -/
theorem unreleased (sound : HoldingSound start pool) (here : pool.frames thread = some frame)
    {txn : IntPtr} (carried : frame.carries? = some txn) :
    pool.shared.released (.txn txn) = 0 := by
  have holds : pool.holder (.inr thread) = txn := by
    rw [Pool.holder, here, Option.bind_some, carried]
    rfl
  have positive := (sound.frames thread frame here).positive txn carried
  exact holds ▸ sound.account.held (.inr thread) (holds ▸ positive)

omit [DecidableEq τ] in
/-- The moving thread knows what it holds. -/
theorem own (sound : HoldingSound start pool) (here : pool.frames thread = some frame)
    (hands : Hands pool.shared frame frame? shared) {next : Frame} (goes : frame? = some next) :
    next.Owns shared := by
  have owns := sound.frames thread frame here
  have object {t : TxnRef} (known : t < pool.shared.txns.next) := hands.object known
  cases hands with
  | keeps same carried ends =>
      subst goes
      rw [Option.bind_some] at ends
      refine ⟨fun txn carries => owns.positive txn (carried next rfl ▸ carries), fun t ending => ?_⟩
      obtain ⟨known, carries⟩ := owns.ends t (ends ▸ ending)
      rw [same.objects, same.nativeTxn, carried next rfl]
      exact ⟨known, carries⟩
  | begun _ _ _ carries =>
      cases goes
      refine ⟨fun txn carried => ?_, fun t ending => ?_⟩
      · rw [carries.1] at carried
        cases carried
        exact Nat.ne_of_gt sound.positive
      · rw [carries.2] at ending
        cases ending
  | constructed => cases goes
  | refused => cases goes
  | @exchanged _ t _ live objects _ _ carries =>
      cases goes
      refine ⟨fun txn carried => ?_, fun u ending => ?_⟩
      · rw [carries.1] at carried
        cases carried
        exact live
      · rw [carries.2] at ending
        cases ending
        have known : t < pool.shared.txns.next :=
          Nat.lt_of_not_le fun unknown => live (sound.unborn t unknown)
        rw [(object known).1, carries.1, sound.held t live, objects]
        exact ⟨known, rfl⟩
  | ended _ _ carries =>
      cases goes
      refine ⟨fun txn carried => ?_, fun t ending => ?_⟩
      · rw [carries.1] at carried
        cases carried
      · rw [carries.2] at ending
        cases ending

/-- A transaction that no object and no thread holds any more was released once. -/
theorem gone_set (sound : HoldingSound start pool) (here : pool.frames thread = some frame)
    (hands : Hands pool.shared frame frame? shared) {t : TxnRef} (known : t < shared.txns.next)
    (since : start.handle t ≠ 0 ∨ start.txns.next ≤ t) (disposed : shared.handle t = 0)
    (unheld : ¬(pool.set thread frame? shared).Has Frame.ends? t) :
    shared.released (.txn (shared.nativeTxn t)) = 1 := by
  have before (live : pool.shared.handle t = 0) (older : t < pool.shared.txns.next)
      (kept : frame.ends? = some t → frame?.bind Frame.ends? = some t) :
      pool.shared.released (.txn (pool.shared.nativeTxn t)) = 1 := by
    refine sound.gone t older since live fun has => unheld (has.set ?_)
    rw [here]
    exact kept
  have other {txn : IntPtr} (carried : frame.carries? = some txn)
      (once : pool.shared.released (.txn (pool.shared.nativeTxn t)) = 1) :
      NativeHandle.txn (pool.shared.nativeTxn t) ≠ .txn txn := by
    intro equal
    rw [equal, sound.unreleased here carried] at once
    cases once
  cases hands with
  | keeps same _ ends released =>
      rw [released, same.nativeTxn]
      exact before (same.handle t ▸ disposed) (same.objects ▸ known) fun keyed => ends.trans keyed
  | begun objects _ carried _ released =>
      rw [World.handle, objects] at disposed
      rw [objects] at known
      rw [released, World.nativeTxn, objects]
      exact before disposed known (by simp [carried.2])
  | @constructed txn transaction _ holds objects _ carried released =>
      have older : t ≠ pool.shared.txns.next := by
        rintro rfl
        rw [World.handle, objects, Heap.alloc_obj_next, holds.1] at disposed
        exact (sound.frames thread frame here).positive txn carried.1 disposed
      rw [World.handle, objects, Heap.alloc_obj_of_ne _ _ older] at disposed
      rw [objects, Heap.alloc_next] at known
      rw [released, World.nativeTxn, objects, Heap.alloc_obj_of_ne _ _ older]
      exact before disposed (Nat.lt_of_le_of_ne (Nat.le_of_lt_succ known) older)
        (by simp [carried.2])
  | @refused txn _ same carried released =>
      have once := before (same.handle t ▸ disposed) (same.objects ▸ known)
        (by simp [carried.2])
      rw [released, same.nativeTxn, withRelease_of_ne (other carried.1 once)]
      exact once
  | @exchanged next u _ live objects natives carried carries =>
      have different : t ≠ u := by
        rintro rfl
        refine unheld ⟨thread, ?_⟩
        rw [Pool.set_frames_self]
        exact carries.2
      rw [World.handle, objects, Heap.modify_obj_of_ne _ _ different] at disposed
      rw [objects] at known
      rw [World.released, natives, World.nativeTxn, objects, Heap.modify_obj_of_ne _ _ different]
      exact before disposed known (by simp [carried.2])
  | @ended next u txn _ same carried carries released =>
      rw [released, same.nativeTxn]
      by_cases mine : t = u
      · have owned := ((sound.frames thread frame here).ends u carried.2).2
        have equal : pool.shared.nativeTxn t = txn := by
          rw [mine]
          exact Option.some.inj (owned.symm.trans carried.1)
        rw [equal, withRelease, if_pos rfl, sound.unreleased here carried.1]
      · have once := before (same.handle t ▸ disposed) (same.objects ▸ known) fun keyed =>
          absurd (Option.some.inj (carried.2.symm.trans keyed)).symm mine
        rw [withRelease_of_ne (other carried.1 once)]
        exact once

/-- A call that begins holds nothing. -/
theorem enter (sound : HoldingSound start pool) {op : Op} (idle : pool.frames thread = none)
    (enters : (machine runtime).enter pool.shared op = some frame) :
    HoldingSound start (pool.set thread (some frame) pool.shared) := by
  have empty : frame.carries? = none ∧ frame.ends? = none := by
    cases enters_of_enter enters <;> exact ⟨rfl, rfl⟩
  refine ⟨?_, sound.positive, sound.unborn, sound.held, ?_, fun t known since disposed unheld => ?_⟩
  · refine sound.account.congr (fun holder => ?_) rfl fun _ => rfl
    by_cases mine : holder = .inr thread
    · rw [mine, holder_set_self, Option.bind_some, empty.1, Pool.holder, idle]
      rfl
    · exact holder_set_of_ne mine fun _ => rfl
  · refine sound.frames.set (fun next equal => ?_) fun _ _ _ _ owns => owns
    cases equal
    refine ⟨fun txn carried => ?_, fun t ending => ?_⟩
    · cases empty.1.symm.trans carried
    · cases empty.2.symm.trans ending
  · refine sound.gone t known since disposed fun has => unheld (has.set ?_)
    rw [idle]
    exact nofun

private theorem advance (sound : HoldingSound start pool) (here : pool.frames thread = some frame)
    (hands : Hands pool.shared frame frame? shared) :
    HoldingSound start (pool.set thread frame? shared) where
  account := sound.account_set here hands
  positive := Nat.lt_of_lt_of_le sound.positive hands.grows.2
  unborn t unknown := by
    rcases hands.fresh t with same | disposed | ⟨known, _⟩
    · exact same.trans (sound.unborn t (Nat.le_trans hands.grows.1 unknown))
    · exact disposed
    · exact absurd unknown (Nat.not_le_of_lt known)
  held t live := by
    rcases hands.fresh t with same | disposed | ⟨_, fresh⟩
    · have held : pool.shared.handle t ≠ 0 := fun disposed => live (same.trans disposed)
      have known : t < pool.shared.txns.next :=
        Nat.lt_of_not_le fun unknown => held (sound.unborn t unknown)
      exact same.trans ((sound.held t held).trans (hands.object known).1.symm)
    · exact absurd disposed live
    · exact fresh
  frames := by
    refine sound.frames.set (fun next goes => sound.own here hands goes) fun _ other _ _ owns => ?_
    refine ⟨owns.positive, fun t ending => ?_⟩
    obtain ⟨known, carries⟩ := owns.ends t ending
    rw [(hands.object known).1]
    exact ⟨Nat.lt_of_lt_of_le known hands.grows.1, carries⟩
  gone t known since disposed unheld := sound.gone_set here hands known since disposed unheld

/-- Every step of every thread keeps the account. -/
theorem step (sound : HoldingSound start pool) {label : τ × Action Op} {after : Threads τ runtime}
    (step : pool.Step (machine runtime) label after) : HoldingSound start after := by
  cases step with
  | call idle enters => exact sound.enter idle enters
  | advance here _ stepped => exact sound.advance here (hands_of_advance stepped)

end HoldingSound

end KdSoftLmdb
