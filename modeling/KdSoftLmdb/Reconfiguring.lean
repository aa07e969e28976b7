import KdSoftLmdb.Disposal
import KdSoftLmdb.Interop.Options

/-!
# Calls do not notice a changed option

The wrapper reads the options in one place, `BeginTransaction`, and there it tests
one that cannot change. So no call on the objects of an environment tells apart
two worlds that differ in options that may change at any time.
-/

namespace KdSoftLmdb

variable {runtime : Runtime}

open LmdbEnvironmentOptions (fixed)

/-- The same objects over a native library that was reconfigured. -/
def World.Reconfigured (flags : LmdbEnvironmentOptions) (past : PastCalls)
    (world twin : World runtime) : Prop :=
  ∃ native, twin = { world with native := native } ∧ world.native.Reconfigured flags past native

namespace World.Reconfigured

variable {flags : LmdbEnvironmentOptions} {past : PastCalls} {world twin : World runtime}

/-- A world differs from itself in nothing. -/
theorem refl (world : World runtime) : Reconfigured world.native.flags .unread world world :=
  ⟨_, rfl, .refl _⟩

/-- Two reconfigurations, one after the other, are one. -/
theorem trans {others : LmdbEnvironmentOptions} {last : World runtime}
    (first : Reconfigured flags .unread world twin)
    (second : Reconfigured others .unread twin last) : Reconfigured others .unread world last := by
  obtain ⟨_, rfl, related⟩ := first
  obtain ⟨native, rfl, onward⟩ := second
  exact ⟨native, rfl, related.trans onward⟩

/-- A change of the objects that does not look at the native library. -/
theorem objects (change : World runtime → World runtime)
    (apart : ∀ world native, change { world with native := native } =
      { change world with native := native }) (world twin : World runtime)
    (related : Reconfigured flags past world twin) :
    Reconfigured flags past (change world) (change twin) := by
  obtain ⟨native, rfl, kept⟩ := related
  refine ⟨native, apart world native, ?_⟩
  have own := apart world world.native
  rw [show { world with native := world.native } = world from rfl] at own
  rw [own]
  exact kept

private theorem onNative {body : Native → Native}
    (onward : ∀ native twin, Native.Reconfigured flags past native twin →
      Native.Reconfigured flags past (body native) (body twin)) (world twin : World runtime)
    (related : Reconfigured flags past world twin) :
    Reconfigured flags past (world.onNative body) (twin.onNative body) := by
  obtain ⟨native, rfl, kept⟩ := related
  exact ⟨body native, rfl, onward _ _ kept⟩

private theorem callNative {α : Type} {body : Native → α × Native}
    (onward : ∀ native twin, Native.Reconfigured flags past native twin →
      (body native).1 = (body twin).1 ∧
        Native.Reconfigured flags past (body native).2 (body twin).2)
    (world twin : World runtime) (related : Reconfigured flags past world twin) :
    (world.callNative body).1 = (twin.callNative body).1 ∧
      Reconfigured flags past (world.callNative body).2 (twin.callNative body).2 := by
  obtain ⟨native, rfl, kept⟩ := related
  obtain ⟨same, after⟩ := onward _ _ kept
  exact ⟨same, (body native).2, rfl, after⟩

private theorem awaitNative {α : Type} {body : Native → Option (α × Native)}
    (onward : ∀ native twin, Native.Reconfigured flags past native twin →
      Method.SameEnd (Native.Reconfigured flags past) (body native) (body twin))
    (world twin : World runtime) (related : Reconfigured flags past world twin) :
    Method.SameEnd (Reconfigured flags past) (world.awaitNative body) (twin.awaitNative body) := by
  obtain ⟨native, rfl, kept⟩ := related
  have ended := onward _ _ kept
  unfold World.awaitNative
  generalize body world.native = left, body native = right at ended
  cases ended with
  | none => exact .none
  | some ended => exact .some ⟨ended.1, _, rfl, ended.2⟩

end World.Reconfigured

/-- Execute an act and keep what it returns or throws. -/
def Act.execute (world : World runtime) : Act → Option (Except Exception Returned × World runtime)
  | .call op => KdSoftLmdb.execute world op
  | .finalize => some (.ok .nothing, LmdbEnvironment.finalize world)

/-- The body does not notice that the options changed. -/
abbrev MissesOptions (runtime : Runtime) (flags : LmdbEnvironmentOptions) (past : PastCalls)
    {α : Type} (body : Call runtime α) : Prop :=
  body.Respects (World.Reconfigured flags past)

namespace MissesOptions

open Method

variable {flags : LmdbEnvironmentOptions} {past : PastCalls}

private theorem checkRetCode (ret : DbRetCode) :
    MissesOptions runtime flags past (KdSoftLmdb.checkRetCode ret) := by
  unfold KdSoftLmdb.checkRetCode
  split
  · exact respects_throw _
  · exact respects_pure _

section Checks

private theorem checkTransaction (t : TxnRef) :
    MissesOptions runtime flags past (Transaction.checkDisposed t) := by
  refine .get_bind (fun _ _ related => ?_) fun world => ?_
  · obtain ⟨_, rfl, _⟩ := related
    rfl
  · split
    · exact respects_throw _
    · exact respects_pure _

private theorem checkDatabase (d : DbRef) :
    MissesOptions runtime flags past (Database.checkDisposed d) := by
  refine .get_bind (fun _ _ related => ?_) fun world => ?_
  · obtain ⟨_, rfl, _⟩ := related
    rfl
  · dsimp only
    split
    · exact respects_throw _
    · exact respects_pure _

private theorem checkCursor (c : CursorRef) :
    MissesOptions runtime flags past (Cursor.checkDisposed c) := by
  refine .get_bind (fun _ _ related => ?_) fun world => ?_
  · obtain ⟨_, rfl, _⟩ := related
    rfl
  · split
    · exact respects_throw _
    · exact respects_pure _

private theorem checkEnvironment :
    MissesOptions runtime flags past LmdbEnvironment.checkDisposed := by
  refine .get_bind (fun _ _ related => ?_) fun world => ?_
  · obtain ⟨_, rfl, _⟩ := related
    rfl
  · split
    · exact respects_throw _
    · exact respects_pure _

private theorem flag (benign : Option DbRetCode) (ret : DbRetCode) :
    MissesOptions runtime flags past (if benign = some ret then pure false
      else do
        KdSoftLmdb.checkRetCode ret
        pure true) := by
  split
  · exact respects_pure _
  · exact (checkRetCode ret).bind fun _ => respects_pure _

private theorem databaseAccess (function : LibFunc) (benign : Option DbRetCode) (d : DbRef)
    (t : TxnRef)
    (ret : DbRetCode) :
    MissesOptions runtime flags past (Database.access function benign d t ret) := by
  refine (checkDatabase d).bind fun handle => .get_bind (fun _ _ related => ?_) fun world => ?_
  · obtain ⟨_, rfl, _⟩ := related
    rfl
  · exact (respects_modify (.onNative (.record function _))).bind fun _ => flag benign ret

private theorem cursorAccess (function : LibFunc) (benign : Option DbRetCode) (c : CursorRef)
    (ret : DbRetCode) : MissesOptions runtime flags past (Cursor.access function benign c ret) :=
  (checkCursor c).bind fun _ =>
    (respects_modify (.onNative (.record function _))).bind fun _ => flag benign ret

end Checks

section Transactions

variable (t : TxnRef)

private theorem exchange (world twin : World runtime)
    (related : world.Reconfigured flags past twin) :
    (Transaction.exchange t world).1 = (Transaction.exchange t twin).1 ∧
      (Transaction.exchange t world).2.Reconfigured flags past (Transaction.exchange t twin).2 := by
  obtain ⟨native, rfl, kept⟩ := related
  exact ⟨rfl, native, rfl, kept⟩

private theorem releaseManagedResources (forCommit : Bool) (world twin : World runtime)
    (related : world.Reconfigured flags past twin) :
    (Transaction.releaseManagedResources t forCommit world).Reconfigured flags past
      (Transaction.releaseManagedResources t forCommit twin) := by
  refine .objects (Transaction.releaseManagedResources t forCommit) (fun world native => ?_) world
    twin related
  unfold Transaction.releaseManagedResources
  dsimp only
  split
  · cases forCommit <;> rfl
  · rfl
  · rfl

private theorem invokeDisposed (txnId : Nat) (world twin : World runtime)
    (related : world.Reconfigured flags past twin) :
    (Transaction.invokeDisposed t txnId world).Reconfigured flags past
      (Transaction.invokeDisposed t txnId twin) := by
  refine .objects (Transaction.invokeDisposed t txnId) (fun world native => ?_) world twin related
  unfold Transaction.invokeDisposed
  dsimp only
  split <;> rfl

private theorem promote (d : DbRef) :
    MissesOptions runtime flags past (DatabaseTransaction.promote d) := by
  refine .get_bind (fun _ _ related => ?_) fun world => ?_
  · obtain ⟨_, rfl, _⟩ := related
    rfl
  · dsimp only
    split
    · exact respects_throw _
    · exact (respects_modify (.objects _ fun _ _ => rfl)).bind fun _ =>
        respects_modify (.objects _ fun _ _ => rfl)

private theorem committed : MissesOptions runtime flags past (Transaction.committed t) := by
  refine .get_bind (fun _ _ related => ?_) fun world => ?_
  · obtain ⟨_, rfl, _⟩ := related
    rfl
  · split
    · refine .get_bind (fun _ _ related => ?_) fun world => ?_
      · obtain ⟨_, rfl, _⟩ := related
        rfl
      · exact (respects_forEach promote _).bind fun _ =>
          respects_modify (.objects _ fun _ _ => rfl)
    · exact respects_pure _
    · exact respects_pure _

private theorem commit (answer : Transaction.CommitAnswer) :
    MissesOptions runtime flags past (Transaction.commit t answer) := by
  refine (checkTransaction t).bind fun _ => (respects_call (exchange t)).bind fun handle => ?_
  split
  · refine Respects.bind (respects_call (World.Reconfigured.callNative
      (Native.Reconfigured.mdbTxnId handle))) fun txnId => ?_
    refine (respects_modify (.onNative (.mdbTxnCommit _ _ _))).bind fun _ => ?_
    refine (respects_modify (releaseManagedResources t true)).bind fun _ => ?_
    refine (respects_modify (invokeDisposed t txnId)).bind fun _ => ?_
    exact (checkRetCode _).bind fun _ => committed t
  · exact respects_pure _

private theorem disposeTransaction (world twin : World runtime)
    (related : world.Reconfigured flags past twin) :
    (Transaction.dispose t world).Reconfigured flags past (Transaction.dispose t twin) := by
  obtain ⟨same, exchanged⟩ := exchange t world twin related
  unfold Transaction.dispose
  dsimp only
  rw [← same]
  split
  · obtain ⟨sameId, asked⟩ :=
      World.Reconfigured.callNative (Native.Reconfigured.mdbTxnId _) _ _ exchanged
    rw [← sameId]
    exact invokeDisposed t _ _ _ (releaseManagedResources t false _ _
      (World.Reconfigured.onNative (.mdbTxnAbort _) _ _ asked))
  · exact exchanged

private theorem getId : MissesOptions runtime flags past (Transaction.getId t) :=
  (checkTransaction t).bind fun handle =>
    respects_call (World.Reconfigured.callNative (Native.Reconfigured.mdbTxnId handle))

private theorem environment : MissesOptions runtime flags past (Transaction.environment t) := by
  refine (checkTransaction t).bind fun handle => ?_
  refine Respects.bind (respects_call (World.Reconfigured.callNative
    (Native.Reconfigured.mdbTxnEnv handle))) fun env => ?_
  exact respects_modify (.onNative (.record .mdbEnvGetUserctx [.env env]))

private theorem reset : MissesOptions runtime flags past (ReadOnlyTransaction.reset t) :=
  (checkTransaction t).bind fun handle => respects_modify (.onNative (.mdbTxnReset handle))

private theorem renew (answer : DbRetCode) :
    MissesOptions runtime flags past (ReadOnlyTransaction.renew t answer) :=
  (checkTransaction t).bind fun handle =>
    Respects.bind (respects_await (World.Reconfigured.awaitNative
      (Native.Reconfigured.mdbTxnRenew handle answer))) checkRetCode

end Transactions

section DatabasesAndCursors

variable (d : DbRef) (c : CursorRef) (t : TxnRef)

private theorem invokeDatabaseDisposed (world twin : World runtime)
    (related : world.Reconfigured flags past twin) :
    (Database.invokeDisposed d world).Reconfigured flags past (Database.invokeDisposed d twin) := by
  refine .objects (Database.invokeDisposed d) (fun world native => ?_) world twin related
  unfold Database.invokeDisposed
  dsimp only
  split <;> rfl

private theorem disposeDatabase (world twin : World runtime)
    (related : world.Reconfigured flags past twin) :
    (Database.dispose d world).Reconfigured flags past (Database.dispose d twin) := by
  have exchanged : (world.onDb d Database.clearHandle).Reconfigured flags past
      (twin.onDb d Database.clearHandle) := .objects _ (fun _ _ => rfl) world twin related
  obtain ⟨_, rfl, _⟩ := related
  unfold Database.dispose Database.exchange
  dsimp only [World.dbi]
  split
  · exact invokeDatabaseDisposed d _ _
      (World.Reconfigured.onNative (.mdbDbiClose _ _) _ _ exchanged)
  · exact exchanged

private theorem drop (answer : DbRetCode) :
    MissesOptions runtime flags past (Database.drop d t answer) := by
  refine (checkDatabase d).bind fun handle => .get_bind (fun _ _ related => ?_) fun world => ?_
  · obtain ⟨_, rfl, _⟩ := related
    rfl
  · refine Respects.bind (respects_await (World.Reconfigured.awaitNative
      (Native.Reconfigured.mdbDrop _ _ _ _))) fun ret => (checkRetCode ret).bind fun _ => ?_
    refine respects_modify fun world twin related => invokeDatabaseDisposed d _ _ ?_
    exact .objects _ (fun _ _ => rfl) world twin related

private theorem truncate (answer : DbRetCode) :
    MissesOptions runtime flags past (Database.truncate d t answer) := by
  refine (checkDatabase d).bind fun handle => .get_bind (fun _ _ related => ?_) fun world => ?_
  · obtain ⟨_, rfl, _⟩ := related
    rfl
  · exact Respects.bind (respects_await (World.Reconfigured.awaitNative
      (Native.Reconfigured.mdbDrop _ _ _ _))) checkRetCode

private theorem databaseMember (member : DatabaseMember) (answer : DbRetCode) :
    MissesOptions runtime flags past (member.body d t answer) := by
  cases member with
  | truncate => exact (truncate d t answer).bind fun _ => respects_pure _
  | _ => exact (databaseAccess _ _ d t _).bind fun _ => respects_pure _

private theorem databaseEnvironment :
    MissesOptions runtime flags past (.modify (Database.environment d)) := by
  refine respects_modify fun world twin related => ?_
  obtain ⟨native, rfl, kept⟩ := related
  exact ⟨_, rfl, .record .mdbEnvGetUserctx _ _ _ kept⟩

private theorem openCursor (answer : DbRetCode) :
    MissesOptions runtime flags past (Database.openCursor d t answer) := by
  refine Respects.bind ?_ fun cur => .get_bind (fun _ _ related => ?_) fun world => ?_
  · refine (checkDatabase d).bind fun handle => .get_bind (fun _ _ related => ?_) fun world => ?_
    · obtain ⟨_, rfl, _⟩ := related
      rfl
    · exact Respects.bind (respects_await (World.Reconfigured.awaitNative
        (Native.Reconfigured.mdbCursorOpen _ _ _))) fun reply =>
          (checkRetCode _).bind fun _ => respects_pure _
  · obtain ⟨_, rfl, _⟩ := related
    rfl
  · refine Respects.bind (respects_modify (.objects _ fun _ _ => rfl)) fun _ => ?_
    exact Respects.bind (respects_modify (.objects _ fun _ _ => rfl)) fun _ => respects_pure _

private theorem disposeCursor (world twin : World runtime)
    (related : world.Reconfigured flags past twin) :
    (Cursor.dispose c world).Reconfigured flags past (Cursor.dispose c twin) := by
  have exchanged : (world.onCursor c Cursor.clearHandle).Reconfigured flags past
      (twin.onCursor c Cursor.clearHandle) := .objects _ (fun _ _ => rfl) world twin related
  obtain ⟨_, rfl, _⟩ := related
  unfold Cursor.dispose Cursor.exchange
  dsimp only [World.cur]
  split
  · refine .objects (Cursor.invokeDisposed c) (fun world native => ?_) _ _
      (World.Reconfigured.onNative (.mdbCursorClose _) _ _ exchanged)
    unfold Cursor.invokeDisposed
    dsimp only
    split <;> rfl
  · exact exchanged

private theorem renewCursor (answer : DbRetCode) :
    MissesOptions runtime flags past (Cursor.renew c t answer) := by
  refine .get_bind (fun _ _ related => ?_) fun world => ?_
  · obtain ⟨_, rfl, _⟩ := related
    rfl
  · split
    · exact respects_throw _
    · exact (checkCursor c).bind fun handle => Respects.bind (respects_await
        (World.Reconfigured.awaitNative (Native.Reconfigured.mdbCursorRenew _ _ _))) checkRetCode

private theorem cursorMember (member : CursorMember) (answer : DbRetCode) :
    MissesOptions runtime flags past (member.body c answer) := by
  cases member <;> exact (cursorAccess _ _ c _).bind fun _ => respects_pure _

end DatabasesAndCursors

section Opening

variable (t : TxnRef) (name : Option String) (answer : DatabaseTransaction.OpenAnswer)

private theorem register (set : Comparer → IntPtr → Nat → DbRetCode → Native → DbRetCode × Native)
    (ordered : ∀ comparer txn dbi ret native twin, Native.Reconfigured flags past native twin →
      (set comparer txn dbi ret native).1 = (set comparer txn dbi ret twin).1 ∧
        Native.Reconfigured flags past (set comparer txn dbi ret native).2
          (set comparer txn dbi ret twin).2)
    (holder : CompareHolder) (handle : IntPtr) (dbi : Nat) (env : IntPtr) (ret : DbRetCode) :
    MissesOptions runtime flags past
      (DatabaseTransaction.register set holder handle dbi env ret) := by
  have checked (ret : DbRetCode) : MissesOptions runtime flags past (if ret ≠ .success then do
      .modify (.onNative (Native.mdbDbiClose env dbi))
      KdSoftLmdb.checkRetCode ret
    else KdSoftLmdb.checkRetCode ret) := by
    split
    · exact Respects.bind (respects_modify (.onNative (.mdbDbiClose env dbi))) fun _ =>
        checkRetCode ret
    · exact checkRetCode ret
  unfold DatabaseTransaction.register
  dsimp only
  split
  · exact Respects.bind (respects_call (World.Reconfigured.callNative (ordered _ _ _ _))) checked
  · exact Respects.bind (respects_pure _) checked

private theorem openDatabaseInternal (options : BitVec 32) (holder : CompareHolder) :
    MissesOptions runtime flags past
      (DatabaseTransaction.openDatabaseInternal t name options holder answer) := by
  refine .get_bind (fun _ _ related => ?_) fun world => ?_
  · obtain ⟨_, rfl, _⟩ := related
    rfl
  cases name with
  | none => exact respects_throw _
  | some name =>
      dsimp only
      split
      · exact respects_throw _
      · refine (checkTransaction t).bind fun handle => ?_
        refine Respects.bind (respects_await (World.Reconfigured.awaitNative
          (Native.Reconfigured.mdbDbiOpen _ _ _ _ _))) fun reply => ?_
        refine (checkRetCode _).bind fun _ => ?_
        refine Respects.bind (respects_call (World.Reconfigured.callNative
          (Native.Reconfigured.mdbTxnEnv handle))) fun env => ?_
        refine (register _ ?_ _ _ _ _ _).bind fun _ => respects_pure _
        exact fun _ _ _ _ => Native.Reconfigured.setOrder _ _ _ _ _

private theorem addNew (kind : DatabaseKind) (dbi : Nat) (env : IntPtr) (name : String) :
    MissesOptions runtime flags past (DatabaseTransaction.addNew t kind dbi env name) := by
  refine .get_bind (fun _ _ related => ?_) fun world => ?_
  · obtain ⟨_, rfl, _⟩ := related
    rfl
  · refine Respects.bind (respects_modify (.objects _ fun _ _ => rfl)) fun _ => ?_
    exact Respects.bind (respects_modify (.objects _ fun _ _ => rfl)) fun _ => respects_pure _

private theorem openDatabase (config : Option DatabaseConfiguration) :
    MissesOptions runtime flags past (DatabaseTransaction.openDatabase t name config answer) := by
  cases config with
  | none => exact respects_throw _
  | some config =>
      exact (openDatabaseInternal t name answer _ _).bind fun _ => addNew t _ _ _ _

private theorem openDuplicates (kind : DatabaseKind) (forced : BitVec 32)
    (config : Option MultiValueDatabaseConfiguration) :
    MissesOptions runtime flags past
      (DatabaseTransaction.openDuplicates kind forced t name config answer) := by
  cases config with
  | none => exact respects_throw _
  | some config =>
      refine (openDatabaseInternal t name answer _ _).bind fun _ => ?_
      refine (register _ ?_ _ _ _ _ _).bind fun _ => addNew t _ _ _ _
      exact fun _ _ _ _ => Native.Reconfigured.setOrder _ _ _ _ _

end Opening

section Environment

private theorem beginTransactionInternal (modes : TransactionModes) (parent : Option TxnRef)
    (answer : DbRetCode) :
    MissesOptions runtime flags past
      (LmdbEnvironment.beginTransactionInternal modes parent answer) := by
  refine .get_bind (fun _ _ related => ?_) fun world => ?_
  · obtain ⟨_, rfl, _⟩ := related
    rfl
  · refine checkEnvironment.bind fun handle => ?_
    refine Respects.bind (respects_await (World.Reconfigured.awaitNative
      (Native.Reconfigured.mdbTxnBegin _ _ _ _))) fun begun => (checkRetCode _).bind fun _ => ?_
    exact Respects.bind (respects_call (World.Reconfigured.callNative
      (Native.Reconfigured.mdbTxnId _))) fun _ => respects_pure _

/-- The one test of the options asks for one that is fixed. -/
theorem checkConcurrent (answer : DbRetCode) : MissesOptions runtime flags past (do
    let opts ← LmdbEnvironment.getOptions answer
    pure (!opts.hasFlag .noThreadLocalStorage)) := by
  unfold LmdbEnvironment.getOptions
  rw [bind_assoc]
  refine checkEnvironment.bind fun handle => ?_
  intro world twin related
  obtain ⟨native, rfl, kept⟩ := related
  obtain ⟨code, options, after⟩ := Native.Reconfigured.mdbEnvGetFlags handle answer _ _ kept
  have tested : (native.mdbEnvGetFlags handle answer).1.2.hasFlag .noThreadLocalStorage =
      (world.native.mdbEnvGetFlags handle answer).1.2.hasFlag .noThreadLocalStorage := by
    rw [LmdbEnvironmentOptions.hasFlag_noThreadLocalStorage, ← options,
      ← LmdbEnvironmentOptions.hasFlag_noThreadLocalStorage]
  have rest (ret : DbRetCode) (local' : Bool) : MissesOptions runtime flags past (do
      KdSoftLmdb.checkRetCode ret
      pure (!local')) := (checkRetCode ret).bind fun _ => respects_pure _
  have ended := rest (world.native.mdbEnvGetFlags handle answer).1.1
    ((world.native.mdbEnvGetFlags handle answer).1.2.hasFlag .noThreadLocalStorage)
    { world with native := (world.native.mdbEnvGetFlags handle answer).2 }
    { world with native := (native.mdbEnvGetFlags handle answer).2 } ⟨_, rfl, after⟩
  simp only [bind_assoc, call_bind, pure_then]
  dsimp only [World.callNative]
  rw [tested, ← code]
  exact ended

private theorem beginTransaction (modes : TransactionModes) (parent : Option TxnRef)
    (answer : LmdbEnvironment.BeginAnswer) :
    MissesOptions runtime flags past (LmdbEnvironment.beginTransaction modes parent answer) := by
  refine (beginTransactionInternal modes parent answer.ret).bind fun begun => ?_
  obtain ⟨txn, txnId⟩ := begun
  dsimp only
  generalize (if modes.isReadOnly then TransactionKind.readOnlyTransaction else .transaction) = kind
  have registering (checkConcurrent : Bool) : MissesOptions runtime flags past (do
      let world ← .get
      let added ← .call (LmdbEnvironment.tryAdd txnId world.txns.next)
      if !added && checkConcurrent then do
        .modify (.onNative (Native.mdbTxnAbort txn))
        .throw (.lmdbText s!"Transaction with same Id {txnId} exists already.")
      else .call (LmdbEnvironment.construct kind txn parent)) := by
    refine .get_bind (fun _ _ related => ?_) fun world => ?_
    · obtain ⟨_, rfl, _⟩ := related
      rfl
    refine Respects.bind (respects_call fun world twin related => ?_) fun added => ?_
    · obtain ⟨native, rfl, kept⟩ := related
      exact ⟨rfl, native, rfl, kept⟩
    split
    · exact Respects.bind (respects_modify (.onNative (.mdbTxnAbort _))) fun _ =>
        respects_throw _
    · refine respects_call fun world twin related => ?_
      obtain ⟨native, rfl, kept⟩ := related
      exact ⟨rfl, native, rfl, kept⟩
  split
  · rw [← bind_assoc]
    exact (checkConcurrent answer.getFlags).bind registering
  · exact registering true

private theorem beginDatabaseTransaction (modes : TransactionModes) (parent : Option TxnRef)
    (answer : DbRetCode) :
    MissesOptions runtime flags past
      (LmdbEnvironment.beginDatabaseTransaction modes parent answer) := by
  unfold LmdbEnvironment.beginDatabaseTransaction
  split
  · exact respects_throw _
  · refine .get_bind (fun _ _ related => ?_) fun world => ?_
    · obtain ⟨_, rfl, _⟩ := related
      rfl
    · split
      · exact respects_throw _
      · refine (beginTransactionInternal modes parent answer).bind fun begun => ?_
        refine respects_call fun world twin related => ?_
        obtain ⟨native, rfl, kept⟩ := related
        exact ⟨rfl, native, rfl, kept⟩

private theorem disposeEntries (order : List TxnRef) (world twin : World runtime)
    (related : world.Reconfigured flags past twin) :
    (order.foldl LmdbEnvironment.disposeEntry world).Reconfigured flags past
      (order.foldl LmdbEnvironment.disposeEntry twin) := by
  induction order generalizing world twin with
  | nil => exact related
  | cons t rest ih =>
      refine ih _ _ ?_
      have disposed := disposeTransaction t world twin related
      unfold LmdbEnvironment.disposeEntry
      obtain ⟨native, rfl, kept⟩ := related
      dsimp only
      split
      · exact disposed
      · exact ⟨native, rfl, kept⟩

private theorem disposeManaged (order : List TxnRef) (world twin : World runtime)
    (related : world.Reconfigured flags past twin) :
    (LmdbEnvironment.disposeManaged order world).Reconfigured flags past
      (LmdbEnvironment.disposeManaged order twin) := by
  have entries := disposeEntries order world twin related
  unfold LmdbEnvironment.disposeManaged
  generalize order.foldl LmdbEnvironment.disposeEntry world = left,
    order.foldl LmdbEnvironment.disposeEntry twin = right at entries
  dsimp only
  refine .objects (fun world : World runtime => { world with
    dbs := world.dbs.modifyAll world.environment.databases.values Database.clearHandle })
    (fun _ _ => rfl) _ _ ?_
  obtain ⟨native, rfl, kept⟩ := entries
  dsimp only
  split
  · exact disposeTransaction _ _ _ ⟨native, rfl, kept⟩
  · exact ⟨native, rfl, kept⟩

private theorem disposeWith (disposing : Bool) (order : List TxnRef) (world twin : World runtime)
    (related : world.Reconfigured flags past twin) :
    (LmdbEnvironment.disposeWith disposing order world).Reconfigured flags past
      (LmdbEnvironment.disposeWith disposing order twin) := by
  have cleared : World.Reconfigured flags past
      (world.onEnvironment fun environment => { environment with env := 0 })
      (twin.onEnvironment fun environment => { environment with env := 0 }) :=
    .objects (World.onEnvironment _) (fun _ _ => rfl) world twin related
  have managed := disposeManaged order _ _ cleared
  obtain ⟨native, rfl, kept⟩ := related
  unfold LmdbEnvironment.disposeWith
  dsimp only
  refine .objects (fun world : World runtime => (if world.environment.instanceHandle then
      world.onEnvironment fun environment =>
        { environment with instanceHandleFrees := environment.instanceHandleFrees + 1 }
    else world).onEnvironment fun environment =>
      { environment with transactions := .empty, activeDbTxn := none, databases := .empty })
    (fun world native => ?_) _ _ ?_
  · dsimp only
    split <;> rfl
  · split
    · refine World.Reconfigured.onNative (.mdbEnvClose _) _ _ ?_
      cases disposing
      · exact cleared
      · exact managed
    · exact cleared

/-- No call on the objects of an environment tells apart options that may change at any time. -/
theorem body (op : Op) : MissesOptions runtime flags past op.body := by
  cases op with
  | beginTransaction modes parent answer =>
      exact (beginTransaction modes parent answer).bind fun _ => respects_pure _
  | beginReadOnlyTransaction modes parent answer =>
      exact (beginTransaction _ parent answer).bind fun _ => respects_pure _
  | beginDatabaseTransaction modes parent answer =>
      exact (beginDatabaseTransaction modes parent answer).bind fun _ => respects_pure _
  | commit t answer => exact (commit t answer).bind fun _ => respects_pure _
  | disposeTransaction t =>
      exact Respects.bind (respects_modify (disposeTransaction t)) fun _ => respects_pure _
  | transactionId t => exact (getId t).bind fun _ => respects_pure _
  | transactionEnvironment t => exact (environment t).bind fun _ => respects_pure _
  | reset t => exact (reset t).bind fun _ => respects_pure _
  | renew t answer => exact (renew t answer).bind fun _ => respects_pure _
  | openDatabase t name config answer =>
      exact (openDatabase t name answer config).bind fun _ => respects_pure _
  | openMultiValueDatabase t name config answer =>
      exact (openDuplicates t name answer _ _ config).bind fun _ => respects_pure _
  | openFixedMultiValueDatabase t name config answer =>
      exact (openDuplicates t name answer _ _ _).bind fun _ => respects_pure _
  | disposeDatabase d =>
      exact Respects.bind (respects_modify (disposeDatabase d)) fun _ => respects_pure _
  | drop d t answer => exact (drop d t answer).bind fun _ => respects_pure _
  | databaseMember member d t answer => exact databaseMember d t member answer
  | databaseEnvironment d => exact (databaseEnvironment d).bind fun _ => respects_pure _
  | openCursor d t answer => exact (openCursor d t answer).bind fun _ => respects_pure _
  | disposeCursor c =>
      exact Respects.bind (respects_modify (disposeCursor c)) fun _ => respects_pure _
  | renewCursor c t answer => exact (renewCursor c t answer).bind fun _ => respects_pure _
  | cursorMember member c answer => exact cursorMember c member answer
  | disposeEnvironment order =>
      intro world twin related
      have disposed := disposeWith true order world twin related
      obtain ⟨native, rfl, kept⟩ := related
      unfold Op.body
      dsimp only
      split
      · exact .some ⟨rfl, disposed⟩
      · exact .none

/-- The same for the finalizer. -/
theorem execute (act : Act) : MissesOptions runtime flags past fun world => act.execute world := by
  intro world twin related
  cases act with
  | call op =>
      have ended := body op world twin related
      obtain ⟨native, rfl, kept⟩ := related
      change Method.SameEnd _ (if op.typed world then _ else _) (if op.typed world then _ else _)
      split
      · exact ended
      · exact .none
  | finalize => exact .some ⟨rfl, disposeWith false [] world twin related⟩

end Environment

end MissesOptions

section Acts

variable {world after : World runtime} {act : Act} {result : Except Exception Returned}

/-- An act leaves the options as they are. -/
theorem flags_of_execute (executed : act.execute world = some (result, after)) :
    after.native.flags = world.native.flags := by
  -- the options that the second of two related worlds has stay its options
  have ended : Method.SameEnd (World.Reconfigured world.native.flags .unread) (act.execute world)
      (act.execute world) := MissesOptions.execute act world world (.refl world)
  rw [executed] at ended
  cases ended with
  | some ended =>
      obtain ⟨_, same, calls, own, _⟩ := ended.2
      rw [show after.native = _ from congrArg World.native same, own]
      rfl

/-- An act adds calls to those that were recorded. -/
theorem calls_of_execute (executed : act.execute world = some (result, after)) :
    ∃ made, after.native.calls = made ++ world.native.calls := by
  -- the act runs as it would after no call at all
  have related : World.Reconfigured world.native.flags (.since world.native.calls)
      { world with native := { world.native with calls := [] } } world :=
    ⟨world.native, rfl, world.native.calls, rfl, rfl, rfl⟩
  have ended : Method.SameEnd (World.Reconfigured world.native.flags (.since world.native.calls))
      (act.execute { world with native := { world.native with calls := [] } })
      (act.execute world) := MissesOptions.execute act _ world related
  rw [executed] at ended
  generalize act.execute { world with native := { world.native with calls := [] } } = fresh at ended
  cases ended with
  | @some fresh _ ended =>
      obtain ⟨_, same, calls, own, added, _⟩ := ended.2
      refine ⟨fresh.2.native.calls, ?_⟩
      rw [show after.native = _ from congrArg World.native same, own]
      exact added

end Acts

end KdSoftLmdb
