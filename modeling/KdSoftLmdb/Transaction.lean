import KdSoftLmdb.Objects

/-!
# Transaction, ReadOnlyTransaction and the overrides of DatabaseTransaction

`Transaction.commit` and `Transaction.dispose` are written as the sequence of
steps that the source makes; the steps that other threads can come between are
functions of their own.
-/

namespace KdSoftLmdb

variable {runtime : Runtime}

namespace Cursor

/-- `Cursor.ClearHandle` -/
def clearHandle (cursor : Cursor) : Cursor := { cursor with cur := 0 }

end Cursor

namespace Database

/-- `Database.ClearHandle` -/
def clearHandle (database : Database) : Database := { database with dbi := 0 }

end Database

namespace LmdbEnvironment

/-- `LmdbEnvironment.TransactionDisposed`, the callback of `BeginTransaction`. -/
def transactionDisposed (txnId : Nat) : World runtime → World runtime :=
  .onEnvironment fun environment =>
    { environment with transactions := environment.transactions.remove txnId }

/-- `LmdbEnvironment.DatabaseTransactionClosed`, the callback of `BeginDatabaseTransaction`. -/
def databaseTransactionClosed (_txnId : Nat) : World runtime → World runtime :=
  .onEnvironment fun environment => { environment with activeDbTxn := none }

/-- `LmdbEnvironment.DatabaseDisposed`, the callback of a committed database. -/
def databaseDisposed (d : DbRef) (world : World runtime) : World runtime :=
  world.onEnvironment fun environment =>
    { environment with databases := environment.databases.remove (world.dbs.obj d).name }

end LmdbEnvironment

namespace DatabaseTransaction

/-- `DatabaseTransaction.NewDatabaseDisposed`, the callback of a new database. -/
def newDatabaseDisposed (t : TxnRef) (d : DbRef) : World runtime → World runtime :=
  .onTxn t fun transaction =>
    { transaction with newDatabases := transaction.newDatabases.erase d }

/-- The part of `DatabaseTransaction.ReleaseManagedResources` after the base call. -/
def releaseManagedResources (t : TxnRef) (forCommit : Bool) (world : World runtime) :
    World runtime :=
  if forCommit then world
  else
    let newDatabases := (world.txns.obj t).newDatabases
    { world with
      dbs := world.dbs.modifyAll newDatabases Database.clearHandle
      txns := world.txns.modify t fun transaction => { transaction with newDatabases := [] } }

/-- One round of the loop in `DatabaseTransaction.Committed`. -/
def promote (newDb : DbRef) : Call runtime Unit := do
  let world ← .get
  let name := (world.dbs.obj newDb).name
  match world.environment.databases.add? name newDb with
  | none => .throw (.argument s!"An item with the same key has already been added. Key: {name}")
  | some databases =>
      .modify (.onEnvironment fun environment => { environment with databases := databases })
      .modify (.onDb newDb fun database => { database with disposed := .databaseDisposed })

/-- `DatabaseTransaction.Committed` -/
def committed (t : TxnRef) : Call runtime Unit := do
  let world ← .get
  .forEach (world.txns.obj t).newDatabases promote
  .modify (.onTxn t fun transaction => { transaction with newDatabases := [] })

end DatabaseTransaction

namespace Transaction

/-- `Transaction.IsDisposed` -/
def isDisposed (world : World runtime) (t : TxnRef) : Bool := world.handle t == 0

/-- `Transaction.CheckDisposed` -/
def checkDisposed (t : TxnRef) : Call runtime IntPtr := do
  let world ← .get
  if world.handle t = 0 then .throw (.objectDisposed (world.txns.obj t).kind.typeName)
  else pure (world.handle t)

/-- `Interlocked.Exchange(ref txn, IntPtr.Zero)` -/
def exchange (t : TxnRef) (world : World runtime) : IntPtr × World runtime :=
  (world.handle t, world.onTxn t fun transaction => { transaction with txn := 0 })

/-- `Transaction.ReleaseManagedResources` of the base class: write cursors are
marked closed, cursors of a reader stay open, and the set is cleared. -/
def releaseCursors (t : TxnRef) (world : World runtime) : World runtime :=
  { world with
    cursors := world.cursors.modifyAll (world.txns.obj t).cursors fun cursor =>
      if cursor.isReadOnly then cursor else cursor.clearHandle
    txns := world.txns.modify t fun transaction => { transaction with cursors := [] } }

/-- The virtual call `ReleaseManagedResources(forCommit)`. -/
def releaseManagedResources (t : TxnRef) (forCommit : Bool) (world : World runtime) :
    World runtime :=
  match (world.txns.obj t).kind with
  | .databaseTransaction =>
      DatabaseTransaction.releaseManagedResources t forCommit (releaseCursors t world)
  | .transaction | .readOnlyTransaction => releaseCursors t world

/-- `disposed?.Invoke(txnId)`: the constructor call decides the callback, and
only `BeginDatabaseTransaction` constructs a `DatabaseTransaction`. -/
def invokeDisposed (t : TxnRef) (txnId : Nat) (world : World runtime) : World runtime :=
  match (world.txns.obj t).kind with
  | .databaseTransaction => LmdbEnvironment.databaseTransactionClosed txnId world
  | .transaction | .readOnlyTransaction => LmdbEnvironment.transactionDisposed txnId world

/-- The virtual call `Committed()`; the base method does nothing. -/
def committed (t : TxnRef) : Call runtime Unit := do
  let world ← .get
  match (world.txns.obj t).kind with
  | .databaseTransaction => DatabaseTransaction.committed t
  | .transaction | .readOnlyTransaction => pure ()

/-- What LMDB answers to `mdb_txn_commit`: the code, and whether a new snapshot was written. -/
structure CommitAnswer where
  ret : DbRetCode
  wrote : Bool

/-- `Transaction.Commit` -/
def commit (t : TxnRef) (answer : CommitAnswer) : Call runtime Unit := do
  let _currentHandle ← checkDisposed t
  let handle ← .call (exchange t)
  if handle ≠ 0 then
    let txnId ← .call (World.callNative (Native.mdbTxnId handle))
    .modify (.onNative (Native.mdbTxnCommit handle answer.ret answer.wrote))
    -- whether the call succeeded or not, the transaction cannot be re-used
    .modify (releaseManagedResources t true)
    .modify (invokeDisposed t txnId)
    checkRetCode answer.ret
    committed t

/-- `Transaction.Dispose`, which `Transaction.Abort` calls. -/
def dispose (t : TxnRef) (world : World runtime) : World runtime :=
  let (handle, world) := exchange t world
  if handle ≠ 0 then
    let (txnId, world) := world.callNative (Native.mdbTxnId handle)
    let world := world.onNative (Native.mdbTxnAbort handle)
    let world := releaseManagedResources t false world
    invokeDisposed t txnId world
  else world

def abort (t : TxnRef) (world : World runtime) : World runtime := dispose t world

/-- `Transaction.Id` -/
def getId (t : TxnRef) : Call runtime Nat := do
  let handle ← checkDisposed t
  .call (World.callNative (Native.mdbTxnId handle))

/-- `Transaction.Environment`: two native calls that only read. -/
def environment (t : TxnRef) : Call runtime Unit := do
  let handle ← checkDisposed t
  let env ← .call (World.callNative (Native.mdbTxnEnv handle))
  .modify (.onNative (Native.mdbEnvGetUserctx env))

/-- `Transaction.AddCursor` -/
def addCursor (t : TxnRef) (c : CursorRef) (world : World runtime) : World runtime :=
  (world.onCursor c fun cursor => { cursor with disposed := some t }).onTxn t fun transaction =>
    { transaction with cursors := transaction.cursors.insert c }

/-- `Transaction.CursorDisposed` -/
def cursorDisposed (t : TxnRef) (c : CursorRef) : World runtime → World runtime :=
  .onTxn t fun transaction => { transaction with cursors := transaction.cursors.erase c }

end Transaction

namespace ReadOnlyTransaction

/-- `ReadOnlyTransaction.Reset` -/
def reset (t : TxnRef) : Call runtime Unit := do
  let handle ← Transaction.checkDisposed t
  .modify (.onNative (Native.mdbTxnReset handle))

/-- `ReadOnlyTransaction.Renew` -/
def renew (t : TxnRef) (answer : DbRetCode) : Call runtime Unit := do
  let handle ← Transaction.checkDisposed t
  let ret ← .await (World.awaitNative (Native.mdbTxnRenew handle answer))
  checkRetCode ret

end ReadOnlyTransaction

end KdSoftLmdb
