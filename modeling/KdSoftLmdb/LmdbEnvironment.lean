import KdSoftLmdb.DatabaseTransaction

/-!
# LmdbEnvironment

Beginning transactions, the two registry views, and `Dispose`. `activeDbTxn` is
read by `BeginDatabaseTransaction` and by `Dispose` and cleared by
`DatabaseTransactionClosed`; no method stores a transaction in it.
-/

namespace KdSoftLmdb

variable {runtime : Runtime}

namespace LmdbEnvironment

/-- `LmdbEnvironment.IsDisposed` -/
def isDisposed (world : World runtime) : Bool := world.environment.env == 0

/-- `LmdbEnvironment.CheckDisposed` -/
def checkDisposed : Call runtime IntPtr := do
  let world ← .get
  if world.environment.env = 0 then .throw (.objectDisposed "LmdbEnvironment")
  else pure world.environment.env

/-- LMDB's answers to a begin: the code of `mdb_txn_begin`, and the code of
`mdb_env_get_flags` where the method asks for the options. -/
structure BeginAnswer where
  ret : DbRetCode
  getFlags : DbRetCode

/-- `parent?.Handle ?? IntPtr.Zero` -/
def parentHandle (world : World runtime) (parent : Option TxnRef) : IntPtr :=
  match parent with
  | some p => world.handle p
  | none => 0

/-- `LmdbEnvironment.BeginTransactionInternal` -/
def beginTransactionInternal (modes : TransactionModes) (parent : Option TxnRef)
    (answer : DbRetCode) : Call runtime (IntPtr × Nat) := do
  let world ← .get
  let parentTxn := parentHandle world parent
  let handle ← checkDisposed
  let (ret, txn) ← .await (World.awaitNative (Native.mdbTxnBegin handle parentTxn modes answer))
  checkRetCode ret
  let txnId ← .call (World.callNative (Native.mdbTxnId txn))
  pure (txn, txnId)

/-- `LmdbEnvironment.GetOptions` -/
def getOptions (answer : DbRetCode) : Call runtime LmdbEnvironmentOptions := do
  let handle ← checkDisposed
  let (ret, options) ← .call (World.callNative (Native.mdbEnvGetFlags handle answer))
  checkRetCode ret
  pure options

/-- Construct a transaction object over a native transaction; it gets the next reference. -/
def construct (kind : TransactionKind) (txn : IntPtr) (parent : Option TxnRef)
    (world : World runtime) : TxnRef × World runtime :=
  (world.txns.next, { world with txns := world.txns.alloc ⟨kind, txn, parent, [], [], txn⟩ })

/-- `transactions.TryAdd(txnId, result)` -/
def tryAdd (txnId : Nat) (result : TxnRef) (world : World runtime) : Bool × World runtime :=
  let (added, transactions) := world.environment.transactions.tryAdd txnId result
  (added, world.onEnvironment fun environment => { environment with transactions := transactions })

/-- `LmdbEnvironment.BeginTransaction` -/
def beginTransaction (modes : TransactionModes) (parent : Option TxnRef) (answer : BeginAnswer) :
    Call runtime TxnRef := do
  let (txn, txnId) ← beginTransactionInternal modes parent answer.ret
  let kind := if modes.isReadOnly then TransactionKind.readOnlyTransaction else .transaction
  let checkConcurrent ←
    if modes.isReadOnly then do
      let opts ← getOptions answer.getFlags
      pure (!opts.hasFlag .noThreadLocalStorage)
    else pure true
  let world ← .get
  let added ← .call (tryAdd txnId world.txns.next)
  -- no smart boolean evaluation!
  if !added && checkConcurrent then do
    -- the object constructed over `txn` is dropped before anyone saw it
    .modify (.onNative (Native.mdbTxnAbort txn))
    .throw (.lmdbText s!"Transaction with same Id {txnId} exists already.")
  else .call (construct kind txn parent)

/-- `LmdbEnvironment.BeginReadOnlyTransaction` -/
def beginReadOnlyTransaction (modes : TransactionModes) (parent : Option TxnRef)
    (answer : BeginAnswer) : Call runtime TxnRef :=
  beginTransaction (modes ||| .readOnly) parent answer

/-- `LmdbEnvironment.BeginDatabaseTransaction` -/
def beginDatabaseTransaction (modes : TransactionModes) (parent : Option TxnRef)
    (answer : DbRetCode) : Call runtime TxnRef := do
  if modes.isReadOnly then .throw (.lmdbText "An OpenDbTransaction must not be read-only")
  else do
    let world ← .get
    if world.environment.activeDbTxn.isSome then
      .throw (.lmdbText "Only one OpenDbTransaction can be active at a time.")
    else do
      let (txn, _) ← beginTransactionInternal modes parent answer
      .call (construct .databaseTransaction txn parent)

/-- One round of the loop in `Dispose`: the enumerator of the concurrent
dictionary passes over an entry that was removed before it got there. -/
def disposeEntry (world : World runtime) (t : TxnRef) : World runtime :=
  if t ∈ world.environment.transactions.values then Transaction.dispose t world else world

/-- The block of `Dispose` that runs while the environment handle was still set:
the registered transactions are disposed in the enumeration order `order`, then
the active database transaction, then the database handles are cleared. -/
def disposeManaged (order : List TxnRef) (world : World runtime) : World runtime :=
  let world := order.foldl disposeEntry world
  let world := match world.environment.activeDbTxn with
    | some t => Transaction.dispose t world
    | none => world
  { world with dbs := world.dbs.modifyAll world.environment.databases.values Database.clearHandle }

/-- `LmdbEnvironment.Dispose(bool disposing)`: `disposing` is `false` in the finalizer. -/
def disposeWith (disposing : Bool) (order : List TxnRef) (world : World runtime) :
    World runtime :=
  let handle := world.environment.env
  let world := world.onEnvironment fun environment => { environment with env := 0 }
  let world :=
    if handle ≠ 0 then
      let world := if disposing then disposeManaged order world else world
      world.onNative (Native.mdbEnvClose handle)
    else world
  -- `instanceHandle` is a read-only field: `Free` works on a copy and leaves it allocated
  let world := if world.environment.instanceHandle then
      world.onEnvironment fun environment =>
        { environment with instanceHandleFrees := environment.instanceHandleFrees + 1 }
    else world
  world.onEnvironment fun environment =>
    { environment with transactions := .empty, activeDbTxn := none, databases := .empty }

/-- `LmdbEnvironment.Dispose`, which `LmdbEnvironment.Close` calls. -/
def dispose (order : List TxnRef) : World runtime → World runtime := disposeWith true order

def close (order : List TxnRef) : World runtime → World runtime := dispose order

/-- The finalizer of `LmdbEnvironment`. -/
def finalize : World runtime → World runtime := disposeWith false []

end LmdbEnvironment

end KdSoftLmdb
