import KdSoftLmdb.Effects.Ending
import KdSoftLmdb.Library.Threads

/-!
# Calls as sequences of steps

The begin, end and open methods cut where another thread can come in between: at
the native calls, at the reads and writes of shared fields, and at the blocks
under `dbTxnLock` and `dbLock`. A `Frame` holds what a thread has read so far.

Every step is built from the same bodies as the sequential methods, and
`alone_eq_execute` says that a call whose steps run without another thread in
between is the sequential call. A call with a null configuration throws before
it reads anything and is left out.
-/

namespace KdSoftLmdb

variable {runtime : Runtime}

open LmdbEnvironment (BeginAnswer parentHandle)
open Transaction (CommitAnswer)
open DatabaseTransaction (OpenAnswer)

/-- The arguments of one of the three open methods. `OpenDatabase` has no
comparison function for duplicates. -/
structure OpenCall where
  t : TxnRef
  name : Option String
  kind : DatabaseKind
  options : BitVec 32
  compareHolder : CompareHolder
  dupCompareHolder : Option CompareHolder
  answer : OpenAnswer

/-- The point that a thread has reached in a call, with the values read so far. -/
inductive Frame where
  -- BeginTransaction
  | begin (modes : TransactionModes) (parent : Option TxnRef) (answer : BeginAnswer)
  | mdbTxnBegin (parentTxn : IntPtr) (modes : TransactionModes) (parent : Option TxnRef)
      (answer : BeginAnswer)
  | mdbTxnId (txn : IntPtr) (modes : TransactionModes) (parent : Option TxnRef)
      (answer : BeginAnswer)
  | options (txn : IntPtr) (txnId : Nat) (parent : Option TxnRef) (answer : DbRetCode)
  | tryAdd (txn : IntPtr) (txnId : Nat) (kind : TransactionKind) (parent : Option TxnRef)
      (checkConcurrent : Bool)
  | refused (txn : IntPtr) (txnId : Nat)
  -- BeginDatabaseTransaction
  | beginDatabase (modes : TransactionModes) (parent : Option TxnRef) (answer : DbRetCode)
  | databaseTxnBegin (parentTxn : IntPtr) (modes : TransactionModes) (parent : Option TxnRef)
      (answer : DbRetCode)
  | databaseTxnId (txn : IntPtr) (parent : Option TxnRef)
  -- Commit and Dispose
  | commit (t : TxnRef) (answer : CommitAnswer)
  | exchange (t : TxnRef) (ending : Ending)
  | endId (t : TxnRef) (handle : IntPtr) (ending : Ending)
  | nativeEnd (t : TxnRef) (handle : IntPtr) (txnId : Nat) (ending : Ending)
  | release (t : TxnRef) (txnId : Nat) (ending : Ending)
  | callback (t : TxnRef) (txnId : Nat) (ending : Ending)
  | committed (t : TxnRef)
  -- OpenDatabase, OpenMultiValueDatabase, OpenFixedMultiValueDatabase
  | nameCheck (call : OpenCall)
  | openHandle (call : OpenCall) (name : String)
  | mdbDbiOpen (call : OpenCall) (name : String) (handle : IntPtr)
  | mdbTxnEnv (call : OpenCall) (name : String) (handle : IntPtr) (dbi : Nat)
  | mdbSetCompare (call : OpenCall) (name : String) (handle : IntPtr) (dbi : Nat) (env : IntPtr)
  | mdbSetDupsort (call : OpenCall) (name : String) (handle : IntPtr) (dbi : Nat) (env : IntPtr)
  | mdbDbiClose (call : OpenCall) (dbi : Nat) (env : IntPtr) (ret : DbRetCode)
  | addNew (call : OpenCall) (name : String) (dbi : Nat) (env : IntPtr)

/-- The frame after the comparison function for keys was set. -/
def OpenCall.afterCompare (call : OpenCall) (name : String) (handle : IntPtr) (dbi : Nat)
    (env : IntPtr) : Frame :=
  match call.dupCompareHolder with
  | some _ => .mdbSetDupsort call name handle dbi env
  | none => .addNew call name dbi env

/-- Set a comparison function if there is one, and give its return code. -/
def setComparer (set : Comparer → IntPtr → Nat → DbRetCode → Native → DbRetCode × Native)
    (holder : Option CompareHolder) (handle : IntPtr) (dbi : Nat) (answer : DbRetCode) :
    Call runtime DbRetCode :=
  match holder.bind CompareHolder.registered with
  | some comparer => .call (World.callNative (set comparer handle dbi answer))
  | none => pure .success

namespace Frame

/-- The next step of a frame: the frame after it, or the result of the call. -/
def body : Frame → Call runtime (Progress Frame Returned)
  | begin modes parent answer => do
      let world ← .get
      pure (.more (mdbTxnBegin (parentHandle world parent) modes parent answer))
  | mdbTxnBegin parentTxn modes parent answer => do
      let handle ← LmdbEnvironment.checkDisposed
      let (ret, txn) ← .await
        (World.awaitNative (Native.mdbTxnBegin handle parentTxn modes answer.ret))
      checkRetCode ret
      pure (.more (mdbTxnId txn modes parent answer))
  | mdbTxnId txn modes parent answer => do
      let txnId ← .call (World.callNative (Native.mdbTxnId txn))
      if modes.isReadOnly then pure (.more (options txn txnId parent answer.getFlags))
      else pure (.more (tryAdd txn txnId .transaction parent true))
  | options txn txnId parent answer => do
      let opts ← LmdbEnvironment.getOptions answer
      pure (.more
        (tryAdd txn txnId .readOnlyTransaction parent (!opts.hasFlag .noThreadLocalStorage)))
  | tryAdd txn txnId kind parent checkConcurrent => do
      let world ← .get
      let added ← .call (LmdbEnvironment.tryAdd txnId world.txns.next)
      if !added && checkConcurrent then pure (.more (refused txn txnId))
      else do
        let result ← .call (LmdbEnvironment.construct kind txn parent)
        pure (.finish (.transaction result))
  | refused txn txnId => do
      .modify (.onNative (Native.mdbTxnAbort txn))
      .throw (.lmdbText s!"Transaction with same Id {txnId} exists already.")
  | beginDatabase modes parent answer => do
      if modes.isReadOnly then .throw (.lmdbText "An OpenDbTransaction must not be read-only")
      else do
        let world ← .get
        if world.environment.activeDbTxn.isSome then
          .throw (.lmdbText "Only one OpenDbTransaction can be active at a time.")
        else pure (.more (databaseTxnBegin (parentHandle world parent) modes parent answer))
  | databaseTxnBegin parentTxn modes parent answer => do
      let handle ← LmdbEnvironment.checkDisposed
      let (ret, txn) ← .await
        (World.awaitNative (Native.mdbTxnBegin handle parentTxn modes answer))
      checkRetCode ret
      pure (.more (databaseTxnId txn parent))
  | databaseTxnId txn parent => do
      let _txnId ← .call (World.callNative (Native.mdbTxnId txn))
      let result ← .call (LmdbEnvironment.construct .databaseTransaction txn parent)
      pure (.finish (.transaction result))
  | commit t answer => do
      let _currentHandle ← Transaction.checkDisposed t
      pure (.more (exchange t (.commit answer)))
  | exchange t ending => do
      let handle ← .call (Transaction.exchange t)
      if handle ≠ 0 then pure (.more (endId t handle ending)) else pure (.finish .nothing)
  | endId t handle ending => do
      let txnId ← .call (World.callNative (Native.mdbTxnId handle))
      pure (.more (nativeEnd t handle txnId ending))
  | nativeEnd t handle txnId ending => do
      .modify (.onNative (ending.native handle))
      pure (.more (release t txnId ending))
  | release t txnId ending => do
      .modify (Transaction.releaseManagedResources t ending.forCommit)
      pure (.more (callback t txnId ending))
  | callback t txnId ending => do
      .modify (Transaction.invokeDisposed t txnId)
      match ending with
      | .abort => pure (.finish .nothing)
      | .commit answer => do
          checkRetCode answer.ret
          pure (.more (committed t))
  | committed t => do
      Transaction.committed t
      pure (.finish .nothing)
  | nameCheck call => do
      let world ← .get
      match call.name with
      | none => .throw (.argumentNull "key")
      | some name =>
          if world.environment.databases.containsKey name then
            .throw (.lmdbText s!"Database '{name}' exists already.")
          else pure (.more (openHandle call name))
  | openHandle call name => do
      let handle ← Transaction.checkDisposed call.t
      pure (.more (mdbDbiOpen call name handle))
  | mdbDbiOpen call name handle => do
      let (ret, dbi) ← .await (World.awaitNative (Native.mdbDbiOpen handle (runtime.marshal name)
        call.options call.answer.ret call.answer.slot))
      checkRetCode ret
      pure (.more (mdbTxnEnv call name handle dbi))
  | mdbTxnEnv call name handle dbi => do
      let env ← .call (World.callNative (Native.mdbTxnEnv handle))
      pure (.more (mdbSetCompare call name handle dbi env))
  | mdbSetCompare call name handle dbi env => do
      let ret ← setComparer Native.mdbSetCompare call.compareHolder handle dbi call.answer.compare
      if ret ≠ .success then pure (.more (mdbDbiClose call dbi env ret))
      else pure (.more (call.afterCompare name handle dbi env))
  | mdbSetDupsort call name handle dbi env => do
      let ret ← setComparer Native.mdbSetDupsort call.dupCompareHolder handle dbi
        call.answer.dupsort
      if ret ≠ .success then pure (.more (mdbDbiClose call dbi env ret))
      else pure (.more (addNew call name dbi env))
  | mdbDbiClose _ dbi env ret => do
      .modify (.onNative (Native.mdbDbiClose env dbi))
      checkRetCode ret
      pure (.finish .nothing)
  | addNew call name dbi env => do
      let result ← DatabaseTransaction.addNew call.t call.kind dbi env name
      pure (.finish (.database result))

/-- An exception ends the call like a result does. -/
def settle : Except Exception (Progress Frame Returned) →
    Progress Frame (Except Exception Returned)
  | .ok (.more frame) => .more frame
  | .ok (.finish value) => .finish (.ok value)
  | .error exception => .finish (.error exception)

/-- One step of a frame. -/
def advance (frame : Frame) (world : World runtime) :
    Option (Progress Frame (Except Exception Returned) × World runtime) :=
  (frame.body world).map fun outcome => (settle outcome.1, outcome.2)

/-- The two locks that the methods take. -/
inductive Lock where
  | dbTxnLock
  | dbLock (t : TxnRef)
deriving DecidableEq

/-- The lock that the next step takes. `DatabaseTransactionClosed` is the only
callback that takes one. -/
def needs (world : World runtime) : Frame → Option Lock
  | beginDatabase modes _ _ => if modes.isReadOnly then none else some .dbTxnLock
  | callback t _ _ =>
      if (world.txns.obj t).kind = .databaseTransaction then some .dbTxnLock else none
  | release t _ ending => if ending.forCommit then none else some (.dbLock t)
  | committed t => some (.dbLock t)
  | nameCheck call => some (.dbLock call.t)
  | _ => none

/-- The lock that is held between the previous step and the next one. -/
def holds : Frame → Option Lock
  | databaseTxnBegin .. | databaseTxnId .. => some .dbTxnLock
  | openHandle call .. | mdbDbiOpen call .. | mdbTxnEnv call .. | mdbSetCompare call ..
  | mdbSetDupsort call .. | mdbDbiClose call .. | addNew call .. => some (.dbLock call.t)
  | _ => none

end Frame

/-- The first frame of a call that is modelled step by step. -/
def Op.frame? : Op → Option Frame
  | .beginTransaction modes parent answer => some (.begin modes parent answer)
  | .beginReadOnlyTransaction modes parent answer =>
      some (.begin (modes ||| .readOnly) parent answer)
  | .beginDatabaseTransaction modes parent answer => some (.beginDatabase modes parent answer)
  | .commit t answer => some (.commit t answer)
  | .disposeTransaction t => some (.exchange t .abort)
  | .openDatabase t name config answer => config.map fun config =>
      .nameCheck ⟨t, name, .database, config.options, config.compareHolder, none, answer⟩
  | .openMultiValueDatabase t name config answer => config.map fun config =>
      .nameCheck ⟨t, name, .multiValueDatabase,
        config.options ||| config.dupOptions ||| DbLibConstants.mdbDupsort, config.compareHolder,
        some config.dupCompareHolder, answer⟩
  | .openFixedMultiValueDatabase t name config answer => config.map fun config =>
      .nameCheck ⟨t, name, .fixedMultiValueDatabase config.fixedDataSize,
        config.options ||| config.dupOptions |||
          (DbLibConstants.mdbDupsort ||| DbLibConstants.mdbDupfixed), config.compareHolder,
        some config.dupCompareHolder, answer⟩
  | _ => none

/-- The wrapper as a machine for any number of threads. -/
def machine (runtime : Runtime) :
    Machine (World runtime) Frame Op (Except Exception Returned) Frame.Lock where
  enter world op := if op.typed world then op.frame? else none
  advance := Frame.advance
  needs := Frame.needs
  holds := Frame.holds

/-- A pool of threads that call the wrapper. -/
abbrev Threads (τ : Type) (runtime : Runtime) := Pool τ (World runtime) Frame

end KdSoftLmdb
