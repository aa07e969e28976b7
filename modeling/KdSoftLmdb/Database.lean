import KdSoftLmdb.Transaction

/-!
# Database, MultiValueDatabase, FixedMultiValueDatabase and Cursor

The members that only hand a database to a native function share one shape: the
database handle is checked, the transaction's handle is passed as it is, and one
return code may stand for `false`. Keys, data and results of those calls are not
part of this model; it is about handles.
-/

namespace KdSoftLmdb

variable {runtime : Runtime}

namespace Database

/-- `Database.IsDisposed` -/
def isDisposed (world : World runtime) (d : DbRef) : Bool := world.dbi d == 0

/-- `Database.CheckDisposed` -/
def checkDisposed (d : DbRef) : Call runtime Nat := do
  let world ← .get
  let database := world.dbs.obj d
  if database.dbi = 0 then
    .throw (.objectDisposed s!"{database.kind.typeName} '{database.name}'")
  else pure database.dbi

/-- `disposed?.Invoke(this)` -/
def invokeDisposed (d : DbRef) (world : World runtime) : World runtime :=
  match (world.dbs.obj d).disposed with
  | .newDatabaseDisposed t => DatabaseTransaction.newDatabaseDisposed t d world
  | .databaseDisposed => LmdbEnvironment.databaseDisposed d world

/-- `Database.SetDisposed` -/
def setDisposed (d : DbRef) (world : World runtime) : World runtime :=
  invokeDisposed d (world.onDb d clearHandle)

/-- `Interlocked.Exchange(ref dbi, 0)` -/
def exchange (d : DbRef) (world : World runtime) : Nat × World runtime :=
  (world.dbi d, world.onDb d clearHandle)

/-- `Database.Dispose`, which `Database.Close` calls. -/
def dispose (d : DbRef) (world : World runtime) : World runtime :=
  let (handle, world) := exchange d world
  if handle ≠ 0 then
    let world := world.onNative (Native.mdbDbiClose (world.dbs.obj d).env handle)
    invokeDisposed d world
  else world

def close (d : DbRef) (world : World runtime) : World runtime := dispose d world

/-- `Database.Drop` -/
def drop (d : DbRef) (t : TxnRef) (answer : DbRetCode) : Call runtime Unit := do
  let handle ← checkDisposed d
  let world ← .get
  let ret ← .await (World.awaitNative (Native.mdbDrop (world.handle t) handle true answer))
  checkRetCode ret
  .modify (setDisposed d)

/-- `Database.Truncate` -/
def truncate (d : DbRef) (t : TxnRef) (answer : DbRetCode) : Call runtime Unit := do
  let handle ← checkDisposed d
  let world ← .get
  let ret ← .await (World.awaitNative (Native.mdbDrop (world.handle t) handle false answer))
  checkRetCode ret

/-- Check the database, hand both handles to a native function, and translate
its code: `benign` stands for `false`, any other error throws. -/
def access (function : LibFunc) (benign : Option DbRetCode) (d : DbRef) (t : TxnRef)
    (ret : DbRetCode) : Call runtime Bool := do
  let handle ← checkDisposed d
  let world ← .get
  .modify (.onNative fun native =>
    native.record function [.txn (world.handle t), .dbi handle])
  if benign = some ret then pure false
  else do
    checkRetCode ret
    pure true

def getStats (d : DbRef) (t : TxnRef) : DbRetCode → Call runtime Bool := access .mdbStat none d t

def getAllOptions (d : DbRef) (t : TxnRef) : DbRetCode → Call runtime Bool :=
  access .mdbDbiFlags none d t

def getOptions (d : DbRef) (t : TxnRef) : DbRetCode → Call runtime Bool :=
  access .mdbDbiFlags none d t

def getMultiValueOptions (d : DbRef) (t : TxnRef) : DbRetCode → Call runtime Bool :=
  access .mdbDbiFlags none d t

def get (d : DbRef) (t : TxnRef) : DbRetCode → Call runtime Bool :=
  access .mdbGet (some .notFound) d t

def put (d : DbRef) (t : TxnRef) : DbRetCode → Call runtime Bool :=
  access .mdbPut (some .keyExist) d t

def delete (d : DbRef) (t : TxnRef) : DbRetCode → Call runtime Bool :=
  access .mdbDel (some .notFound) d t

/-- `Database.Compare`: the result of `mdb_cmp` is not a return code. -/
def compare (d : DbRef) (t : TxnRef) : Call runtime Bool := access .mdbCmp none d t .success

/-- `MultiValueDatabase.DupCompare` -/
def dupCompare (d : DbRef) (t : TxnRef) : Call runtime Bool := access .mdbDcmp none d t .success

/-- `Database.Environment` does not check the database handle. -/
def environment (d : DbRef) (world : World runtime) : World runtime :=
  world.onNative (Native.mdbEnvGetUserctx (world.dbs.obj d).env)

/-- `Database.OpenCursorHandle` -/
def openCursorHandle (d : DbRef) (t : TxnRef) (answer : DbRetCode) : Call runtime IntPtr := do
  let handle ← checkDisposed d
  let world ← .get
  let (ret, cur) ← .await
    (World.awaitNative (Native.mdbCursorOpen (world.handle t) handle answer))
  checkRetCode ret
  pure cur

/-- `OpenCursor`, `OpenMultiValueCursor` and `OpenFixedMultiValueCursor`: the
class of the database decides the class of the cursor. -/
def openCursor (d : DbRef) (t : TxnRef) (answer : DbRetCode) : Call runtime CursorRef := do
  let cur ← openCursorHandle d t answer
  let world ← .get
  let c := world.cursors.next
  .modify fun world => { world with
    cursors := world.cursors.alloc
      ⟨(world.dbs.obj d).kind, cur, (world.txns.obj t).kind = .readOnlyTransaction, none⟩ }
  .modify (Transaction.addCursor t c)
  pure c

end Database

namespace Cursor

/-- `Cursor.IsDisposed` -/
def isDisposed (world : World runtime) (c : CursorRef) : Bool := world.cur c == 0

/-- `Cursor.CheckDisposed` -/
def checkDisposed (c : CursorRef) : Call runtime IntPtr := do
  let world ← .get
  if world.cur c = 0 then .throw (.objectDisposed (world.cursors.obj c).kind.cursorTypeName)
  else pure (world.cur c)

/-- `disposed?.Invoke(this)` -/
def invokeDisposed (c : CursorRef) (world : World runtime) : World runtime :=
  match (world.cursors.obj c).disposed with
  | some t => Transaction.cursorDisposed t c world
  | none => world

/-- `Interlocked.Exchange(ref cur, IntPtr.Zero)` -/
def exchange (c : CursorRef) (world : World runtime) : IntPtr × World runtime :=
  (world.cur c, world.onCursor c clearHandle)

/-- `Cursor.Dispose`, which `Cursor.Close` calls. -/
def dispose (c : CursorRef) (world : World runtime) : World runtime :=
  let (handle, world) := exchange c world
  if handle ≠ 0 then
    let world := world.onNative (Native.mdbCursorClose handle)
    invokeDisposed c world
  else world

def close (c : CursorRef) (world : World runtime) : World runtime := dispose c world

/-- `Cursor.Renew` -/
def renew (c : CursorRef) (t : TxnRef) (answer : DbRetCode) : Call runtime Unit := do
  let world ← .get
  if !(world.cursors.obj c).isReadOnly then
    .throw (.invalidOperation "Only read-only cursors can be renewed.")
  else do
    let handle ← checkDisposed c
    let ret ← .await (World.awaitNative (Native.mdbCursorRenew (world.handle t) handle answer))
    checkRetCode ret

/-- Check the cursor and hand it to a native function. -/
def access (function : LibFunc) (benign : Option DbRetCode) (c : CursorRef) (ret : DbRetCode) :
    Call runtime Bool := do
  let handle ← checkDisposed c
  .modify (.onNative fun native => native.record function [.cursor handle])
  if benign = some ret then pure false
  else do
    checkRetCode ret
    pure true

/-- `Cursor.Get`, `GetKey`, `GetData` and `MoveToKey` with any cursor operation. -/
def get (c : CursorRef) : DbRetCode → Call runtime Bool := access .mdbCursorGet (some .notFound) c

/-- `Cursor.PutInternal` -/
def put (c : CursorRef) : DbRetCode → Call runtime Bool := access .mdbCursorPut (some .keyExist) c

def delete (c : CursorRef) : DbRetCode → Call runtime Bool := access .mdbCursorDel none c

/-- `MultiValueCursor.Count` -/
def count (c : CursorRef) : DbRetCode → Call runtime Bool := access .mdbCursorCount none c

def txnHandle (c : CursorRef) : Call runtime Bool := access .mdbCursorTxn none c .success

def dbiHandle (c : CursorRef) : Call runtime Bool := access .mdbCursorDbi none c .success

end Cursor

end KdSoftLmdb
