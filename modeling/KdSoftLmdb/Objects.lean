import KdSoftLmdb.Interop.Native
import KdSoftLmdb.Library.Dictionary
import KdSoftLmdb.Library.Method

/-!
# The wrapper's objects

One environment object with its registries, the transaction, database and cursor
objects that were created on it, and the native library below them. Objects are
known by references that are never reused; a handle field of `0` is what
`IsDisposed` tests.

Two fields exist for specifications only and no method reads them: `begun` keeps
the native handle a transaction object was constructed with, and `openedIn` the
database transaction a database object was opened in.
-/

namespace KdSoftLmdb

/-- References to transaction, database and cursor objects. -/
abbrev TxnRef := Nat
abbrev DbRef := Nat
abbrev CursorRef := Nat

/-- The class of a transaction object. -/
inductive TransactionKind where
  | transaction
  | readOnlyTransaction
  | databaseTransaction
deriving DecidableEq

/-- The class of a database object; one of fixed-size values has the `FixedDataSize` of its
configuration. -/
inductive DatabaseKind where
  | database
  | multiValueDatabase
  | fixedMultiValueDatabase (fixedDataSize : Int32)
deriving DecidableEq

/-- `this.GetType().Name` of a transaction. -/
def TransactionKind.typeName : TransactionKind → String
  | .transaction => "Transaction"
  | .readOnlyTransaction => "ReadOnlyTransaction"
  | .databaseTransaction => "DatabaseTransaction"

/-- `GetType().Name` of a database. -/
def DatabaseKind.typeName : DatabaseKind → String
  | .database => "Database"
  | .multiValueDatabase => "MultiValueDatabase"
  | .fixedMultiValueDatabase _ => "FixedMultiValueDatabase"

/-- `this.GetType().Name` of the cursor that a database opens. -/
def DatabaseKind.cursorTypeName : DatabaseKind → String
  | .database => "Cursor"
  | .multiValueDatabase => "MultiValueCursor"
  | .fixedMultiValueDatabase _ => "FixedMultiValueCursor"

/-- A `Transaction`, or an object of one of its two subclasses. `newDatabases`
is a field of `DatabaseTransaction` and stays empty in the others. -/
structure Transaction where
  kind : TransactionKind
  txn : IntPtr
  parent : Option TxnRef
  cursors : List CursorRef
  newDatabases : List DbRef
  begun : IntPtr

instance : Inhabited Transaction := ⟨⟨.transaction, 0, none, [], [], 0⟩⟩

/-- Where the `Disposed` callback of a database points: to the transaction that
still lists it as new, or to the environment. -/
inductive DatabaseCallback where
  | newDatabaseDisposed (transaction : TxnRef)
  | databaseDisposed
deriving DecidableEq

/-- A `Database` or an object of one of its subclasses. -/
structure Database where
  kind : DatabaseKind
  dbi : Nat
  env : IntPtr
  name : String
  disposed : DatabaseCallback
  openedIn : TxnRef

instance : Inhabited Database := ⟨⟨.database, 0, 0, "", .databaseDisposed, 0⟩⟩

/-- A `Cursor` or an object of one of its subclasses; `disposed` names the
transaction whose `CursorDisposed` it calls. -/
structure Cursor where
  kind : DatabaseKind
  cur : IntPtr
  isReadOnly : Bool
  disposed : Option TxnRef

instance : Inhabited Cursor := ⟨⟨.database, 0, false, none⟩⟩

/-- The fields of an `LmdbEnvironment`. `instanceHandle` is the `IsAllocated`
state that the read-only field keeps, `instanceHandleFrees` counts the calls of
`GCHandle.Free` made through it. -/
structure LmdbEnvironment (runtime : Runtime) where
  env : IntPtr
  activeDbTxn : Option TxnRef
  transactions : Dictionary (id : IntPtr → IntPtr) TxnRef
  databases : Dictionary runtime.ordinalIgnoreCase DbRef
  instanceHandle : Bool
  instanceHandleFrees : Nat

/-- Everything a method call can read or change. -/
structure World (runtime : Runtime) where
  environment : LmdbEnvironment runtime
  txns : Heap Transaction
  dbs : Heap Database
  cursors : Heap Cursor
  native : Native

/-- A method of the wrapper. -/
abbrev Call (runtime : Runtime) (α : Type) := Method (World runtime) Exception α

namespace World

variable {runtime : Runtime}

/-- An environment that was constructed and opened, before anything was begun on it. -/
def opened (runtime : Runtime) (flags : LmdbEnvironmentOptions) (lastTxnId : Nat) :
    World runtime where
  environment := ⟨envHandle, none, .empty, .empty, true, 0⟩
  txns := .empty 0
  dbs := .empty 0
  cursors := .empty 0
  native := .opened flags lastTxnId

/-- The handle field of a transaction, a database and a cursor. -/
def handle (world : World runtime) (t : TxnRef) : IntPtr := (world.txns.obj t).txn
def dbi (world : World runtime) (d : DbRef) : Nat := (world.dbs.obj d).dbi
def cur (world : World runtime) (c : CursorRef) : IntPtr := (world.cursors.obj c).cur

/-- Apply a native function that returns nothing the wrapper uses. -/
def onNative (body : Native → Native) (world : World runtime) : World runtime :=
  { world with native := body world.native }

/-- Apply a native function and keep what it returns. -/
def callNative {α : Type} (body : Native → α × Native) (world : World runtime) :
    α × World runtime :=
  ((body world.native).1, { world with native := (body world.native).2 })

/-- Apply a native function that may not give the supplied answer. -/
def awaitNative {α : Type} (body : Native → Option (α × Native)) (world : World runtime) :
    Option (α × World runtime) :=
  (body world.native).map fun result => (result.1, { world with native := result.2 })

/-- Change the environment object. -/
def onEnvironment (change : LmdbEnvironment runtime → LmdbEnvironment runtime)
    (world : World runtime) : World runtime :=
  { world with environment := change world.environment }

/-- Change one transaction object. -/
def onTxn (t : TxnRef) (change : Transaction → Transaction) (world : World runtime) :
    World runtime :=
  { world with txns := world.txns.modify t change }

/-- Changing one transaction object. -/
theorem onTxn_txns (t : TxnRef) (change : Transaction → Transaction) (world : World runtime) :
    (world.onTxn t change).txns = world.txns.modify t change := rfl

/-- Change one database object. -/
def onDb (d : DbRef) (change : Database → Database) (world : World runtime) : World runtime :=
  { world with dbs := world.dbs.modify d change }

/-- Change one cursor object. -/
def onCursor (c : CursorRef) (change : Cursor → Cursor) (world : World runtime) :
    World runtime :=
  { world with cursors := world.cursors.modify c change }

end World

/-- Throw the exception of a return code that is not `SUCCESS`. -/
def checkRetCode {runtime : Runtime} (ret : DbRetCode) : Call runtime Unit :=
  match ErrorUtil.checkRetCode runtime ret with
  | some exception => .throw exception
  | none => pure ()

@[simp] theorem checkRetCode_success {runtime : Runtime} (world : World runtime) :
    checkRetCode .success world = some (.ok (), world) := rfl

/-- A code that is not a success throws. -/
theorem checkRetCode_failed {runtime : Runtime} {ret : DbRetCode} (failed : ret ≠ .success)
    (world : World runtime) :
    ∃ message, checkRetCode ret world = some (.error (.lmdb ret message), world) := by
  unfold checkRetCode
  cases checked : ErrorUtil.checkRetCode runtime ret with
  | none => exact absurd ((ErrorUtil.checkRetCode_eq_none_iff runtime ret).mp checked) failed
  | some exception =>
      obtain ⟨_, message, rfl⟩ := ErrorUtil.checkRetCode_eq_some checked
      exact ⟨message, rfl⟩

end KdSoftLmdb
