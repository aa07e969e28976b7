import KdSoftLmdb.Database

/-!
# Opening databases

`OpenDatabaseInternal` and the three public methods over it. The multi-value and
the fixed multi-value method differ from each other only in the option bits they
force and in the class of the result.
-/

namespace KdSoftLmdb

variable {runtime : Runtime}

/-- `CompareHolder`: the comparison function for unmanaged callers, and the
wrapped managed one. -/
structure CompareHolder where
  unsafeCompare : Option Comparer
  libCompare : Option Comparer

/-- The function that is registered: the unmanaged one if there is one. -/
def CompareHolder.registered (holder : CompareHolder) : Option Comparer :=
  holder.unsafeCompare.or holder.libCompare

/-- `DatabaseConfiguration`, and below it its multi-value subclass and the subclass of that for
values of one size. -/
structure DatabaseConfiguration where
  options : BitVec 32
  compareHolder : CompareHolder

structure MultiValueDatabaseConfiguration extends DatabaseConfiguration where
  dupOptions : BitVec 32
  dupCompareHolder : CompareHolder

structure FixedMultiValueDatabaseConfiguration extends MultiValueDatabaseConfiguration where
  fixedDataSize : Int32

namespace DbLibConstants

def mdbDupsort : BitVec 32 := 0x04
def mdbDupfixed : BitVec 32 := 0x10

end DbLibConstants

namespace DatabaseTransaction

/-- LMDB's answers to the native calls of one open: the code of `mdb_dbi_open`
and the slot it uses for a new handle, and the codes of `mdb_set_compare` and
`mdb_set_dupsort`. -/
structure OpenAnswer where
  ret : DbRetCode
  slot : Nat
  compare : DbRetCode
  dupsort : DbRetCode

/-- Register a comparison function if there is one; close the handle when that fails. -/
def register (set : Comparer → IntPtr → Nat → DbRetCode → Native → DbRetCode × Native)
    (holder : CompareHolder) (handle : IntPtr) (dbi : Nat) (env : IntPtr) (answer : DbRetCode) :
    Call runtime Unit := do
  let ret ← match holder.registered with
    | some comparer => .call (World.callNative (set comparer handle dbi answer))
    | none => pure .success
  if ret ≠ .success then
    .modify (.onNative (Native.mdbDbiClose env dbi))
  checkRetCode ret

/-- `DatabaseTransaction.OpenDatabaseInternal` -/
def openDatabaseInternal (t : TxnRef) (name : Option String) (options : BitVec 32)
    (compareHolder : CompareHolder) (answer : OpenAnswer) :
    Call runtime (Nat × IntPtr × IntPtr × String) := do
  let world ← .get
  match name with
  | none => .throw (.argumentNull "key")
  | some name =>
      -- we won't allow database name conflicts, even before the new database is committed
      if world.environment.databases.containsKey name then
        .throw (.lmdbText s!"Database '{name}' exists already.")
      else do
        let handle ← Transaction.checkDisposed t
        let (ret, dbi) ← .await (World.awaitNative
          (Native.mdbDbiOpen handle (runtime.marshal name) options answer.ret answer.slot))
        checkRetCode ret
        let env ← .call (World.callNative (Native.mdbTxnEnv handle))
        register Native.mdbSetCompare compareHolder handle dbi env answer.compare
        pure (dbi, handle, env, name)

/-- `new Database(dbi, env, name, NewDatabaseDisposed, config)`, `newDatabases.Add(result)` -/
def addNew (t : TxnRef) (kind : DatabaseKind) (dbi : Nat) (env : IntPtr) (name : String) :
    Call runtime DbRef := do
  let world ← .get
  let d := world.dbs.next
  .modify fun world => { world with
    dbs := world.dbs.alloc ⟨kind, dbi, env, name, .newDatabaseDisposed t, t⟩ }
  .modify (.onTxn t fun transaction =>
    { transaction with newDatabases := transaction.newDatabases ++ [d] })
  pure d

/-- `DatabaseTransaction.OpenDatabase` -/
def openDatabase (t : TxnRef) (name : Option String) (config : Option DatabaseConfiguration)
    (answer : OpenAnswer) : Call runtime DbRef := do
  match config with
  | none => .throw (.argumentNull "config")
  | some config =>
      let (dbi, _, env, name) ←
        openDatabaseInternal t name config.options config.compareHolder answer
      addNew t .database dbi env name

/-- The common body of the two multi-value methods. -/
def openDuplicates (kind : DatabaseKind) (forced : BitVec 32) (t : TxnRef) (name : Option String)
    (config : Option MultiValueDatabaseConfiguration) (answer : OpenAnswer) :
    Call runtime DbRef := do
  match config with
  | none => .throw .nullReference
  | some config =>
      let options := config.options ||| config.dupOptions ||| forced
      let (dbi, handle, env, name) ←
        openDatabaseInternal t name options config.compareHolder answer
      register Native.mdbSetDupsort config.dupCompareHolder handle dbi env answer.dupsort
      addNew t kind dbi env name

/-- `DatabaseTransaction.OpenMultiValueDatabase` -/
def openMultiValueDatabase : TxnRef → Option String → Option MultiValueDatabaseConfiguration →
    OpenAnswer → Call runtime DbRef :=
  openDuplicates .multiValueDatabase DbLibConstants.mdbDupsort

/-- `DatabaseTransaction.OpenFixedMultiValueDatabase` -/
def openFixedMultiValueDatabase (t : TxnRef) (name : Option String)
    (config : Option FixedMultiValueDatabaseConfiguration) : OpenAnswer → Call runtime DbRef :=
  openDuplicates (.fixedMultiValueDatabase ((config.map (·.fixedDataSize)).getD 0))
    (DbLibConstants.mdbDupsort ||| DbLibConstants.mdbDupfixed) t name
    (config.map (·.toMultiValueDatabaseConfiguration))

end DatabaseTransaction

end KdSoftLmdb
