import KdSoftLmdb.Interop.DbRetCode
import KdSoftLmdb.Library.Heap

/-!
# The native library as the wrapper relies on it

LMDB itself is not part of the repository. This module states what the wrapper
relies on: which native objects exist, who owns them and what ends them. Return
codes, the slot that a new database handle gets and whether a commit wrote
anything are answers that the caller of a function supplies; an answer LMDB
cannot give in the current state is rejected (`none`), and so is the success of
a call that would still be waiting for the writer lock.

A transaction or cursor handle is an identity: `mdbTxnBegin` and `mdbCursorOpen`
return a number that was never returned before. A database handle is a slot
number and is reused after the slot was closed. Every call is recorded together
with the handles it was given and with whether LMDB had already freed one of
them.
-/

namespace KdSoftLmdb

/-- A pointer-sized handle; `0` is `IntPtr.Zero`. -/
abbrev IntPtr := Nat

/-- The C# flags enumeration `TransactionModes`. -/
abbrev TransactionModes := BitVec 32

namespace TransactionModes

def none : TransactionModes := 0
def readOnly : TransactionModes := 0x20000

/-- `(modes & TransactionModes.ReadOnly) != 0` -/
def isReadOnly (modes : TransactionModes) : Bool := modes &&& readOnly != 0

/-- Setting the flag makes the mode read-only, whatever the other bits are. -/
@[simp] theorem isReadOnly_or (modes : TransactionModes) : isReadOnly (modes ||| readOnly) = true := by
  have absorbed : (modes ||| readOnly) &&& readOnly = readOnly := by
    ext index
    simp only [BitVec.getElem_and, BitVec.getElem_or]
    cases readOnly[index] <;> simp
  rw [isReadOnly, absorbed]
  decide

end TransactionModes

/-- The C# flags enumeration `LmdbEnvironmentOptions`. -/
abbrev LmdbEnvironmentOptions := BitVec 32

namespace LmdbEnvironmentOptions

def none : LmdbEnvironmentOptions := 0
def noThreadLocalStorage : LmdbEnvironmentOptions := 0x200000

/-- `opts.HasFlag(flag)` -/
def hasFlag (options flag : LmdbEnvironmentOptions) : Bool := options &&& flag == flag

end LmdbEnvironmentOptions

/-- A comparison function, known by its identity. -/
abbrev Comparer := Nat

/-- What became of a native transaction. -/
inductive Fate where
  | live
  | committed
  | aborted
deriving DecidableEq

/-- A native transaction. `chain` lists its native ancestors, the parent first;
`ends` counts how often a commit or an abort reached it. -/
structure NativeTxn where
  fate : Fate
  readOnly : Bool
  id : Nat
  chain : List IntPtr
  reset : Bool
  ends : Nat

instance : Inhabited NativeTxn := ⟨⟨.aborted, false, 0, [], false, 0⟩⟩

/-- An open database slot: `owner` is the transaction the handle is private to,
`0` once it belongs to the shared environment. -/
structure NativeDbi where
  name : List UInt8
  owner : IntPtr
  flags : BitVec 32
  compare : Option Comparer
  dupsort : Option Comparer
deriving DecidableEq

/-- A native cursor. -/
structure NativeCursor where
  txn : IntPtr
  dbi : Nat
  freed : Bool

instance : Inhabited NativeCursor := ⟨⟨0, 0, true⟩⟩

/-- The native functions that the wrapper calls. -/
inductive LibFunc where
  | mdbEnvClose | mdbEnvGetFlags | mdbEnvGetUserctx
  | mdbTxnBegin | mdbTxnEnv | mdbTxnId | mdbTxnCommit | mdbTxnAbort | mdbTxnReset | mdbTxnRenew
  | mdbDbiOpen | mdbStat | mdbDbiFlags | mdbDbiClose | mdbDrop | mdbSetCompare | mdbSetDupsort
  | mdbGet | mdbPut | mdbDel | mdbCmp | mdbDcmp
  | mdbCursorOpen | mdbCursorClose | mdbCursorRenew | mdbCursorTxn | mdbCursorDbi
  | mdbCursorGet | mdbCursorPut | mdbCursorDel | mdbCursorCount
deriving DecidableEq

/-- A handle given to a native function. -/
inductive NativeHandle where
  | env (handle : IntPtr)
  | txn (handle : IntPtr)
  | dbi (handle : Nat)
  | cursor (handle : IntPtr)
deriving DecidableEq

/-- One recorded call; `dangling` says that some transaction or cursor handle it
was given had been freed. -/
structure NativeCall where
  function : LibFunc
  handles : List NativeHandle
  dangling : Bool
deriving DecidableEq

/-- LMDB's side of one environment. `calls` holds the latest call first. -/
structure Native where
  flags : LmdbEnvironmentOptions
  lastTxnId : Nat
  txns : Heap NativeTxn
  dbis : Heap (Option NativeDbi)
  cursors : Heap NativeCursor
  closed : Bool
  calls : List NativeCall

/-- The handle of the native environment. -/
def envHandle : IntPtr := 1

/-- The first database handle after LMDB's two core tables. -/
def coreDbs : Nat := 2

namespace Native

/-- An environment that was just opened over a file whose last snapshot is `lastTxnId`. -/
def opened (flags : LmdbEnvironmentOptions) (lastTxnId : Nat) : Native where
  flags := flags
  lastTxnId := lastTxnId
  txns := .empty 1
  dbis := .empty coreDbs
  cursors := .empty 1
  closed := false
  calls := []

/-- The transaction was begun and neither committed nor aborted. -/
def live (native : Native) (txn : IntPtr) : Bool := (native.txns.obj txn).fate == .live

/-- LMDB has released the memory behind the handle. -/
def freed (native : Native) : NativeHandle → Bool
  | .txn handle => handle != 0 && !native.live handle
  | .cursor handle => handle != 0 && (native.cursors.obj handle).freed
  | .env _ => false
  | .dbi _ => false

/-- Record a call before its effect. -/
def record (native : Native) (function : LibFunc) (handles : List NativeHandle) : Native :=
  { native with calls := ⟨function, handles, handles.any native.freed⟩ :: native.calls }

/-- `txn` is `root` or nested in it at any depth. -/
def within (native : Native) (txn root : IntPtr) : Bool :=
  txn == root || (native.txns.obj txn).chain.contains root

/-- A top-level write transaction is live, so the writer lock is taken. -/
def hasWriter (native : Native) : Bool :=
  (List.range native.txns.next).any fun txn =>
    native.live txn && !(native.txns.obj txn).readOnly && (native.txns.obj txn).chain.isEmpty

/-- A transaction nested directly in `parent` is live. -/
def hasChild (native : Native) (parent : IntPtr) : Bool :=
  (List.range native.txns.next).any fun txn =>
    native.live txn && (native.txns.obj txn).chain.head? == some parent

/-- A write transaction that LMDB lets change data: live and without a live child. -/
def canWrite (native : Native) (txn : IntPtr) : Bool :=
  native.live txn && !(native.txns.obj txn).readOnly && !native.hasChild txn

/-- Whether `mdb_txn_begin` can return successfully now. Readers always can; a
top-level writer needs the writer lock; a nested transaction is a write
transaction under a live write transaction without another live child. -/
def canBegin (native : Native) (parent : IntPtr) (modes : TransactionModes) : Bool :=
  !native.closed &&
    if parent = 0 then modes.isReadOnly || !native.hasWriter
    else native.canWrite parent && !modes.isReadOnly

/-- The id that `mdb_txn_id` will report: a reader has the last snapshot's, a
top-level writer the next one, a nested transaction its parent's. -/
def nextId (native : Native) (parent : IntPtr) (modes : TransactionModes) : Nat :=
  if parent ≠ 0 then (native.txns.obj parent).id
  else if modes.isReadOnly then native.lastTxnId
  else native.lastTxnId + 1

/-- The native transaction that a successful `mdb_txn_begin` creates. -/
def begun (native : Native) (parent : IntPtr) (modes : TransactionModes) : NativeTxn where
  fate := .live
  readOnly := modes.isReadOnly
  id := native.nextId parent modes
  chain := if parent = 0 then [] else parent :: (native.txns.obj parent).chain
  reset := false
  ends := 0

/-- `mdb_txn_begin(env, parent, flags, out txn)` -/
def mdbTxnBegin (env parent : IntPtr) (modes : TransactionModes) (ret : DbRetCode)
    (native : Native) : Option ((DbRetCode × IntPtr) × Native) :=
  let native := native.record .mdbTxnBegin [.env env, .txn parent]
  if ret = .success then
    if native.canBegin parent modes then
      some ((ret, native.txns.next),
        { native with txns := native.txns.alloc (native.begun parent modes) })
    else none
  else some ((ret, 0), native)

/-- `mdb_txn_id(txn)` -/
def mdbTxnId (txn : IntPtr) (native : Native) : Nat × Native :=
  ((native.txns.obj txn).id, native.record .mdbTxnId [.txn txn])

/-- `mdb_txn_env(txn)` -/
def mdbTxnEnv (txn : IntPtr) (native : Native) : IntPtr × Native :=
  (envHandle, native.record .mdbTxnEnv [.txn txn])

/-- What the end of transaction `root` does to transaction `txn`: the ended
transaction itself is reached even when it is already gone, its descendants
only while they are live. -/
def endOf (native : Native) (root : IntPtr) (fate : Fate) (txn : IntPtr) (old : NativeTxn) :
    NativeTxn :=
  if txn = root then
    { old with fate := if old.fate = .live then fate else old.fate, ends := old.ends + 1 }
  else if old.fate = .live ∧ native.within txn root then
    { old with fate := fate, ends := old.ends + 1 }
  else old

/-- Cursors of a write transaction go with it, cursors of a reader stay. -/
def freeCursors (native : Native) (root : IntPtr) : Heap NativeCursor :=
  native.cursors.map fun _ cursor =>
    if native.within cursor.txn root && !(native.txns.obj cursor.txn).readOnly then
      { cursor with freed := true }
    else cursor

/-- A commit hands private database handles to the parent, or to the shared
environment when there is none; an abort closes them. -/
def settleDbis (native : Native) (root : IntPtr) (fate : Fate) : Heap (Option NativeDbi) :=
  native.dbis.map fun _ slot =>
    match slot with
    | none => none
    | some dbi =>
        if native.within dbi.owner root then
          if fate = .committed then
            some { dbi with owner := (native.txns.obj root).chain.headD 0 }
          else none
        else some dbi

/-- End `root` together with everything nested in it. -/
def endTxn (native : Native) (root : IntPtr) (fate : Fate) : Native :=
  { native with
    txns := native.txns.map (native.endOf root fate)
    cursors := native.freeCursors root
    dbis := native.settleDbis root fate }

/-- A top-level write transaction that wrote something makes a new snapshot. -/
def snapshotAfter (native : Native) (txn : IntPtr) (wrote : Bool) : Nat :=
  if native.live txn && !(native.txns.obj txn).readOnly && (native.txns.obj txn).chain.isEmpty
      && wrote then
    (native.txns.obj txn).id
  else native.lastTxnId

/-- `mdb_txn_commit(txn)`: with an error code the transaction is aborted. -/
def mdbTxnCommit (txn : IntPtr) (ret : DbRetCode) (wrote : Bool) (native : Native) : Native :=
  let native := native.record .mdbTxnCommit [.txn txn]
  if ret = .success then
    { native.endTxn txn .committed with lastTxnId := native.snapshotAfter txn wrote }
  else native.endTxn txn .aborted

/-- `mdb_txn_abort(txn)` -/
def mdbTxnAbort (txn : IntPtr) (native : Native) : Native :=
  (native.record .mdbTxnAbort [.txn txn]).endTxn txn .aborted

/-- `mdb_txn_reset(txn)` -/
def mdbTxnReset (txn : IntPtr) (native : Native) : Native :=
  let native := native.record .mdbTxnReset [.txn txn]
  { native with txns := native.txns.modify txn fun old => { old with reset := true } }

/-- `mdb_txn_renew(txn)`: a reset reader moves to the current snapshot. -/
def mdbTxnRenew (txn : IntPtr) (ret : DbRetCode) (native : Native) : Option (DbRetCode × Native) :=
  let native := native.record .mdbTxnRenew [.txn txn]
  if ret = .success then
    if native.live txn && (native.txns.obj txn).readOnly && (native.txns.obj txn).reset then
      some (ret, { native with
        txns := native.txns.modify txn fun old =>
          { old with reset := false, id := native.lastTxnId } })
    else none
  else some (ret, native)

/-- The slot that is open under a name. -/
def openSlot? (native : Native) (name : List UInt8) : Option Nat :=
  (List.range native.dbis.next).find? fun slot =>
    match native.dbis.obj slot with
    | some dbi => dbi.name == name
    | none => false

/-- `mdb_dbi_open(txn, name, flags, out db)`: an open name gives its slot again,
a new name gets the free slot that the caller's answer names. -/
def mdbDbiOpen (txn : IntPtr) (name : List UInt8) (flags : BitVec 32) (ret : DbRetCode)
    (slot : Nat) (native : Native) : Option ((DbRetCode × Nat) × Native) :=
  let native := native.record .mdbDbiOpen [.txn txn]
  if ret = .success then
    if native.canWrite txn then
      match native.openSlot? name with
      | some existing => some ((ret, existing), native)
      | none =>
          if coreDbs ≤ slot ∧ slot ≤ native.dbis.next ∧ native.dbis.obj slot = none then
            let dbi : NativeDbi := ⟨name, txn, flags, none, none⟩
            some ((ret, slot), { native with
              dbis := ⟨max native.dbis.next (slot + 1), (native.dbis.modify slot fun _ => some dbi).obj⟩ })
          else none
    else none
  else some ((ret, 0), native)

/-- `mdb_set_compare(txn, dbi, cmp)` and `mdb_set_dupsort(txn, dbi, cmp)` -/
def setOrder (function : LibFunc) (change : NativeDbi → NativeDbi) (txn : IntPtr) (dbi : Nat)
    (ret : DbRetCode) (native : Native) : DbRetCode × Native :=
  let native := native.record function [.txn txn, .dbi dbi]
  if ret = .success then
    (ret, { native with dbis := native.dbis.modify dbi (Option.map change) })
  else (ret, native)

def mdbSetCompare (comparer : Comparer) : IntPtr → Nat → DbRetCode → Native → DbRetCode × Native :=
  setOrder .mdbSetCompare fun dbi => { dbi with compare := some comparer }

def mdbSetDupsort (comparer : Comparer) : IntPtr → Nat → DbRetCode → Native → DbRetCode × Native :=
  setOrder .mdbSetDupsort fun dbi => { dbi with dupsort := some comparer }

/-- `mdb_dbi_close(env, dbi)` -/
def mdbDbiClose (env : IntPtr) (dbi : Nat) (native : Native) : Native :=
  let native := native.record .mdbDbiClose [.env env, .dbi dbi]
  { native with dbis := native.dbis.modify dbi fun _ => none }

/-- `mdb_drop(txn, dbi, del)`: deleting the table also closes its handle. -/
def mdbDrop (txn : IntPtr) (dbi : Nat) (del : Bool) (ret : DbRetCode) (native : Native) :
    Option (DbRetCode × Native) :=
  let native := native.record .mdbDrop [.txn txn, .dbi dbi]
  if ret = .success then
    if native.canWrite txn && (native.dbis.obj dbi).isSome then
      if del then some (ret, { native with dbis := native.dbis.modify dbi fun _ => none })
      else some (ret, native)
    else none
  else some (ret, native)

/-- `mdb_cursor_open(txn, dbi, out cursor)` -/
def mdbCursorOpen (txn : IntPtr) (dbi : Nat) (ret : DbRetCode) (native : Native) :
    Option ((DbRetCode × IntPtr) × Native) :=
  let native := native.record .mdbCursorOpen [.txn txn, .dbi dbi]
  if ret = .success then
    if native.live txn && !native.hasChild txn then
      some ((ret, native.cursors.next),
        { native with cursors := native.cursors.alloc ⟨txn, dbi, false⟩ })
    else none
  else some ((ret, 0), native)

/-- `mdb_cursor_close(cursor)` -/
def mdbCursorClose (cursor : IntPtr) (native : Native) : Native :=
  let native := native.record .mdbCursorClose [.cursor cursor]
  { native with cursors := native.cursors.modify cursor fun old => { old with freed := true } }

/-- `mdb_cursor_renew(txn, cursor)` -/
def mdbCursorRenew (txn cursor : IntPtr) (ret : DbRetCode) (native : Native) :
    Option (DbRetCode × Native) :=
  let native := native.record .mdbCursorRenew [.txn txn, .cursor cursor]
  if ret = .success then
    if native.live txn && (native.txns.obj txn).readOnly then
      some (ret, { native with
        cursors := native.cursors.modify cursor fun old => { old with txn := txn } })
    else none
  else some (ret, native)

/-- `mdb_env_get_flags(env, out flags)` -/
def mdbEnvGetFlags (env : IntPtr) (ret : DbRetCode) (native : Native) :
    (DbRetCode × LmdbEnvironmentOptions) × Native :=
  let native := native.record .mdbEnvGetFlags [.env env]
  if ret = .success then ((ret, native.flags), native) else ((ret, .none), native)

/-- `mdb_env_get_userctx(env)`, which gives the environment object back. -/
def mdbEnvGetUserctx (env : IntPtr) (native : Native) : Native :=
  native.record .mdbEnvGetUserctx [.env env]

/-- `mdb_env_close(env)` -/
def mdbEnvClose (env : IntPtr) (native : Native) : Native :=
  { native.record .mdbEnvClose [.env env] with closed := true }

/-- A transaction may write while it is live, no reader and without a child. -/
theorem canWrite_iff {native : Native} {txn : IntPtr} : native.canWrite txn = true ↔
    native.live txn = true ∧ (native.txns.obj txn).readOnly = false ∧
      native.hasChild txn = false := by
  simp [canWrite, and_assoc]

/-- A nested transaction is a write transaction under a write transaction. -/
theorem canBegin_nested {native : Native} {parent : IntPtr} {modes : TransactionModes}
    (nested : parent ≠ 0) (accepted : native.canBegin parent modes = true) :
    native.canWrite parent = true ∧ modes.isReadOnly = false := by
  rw [canBegin, if_neg nested] at accepted
  simp only [Bool.and_eq_true, Bool.not_eq_true'] at accepted
  exact accepted.2

section Record

variable (native : Native) (function : LibFunc) (handles : List NativeHandle)

@[simp] theorem record_flags : (native.record function handles).flags = native.flags := rfl

@[simp] theorem record_lastTxnId :
    (native.record function handles).lastTxnId = native.lastTxnId := rfl

@[simp] theorem record_txns : (native.record function handles).txns = native.txns := rfl

@[simp] theorem record_dbis : (native.record function handles).dbis = native.dbis := rfl

@[simp] theorem record_cursors : (native.record function handles).cursors = native.cursors := rfl

@[simp] theorem record_closed : (native.record function handles).closed = native.closed := rfl

@[simp] theorem live_record (txn : IntPtr) :
    (native.record function handles).live txn = native.live txn := rfl

@[simp] theorem canWrite_record (txn : IntPtr) :
    (native.record function handles).canWrite txn = native.canWrite txn := rfl

@[simp] theorem canBegin_record (parent : IntPtr) (modes : TransactionModes) :
    (native.record function handles).canBegin parent modes = native.canBegin parent modes := rfl

@[simp] theorem begun_record (parent : IntPtr) (modes : TransactionModes) :
    (native.record function handles).begun parent modes = native.begun parent modes := rfl

@[simp] theorem openSlot?_record (name : List UInt8) :
    (native.record function handles).openSlot? name = native.openSlot? name := rfl

end Record

end Native

end KdSoftLmdb
