import KdSoftLmdb.Objects

/-!
# What LMDB stores

The content of a single-value database as one transaction sees it, and what the
put and get functions of LMDB do with it. A put with `MDB_RESERVE` copies
nothing: it makes room for the given number of bytes and gives their address
back, and what stands there until the caller writes to it is not specified.

`Holding` shows contents of any kind under the handles of the wrapper's objects.
-/

namespace KdSoftLmdb

/-- The bytes of a key or a value. -/
abbrev Bytes := List UInt8

/-- The order of the keys of a database, built in or registered. -/
structure KeyOrder where
  compare : Bytes → Bytes → Ordering
  lawful : Std.TransCmp compare

instance (order : KeyOrder) : Std.TransCmp order.compare := order.lawful

/-- The bytes of a key compared from the first on. -/
def bytewise : KeyOrder := ⟨List.compareLex compare, inferInstance⟩

/-- The records of a database: for every key, one value. -/
abbrev Content (order : KeyOrder) := Std.ExtTreeMap Bytes Bytes order.compare

namespace DbLibConstants

def mdbNoOverwrite : BitVec 32 := 0x10
def mdbCurrent : BitVec 32 := 0x40
def mdbReserve : BitVec 32 := 0x10000
def mdbAppend : BitVec 32 := 0x20000

end DbLibConstants

open DbLibConstants

/-- `flags & flag` -/
def hasBit (flags flag : BitVec 32) : Bool := flags &&& flag != 0

/-- LMDB's answers to a put: the code of a failure that does not depend on the
content, what stands in the space it reserves, and the key that the cursor of a
put is on. -/
structure PutAnswer where
  failure : Option DbRetCode
  reserved : Bytes
  current : Bytes
  failing : failure ≠ some .success

namespace Content

variable {order : KeyOrder}

/-- The key comes after all others. -/
def appends (content : Content order) (key : Bytes) : Bool :=
  content.maxKey?.all fun last => order.compare key last == .gt

/-- The options of the put do not let it store under this key. -/
def refuses (content : Content order) (flags : BitVec 32) (key : Bytes) : Bool :=
  hasBit flags mdbNoOverwrite && content.contains key ||
    hasBit flags mdbAppend && !content.appends key

/-- What `mdb_put` and `mdb_cursor_put` do once their other checks passed. -/
def store (content : Content order) (flags : BitVec 32) (key data : Bytes) (answer : PutAnswer) :
    DbRetCode × Content order :=
  let stored := if hasBit flags mdbReserve then answer.reserved else data
  if hasBit flags mdbCurrent then (.success, content.insert answer.current stored)
  else if content.refuses flags key then (.keyExist, content)
  else (.success, content.insert key stored)

/-- What `mdb_get` finds: the code and the bytes of the second `MDB_val`. -/
def find (content : Content order) (key : Bytes) : DbRetCode × Bytes :=
  match content[key]? with
  | some data => (.success, data)
  | none => (.notFound, [])

/-- A value that was stored is found. -/
theorem find_insert_self (content : Content order) (key data : Bytes) :
    find (content.insert key data) key = (.success, data) := by
  rw [find, Std.ExtTreeMap.getElem?_insert_self]

/-- What other keys find is as it was. -/
theorem find_insert_of_ne (content : Content order) {key other : Bytes} (data : Bytes)
    (different : order.compare key other ≠ .eq) :
    find (content.insert key data) other = find content other := by
  rw [find, find, Std.ExtTreeMap.getElem?_insert, if_neg different]

end Content

/-- A put as LMDB gets it: the code of a failure that does not depend on the content, and
what it does with the content otherwise. -/
structure PutRequest (κ : Type) where
  failure : Option DbRetCode
  store : κ → DbRetCode × κ

/-- A put into a single-value database. -/
def Content.request {order : KeyOrder} (flags : BitVec 32) (key data : Bytes)
    (answer : PutAnswer) : PutRequest (Content order) :=
  ⟨answer.failure, fun content => content.store flags key data answer⟩

@[simp] theorem Content.store_request {order : KeyOrder} (flags : BitVec 32) (key data : Bytes)
    (answer : PutAnswer) (content : Content order) :
    (Content.request flags key data answer).store content =
      content.store flags key data answer := rfl

/-- The wrapper's objects, and for every transaction and database handle the
content that LMDB shows under them. -/
structure Holding (runtime : Runtime) (κ : Type) where
  world : World runtime
  contents : IntPtr → Nat → κ

namespace Holding

variable {runtime : Runtime} {κ : Type}

/-- Run a method that knows nothing of the contents. -/
def onWorld {α : Type} (body : Call runtime α) : Method (Holding runtime κ) Exception α :=
  .zoom Holding.world (fun world holding => { holding with world := world }) body

/-- Record a native call. -/
def record (function : LibFunc) (handles : List NativeHandle) (holding : Holding runtime κ) :
    Holding runtime κ :=
  { holding with world := holding.world.onNative fun native => native.record function handles }

/-- LMDB can store under these handles. -/
def writable (holding : Holding runtime κ) (txn : IntPtr) (dbi : Nat) : Bool :=
  holding.world.native.canWrite txn && (holding.world.native.dbis.obj dbi).isSome

/-- LMDB can read under these handles. -/
def readable (holding : Holding runtime κ) (txn : IntPtr) (dbi : Nat) : Bool :=
  holding.world.native.live txn && (holding.world.native.dbis.obj dbi).isSome

/-- Change the content under one pair of handles. -/
def withContent (txn : IntPtr) (dbi : Nat) (content : κ) (holding : Holding runtime κ) :
    Holding runtime κ where
  world := holding.world
  contents otherTxn otherDbi :=
    if otherTxn = txn ∧ otherDbi = dbi then content else holding.contents otherTxn otherDbi

/-- The part of a put that both put functions share. -/
def storeAt (txn : IntPtr) (dbi : Nat) (request : PutRequest κ) (holding : Holding runtime κ) :
    Option (DbRetCode × Holding runtime κ) :=
  match request.failure with
  | some code => some (code, holding)
  | none =>
      if holding.writable txn dbi then
        let (ret, content) := request.store (holding.contents txn dbi)
        some (ret, holding.withContent txn dbi content)
      else none

/-- `mdb_put(txn, dbi, key, data, flags)` -/
def mdbPut (txn : IntPtr) (dbi : Nat) (request : PutRequest κ) (holding : Holding runtime κ) :
    Option (DbRetCode × Holding runtime κ) :=
  (holding.record .mdbPut [.txn txn, .dbi dbi]).storeAt txn dbi request

/-- The transaction and the database of a native cursor. -/
def cursorPlace (holding : Holding runtime κ) (cursor : IntPtr) : IntPtr × Nat :=
  ((holding.world.native.cursors.obj cursor).txn, (holding.world.native.cursors.obj cursor).dbi)

/-- `mdb_cursor_put(cursor, key, data, flags)` -/
def mdbCursorPut (cursor : IntPtr) (request : PutRequest κ) (holding : Holding runtime κ) :
    Option (DbRetCode × Holding runtime κ) :=
  let place := holding.cursorPlace cursor
  (holding.record .mdbCursorPut [.cursor cursor]).storeAt place.1 place.2 request

end Holding

/-- The objects and the contents of single-value databases. -/
abbrev Storage (runtime : Runtime) (order : KeyOrder) := Holding runtime (Content order)

namespace Storage

variable {runtime : Runtime} {order : KeyOrder}

/-- `mdb_get(txn, dbi, key, data)` -/
def mdbGet (txn : IntPtr) (dbi : Nat) (key : Bytes) (storage : Storage runtime order) :
    Option ((DbRetCode × Bytes) × Storage runtime order) :=
  let storage := storage.record .mdbGet [.txn txn, .dbi dbi]
  if storage.readable txn dbi then some ((storage.contents txn dbi).find key, storage) else none

/-- `mdb_cursor_get(cursor, key, data, MDB_SET_KEY)`: the stored key comes back too. -/
def mdbCursorGetKey (cursor : IntPtr) (key : Bytes) (storage : Storage runtime order) :
    Option ((DbRetCode × Bytes × Bytes) × Storage runtime order) :=
  let place := storage.cursorPlace cursor
  let storage := storage.record .mdbCursorGet [.cursor cursor]
  if storage.readable place.1 place.2 then
    let content := storage.contents place.1 place.2
    let (ret, data) := content.find key
    some ((ret, (content.getKey? key).getD key, data), storage)
  else none

end Storage

end KdSoftLmdb
