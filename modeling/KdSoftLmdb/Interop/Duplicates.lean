import KdSoftLmdb.Interop.Content

/-!
# What LMDB stores under duplicate keys

A multi-value database holds pairs of a key and a value, sorted by the keys and
under one key by the values. A pair that compares equal to a stored one adds
nothing, so a comparison of the values that calls different bytes equal loses
values.

`Kept` is the content of any database, and `Kept.store` what a put with any
options does to it.
-/

namespace KdSoftLmdb

open DbLibConstants

namespace DbLibConstants

def mdbNoDupData : BitVec 32 := 0x20
def mdbAppendDup : BitVec 32 := 0x40000

end DbLibConstants

/-- Values in the order of what a function gives for them. -/
theorem transCmp_on {α β : Type} (view : α → β) (compare : β → β → Ordering)
    [Std.TransCmp compare] : Std.TransCmp fun a b => compare (view a) (view b) where
  eq_swap := Std.OrientedCmp.eq_swap
  isLE_trans := Std.TransCmp.isLE_trans

/-- Pairs by their keys, and under one key by their values. -/
def pairOrder (order values : KeyOrder) : Bytes × Bytes → Bytes × Bytes → Ordering :=
  compareLex (fun a b => order.compare a.1 b.1) fun a b => values.compare a.2 b.2

instance (order values : KeyOrder) : Std.TransCmp (pairOrder order values) :=
  have := transCmp_on (Prod.fst : Bytes × Bytes → Bytes) order.compare
  have := transCmp_on (Prod.snd : Bytes × Bytes → Bytes) values.compare
  inferInstanceAs (Std.TransCmp (compareLex _ _))

/-- Two pairs are equal when their keys and their values are. -/
theorem pairOrder_eq_iff {order values : KeyOrder} {a b : Bytes × Bytes} :
    pairOrder order values a b = .eq ↔
      order.compare a.1 b.1 = .eq ∧ values.compare a.2 b.2 = .eq :=
  compareLex_eq_eq

/-- The records of a multi-value database. -/
abbrev Duplicates (order values : KeyOrder) :=
  Std.ExtTreeSet (Bytes × Bytes) (pairOrder order values)

namespace Duplicates

variable {order values : KeyOrder}

/-- The key has a value. -/
def hasKey (content : Duplicates order values) (key : Bytes) : Bool :=
  content.any fun pair => order.compare pair.1 key == .eq

/-- The key comes after all others. -/
def appends (content : Duplicates order values) (key : Bytes) : Bool :=
  content.all fun pair => order.compare pair.1 key == .lt

/-- The value comes after all others of its key. -/
def appendsValue (content : Duplicates order values) (key data : Bytes) : Bool :=
  content.all fun pair => order.compare pair.1 key != .eq || values.compare pair.2 data == .lt

/-- The value is one of those of the key, byte by byte. -/
def keeps (content : Duplicates order values) (key data : Bytes) : Bool :=
  (content.get? (key, data)).any fun pair => pair.2 == data

end Duplicates

/-- The content of a database, with one value for each key or with several. -/
inductive Kept (order values : KeyOrder) where
  | single (content : Content order)
  | multi (content : Duplicates order values)

/-- LMDB's answers to a put into any database: the record that the cursor of the put
is on has a value, too. LMDB has no other reason for `KEYEXIST` than the content. -/
structure PairAnswer extends PutAnswer where
  currentData : Bytes
  other : failure ≠ some .keyExist

namespace Kept

variable {order values : KeyOrder}

/-- The key exists. -/
def hasKey : Kept order values → Bytes → Bool
  | .single content, key => content.contains key
  | .multi content, key => content.hasKey key

/-- The key/data pair exists. -/
def hasPair : Kept order values → Bytes → Bytes → Bool
  | .single content, key, data => content[key]? == some data
  | .multi content, key, data => content.contains (key, data)

/-- The key comes after all others. -/
def appends : Kept order values → Bytes → Bool
  | .single content, key => content.appends key
  | .multi content, key => content.appends key

/-- The value comes after all others of its key, if it can have several. -/
def appendsValue : Kept order values → Bytes → Bytes → Bool
  | .single _, _, _ => true
  | .multi content, key, data => content.appendsValue key data

/-- `MDB_NOOVERWRITE` or `MDB_NODUPDATA` does not let the put store the pair; the
second one means nothing where a key has one value. -/
def forbids : Kept order values → BitVec 32 → Bytes → Bytes → Bool
  | .single content, flags, key, _ => hasBit flags mdbNoOverwrite && content.contains key
  | .multi content, flags, key, data =>
      hasBit flags mdbNoOverwrite && content.hasKey key ||
        hasBit flags mdbNoDupData && content.contains (key, data)

/-- What `MDB_APPEND` and `MDB_APPENDDUP` promise is true. -/
def inOrder (content : Kept order values) (flags : BitVec 32) (key data : Bytes) : Bool :=
  (!hasBit flags mdbAppend || content.appends key) &&
    (!hasBit flags mdbAppendDup || content.appendsValue key data)

/-- Add a pair; where a key has one value, it replaces the old one. -/
def add : Kept order values → Bytes → Bytes → Kept order values
  | .single content, key, data => .single (content.insert key data)
  | .multi content, key, data => .multi (content.insert (key, data))

/-- Replace the record that a cursor is on. -/
def replace : Kept order values → Bytes × Bytes → Bytes → Kept order values
  | .single content, current, data => .single (content.insert current.1 data)
  | .multi content, current, data => .multi ((content.erase current).insert (current.1, data))

/-- What `mdb_put` and `mdb_cursor_put` do once their other checks passed. -/
def store (content : Kept order values) (flags : BitVec 32) (key data : Bytes)
    (answer : PairAnswer) : DbRetCode × Kept order values :=
  let stored := if hasBit flags mdbReserve then answer.reserved else data
  if hasBit flags mdbCurrent then
    (.success, content.replace (answer.current, answer.currentData) stored)
  else if content.forbids flags key data || !content.inOrder flags key data then
    (.keyExist, content)
  else (.success, content.add key stored)

/-- A put into a database of either kind. -/
def request (flags : BitVec 32) (key data : Bytes) (answer : PairAnswer) :
    PutRequest (Kept order values) :=
  ⟨answer.failure, fun content => content.store flags key data answer⟩

@[simp] theorem store_request (content : Kept order values) (flags : BitVec 32) (key data : Bytes)
    (answer : PairAnswer) :
    (request flags key data answer).store content = content.store flags key data answer := rfl

/-- Bytes under which the pair is found once they are added as a value of the key. -/
def Covers : Kept order values → Bytes → Bytes → Bytes → Prop
  | .single _, _, data, stored => stored = data
  | .multi content, key, data, stored =>
      values.compare stored data = .eq ∨ content.contains (key, data) = true

variable {content : Kept order values} {flags : BitVec 32} {key data stored : Bytes}
  {answer : PairAnswer}

/-- The pair itself covers itself. -/
theorem covers_self : content.Covers key data data := by
  cases content with
  | single content => rfl
  | multi content => exact .inl Std.ReflCmp.compare_self

/-- What is stored after one more pair. -/
theorem hasPair_add_iff : (content.add key stored).hasPair key data = true ↔
    content.Covers key data stored := by
  cases content with
  | single content =>
      rw [add, hasPair, Std.ExtTreeMap.getElem?_insert_self, beq_iff_eq, Option.some_inj]
      exact Iff.rfl
  | multi content =>
      have same : pairOrder order values (key, stored) (key, data) = .eq ↔
          values.compare stored data = .eq := by
        rw [pairOrder_eq_iff]
        exact and_iff_right Std.ReflCmp.compare_self
      rw [add, hasPair, Std.ExtTreeSet.contains_insert, Bool.or_eq_true, beq_iff_eq, same]
      exact Iff.rfl

/-- Replacing the record of a key leaves the pair there if it is the pair's key, and
for another key if the pair was there. -/
theorem hasPair_replace_iff {current : Bytes × Bytes} :
    (content.replace current data).hasPair key data = true ↔
      order.compare current.1 key = .eq ∨ content.hasPair key data = true := by
  cases content with
  | single content =>
      rw [replace, hasPair, hasPair, Std.ExtTreeMap.getElem?_insert]
      split
      · rename_i same
        simp [same]
      · rename_i different
        exact (or_iff_right different).symm
  | multi content =>
      rw [replace, hasPair, hasPair, Std.ExtTreeSet.contains_insert, Bool.or_eq_true, beq_iff_eq,
        pairOrder_eq_iff, Std.ExtTreeSet.contains_erase, Bool.and_eq_true, bne_iff_ne, ne_eq,
        pairOrder_eq_iff]
      have same : values.compare data data = .eq := Std.ReflCmp.compare_self
      by_cases here : order.compare current.1 key = .eq
      · simp [here, same]
      · simp [here]

/-- A put that no other check stops is carried out or finds the record. -/
theorem store_code (content : Kept order values) (flags : BitVec 32) (key data : Bytes)
    (answer : PairAnswer) : (content.store flags key data answer).1 = .success ∨
      (content.store flags key data answer).1 = .keyExist := by
  rw [store]
  split
  · exact .inl rfl
  · split
    · exact .inr rfl
    · exact .inl rfl

/-- A put at the cursor replaces its value. -/
theorem store_of_current (current : hasBit flags mdbCurrent = true)
    (given : hasBit flags mdbReserve = false) : content.store flags key data answer =
      (.success, content.replace (answer.current, answer.currentData) data) := by
  rw [store, current, given]
  rfl

/-- A put that the options forbid changes nothing. -/
theorem store_of_refused (other : hasBit flags mdbCurrent = false)
    (refused : content.forbids flags key data = true ∨ content.inOrder flags key data = false) :
    content.store flags key data answer = (.keyExist, content) := by
  have refused : (content.forbids flags key data || !content.inOrder flags key data) = true := by
    simpa using refused
  rw [store, other, refused]
  rfl

/-- Every other put adds the pair. -/
theorem store_of_taken (other : hasBit flags mdbCurrent = false)
    (allowed : content.forbids flags key data = false)
    (inOrder : content.inOrder flags key data = true) :
    content.store flags key data answer =
      (.success, content.add key (if hasBit flags mdbReserve then answer.reserved else data)) := by
  rw [store, other, allowed, inOrder]
  rfl

end Kept

end KdSoftLmdb
