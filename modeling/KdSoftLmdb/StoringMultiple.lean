import KdSoftLmdb.FixedMultiValueCursor
import KdSoftLmdb.ForwardMultiple
import KdSoftLmdb.Sessions

/-!
# Storing values in blocks

`PutMultiple` hands LMDB consecutive values of one size, and LMDB stores them one after
the other under the key until one fails, and tells how many it stored. It also ends when
the key has one value and that equals the next one: it overwrites the value and returns at
once. What is counted is stored, and `ForwardMultiple` reads it back.
-/

namespace KdSoftLmdb

variable {runtime : Runtime} {order values : KeyOrder}

open FixedMultiValueCursor (dataSize storedCount valuesOf)

/-- The records with one more in its place, where it stands for any that compares equal. -/
def placed (order values : KeyOrder) (records : List KeyDataPair) (record : KeyDataPair) :
    List KeyDataPair :=
  (records.filter fun other => Precedes order values other record) ++
    record :: records.filter fun other => Precedes order values record other

private theorem sorted_placed {records : List KeyDataPair} (sorted : SortedBy order values records)
    (record : KeyDataPair) : SortedBy order values (placed order values records record) := by
  have below : ∀ other ∈ records.filter fun other => Precedes order values other record,
      Precedes order values other record :=
    fun other inside => of_decide_eq_true (List.mem_filter.mp inside).2
  have above : ∀ other ∈ records.filter fun other => Precedes order values record other,
      Precedes order values record other :=
    fun other inside => of_decide_eq_true (List.mem_filter.mp inside).2
  refine List.pairwise_append.mpr ⟨sorted.sublist List.filter_sublist,
    List.pairwise_cons.mpr ⟨above, sorted.sublist List.filter_sublist⟩, ?_⟩
  intro lesser inside other member
  rcases List.mem_cons.mp member with rfl | beyond
  · exact below lesser inside
  · exact (below lesser inside).trans (above other beyond)

/-- The records with one more. -/
def Records.put (record : KeyDataPair) (content : Records order values) : Records order values :=
  ⟨placed order values content.records record, sorted_placed content.sorted record⟩

/-- The records whose keys LMDB takes for the same. -/
def sameKey (order : KeyOrder) (records : List KeyDataPair) (key : Bytes) : List KeyDataPair :=
  records.filter fun other => order.compare other.key key == .eq

/-- The record that LMDB adds for a value, under the bytes that it has for the key; `none`
stands for what it does not say, which of two values that compare equal stays. -/
def takes (order values : KeyOrder) (records : List KeyDataPair) (key item : Bytes) :
    Option KeyDataPair :=
  if (sameKey order records key).all fun other =>
      values.compare other.data item != .eq || other.data == item then
    some ⟨((sameKey order records key).head?.map KeyDataPair.key).getD key, item⟩
  else none

/-- LMDB overwrites the only value of a key with an equal one and does not count it. `lone`
tells whether it keeps the value by itself, which it need not do when others were deleted. -/
def overwrites (order : KeyOrder) (lone : Bool) (records : List KeyDataPair) (key item : Bytes) :
    Bool :=
  lone && (sameKey order records key).map KeyDataPair.data == [item]

/-- The records and cursors, and the caller's variable that is passed by reference. -/
structure Counting (runtime : Runtime) (order values : KeyOrder) where
  editing : Editing runtime order values
  itemCount : Int32

namespace Editing

/-- Record a native call. -/
def calling (function : LibFunc) (cursor : IntPtr) (editing : Editing runtime order values) :
    Editing runtime order values :=
  { editing with
    world := editing.world.onNative fun native => native.record function [.cursor cursor] }

/-- Store a record. Other cursors stay on theirs; where those in a gap are then is not said. -/
def store (cursor : IntPtr) (record : KeyDataPair) (editing : Editing runtime order values) :
    Editing runtime order values where
  world := editing.world
  contents txn dbi :=
    if (txn, dbi) = editing.cursorPlace cursor then (editing.contents txn dbi).put record
    else editing.contents txn dbi
  marks other :=
    if other = cursor then .on record
    else if editing.cursorPlace other = editing.cursorPlace cursor then
      match editing.marks other with
      | .gap _ => .lost
      | mark => mark
    else editing.marks other

/-- Store values under a key until one fails or is overwritten; `stored` counts them. The
first value of a new key is kept by itself. -/
def storeItems (cursor : IntPtr) (key : Bytes) (answers : Nat → EditAnswer) :
    Bool → List Bytes → Nat → Editing runtime order values →
      Option ((DbRetCode × Nat) × Editing runtime order values)
  | _, [], stored, editing => some ((.success, stored), editing)
  | lone, item :: items, stored, editing =>
      match (answers stored).failure with
      | some code =>
          some ((code, stored),
            { editing with marks := Function.update editing.marks cursor .lost })
      | none => do
          let records := (editing.contentAt cursor).records
          let record ← takes order values records key item
          let editing' := editing.store cursor record
          if overwrites order lone records key item then some ((.success, stored), editing')
          else
            storeItems cursor key answers (lone || (sameKey order records key).isEmpty) items
              (stored + 1) editing'

/-- `mdb_cursor_put(cursor, key, data, MDB_MULTIPLE)`: one call for all values. What it
does when there are none, or when they reach beyond the data, is not specified. -/
def mdbCursorPutMultiple (cursor : IntPtr) (key data : Bytes) (itemSize itemCount : Nat)
    (lone : Bool) (answers : Nat → EditAnswer) (editing : Editing runtime order values) :
    Option ((DbRetCode × Nat) × Editing runtime order values) :=
  if editing.world.native.canWrite (editing.cursorPlace cursor).1 = true ∧
      0 < itemSize ∧ 0 < itemCount ∧ itemSize * itemCount ≤ data.length then
    storeItems cursor key answers lone (cut itemSize (data.take (itemSize * itemCount))) 0
      (editing.calling .mdbCursorPut cursor)
  else none

end Editing

namespace Counting

/-- Run a method that knows nothing of the variable. -/
def onEditing {α : Type} (body : Method (Editing runtime order values) Exception α) :
    Method (Counting runtime order values) Exception α :=
  .zoom Counting.editing (fun editing counting => { counting with editing := editing }) body

/-- `itemCount = (int)dbMultiData[1].Size` -/
def assignCount (stored : Nat) : Method (Counting runtime order values) Exception Unit :=
  match storedCount (.ofNat 64 stored) with
  | .ok count => .modify fun counting => { counting with itemCount := count }
  | .error exception => .throw exception

/-- `FixedMultiValueCursor.PutMultiple` -/
def putMultiple (c : CursorRef) (key : Bytes) (data : ReadOnlySpan) (lone : Bool)
    (answers : Nat → EditAnswer) : Method (Counting runtime order values) Exception Bool := do
  let counting ← .get
  let size := dataSize counting.editing.world c
  if data.length < size * counting.itemCount then
    onEditing (Editing.onWorld (checkRetCode .tooManyFixedItems))
  let handle ← onEditing (Editing.onWorld (Cursor.checkDisposed c))
  let (ret, stored) ← onEditing (.await (Editing.mdbCursorPutMultiple handle key data.bytes
    (DbValue.size size).toNat (DbValue.size counting.itemCount).toNat lone answers))
  assignCount stored
  if ret = .keyExist then pure false
  else do
    onEditing (Editing.onWorld (checkRetCode ret))
    pure true

end Counting

/-- What a put makes of a code: `KEYEXIST` stands for `false`, another failure throws. -/
def putOutcome (runtime : Runtime) (ret : DbRetCode) : Except Exception Bool :=
  if ret = .keyExist then .ok false
  else match ErrorUtil.checkRetCode runtime ret with
    | some exception => .error exception
    | none => .ok true

/-- How many of the values LMDB counts when none fails, given the values that the key has. -/
def countOf (lone : Bool) : List Bytes → List Bytes → Nat
  | [value], item :: items => if lone ∧ value = item then 0 else items.length + 1
  | [], first :: second :: items => if first = second then 1 else items.length + 2
  | _, items => items.length

section Puts

variable {c : CursorRef} {editing after : Editing runtime order values} {key : Bytes}
  {lone : Bool} {answers : Nat → EditAnswer}

private theorem putOutcome_eq_true_iff (ret : DbRetCode) :
    putOutcome runtime ret = .ok true ↔ ret = .success := by
  rw [putOutcome]
  split
  · rename_i exists'
    simp [exists', DbRetCode.keyExist, DbRetCode.success]
  · rw [← ErrorUtil.checkRetCode_eq_none_iff runtime]
    cases ErrorUtil.checkRetCode runtime ret with
    | none => simp
    | some exception => simp

private theorem counted_put (ret : DbRetCode) (counting : Counting runtime order values) :
    (if ret = .keyExist then pure false
      else do
        Counting.onEditing (Editing.onWorld (checkRetCode ret))
        pure true : Method (Counting runtime order values) Exception Bool) counting =
      some (putOutcome runtime ret, counting) := by
  rw [putOutcome]
  split
  · rfl
  · rw [Method.bind_apply, Counting.onEditing, Method.zoom, Editing.onWorld, Method.zoom,
      checkRetCode]
    cases ErrorUtil.checkRetCode runtime ret <;> rfl

/-- There are values, and they are in the buffer. -/
structure Fits (size itemCount : Int32) (data : ReadOnlySpan) : Prop where
  sized : 0 < size.toInt
  counted : 0 < itemCount.toInt
  within : size.toInt * itemCount.toInt ≤ data.bytes.length

/-- The values that a buffer begins with. -/
def itemsOf (size itemCount : Int32) (data : ReadOnlySpan) : List Bytes :=
  cut size.toInt.toNat (data.bytes.take (size.toInt.toNat * itemCount.toInt.toNat))

/-- As many as were announced, all of one size. -/
theorem Fits.items {size itemCount : Int32} {data : ReadOnlySpan}
    (fits : Fits size itemCount data) :
    (itemsOf size itemCount data).length = itemCount.toInt.toNat ∧
      ∀ item ∈ itemsOf size itemCount data, item.length = size.toInt.toNat := by
  obtain ⟨sized, counted, within⟩ := fits
  have product : ((size.toInt.toNat * itemCount.toInt.toNat : Nat) : Int) =
      size.toInt * itemCount.toInt := by
    rw [Int.natCast_mul, Int.toNat_of_nonneg (Int.le_of_lt sized),
      Int.toNat_of_nonneg (Int.le_of_lt counted)]
  refine cut_mul (by omega) ?_
  rw [List.length_take]
  omega

/-- Sizes that are positive are what they are to LMDB. -/
theorem Fits.toNat_size {size itemCount : Int32} {data : ReadOnlySpan}
    (fits : Fits size itemCount data) :
    (DbValue.size size).toNat = size.toInt.toNat ∧
      (DbValue.size itemCount).toNat = itemCount.toInt.toNat := by
  have sized := DbValue.toNat_size_of_nonneg (Int.le_of_lt fits.sized)
  have counted := DbValue.toNat_size_of_nonneg (Int.le_of_lt fits.counted)
  omega

/-- And their product passes the comparison with the buffer. -/
theorem Fits.passed {size itemCount : Int32} {data : ReadOnlySpan}
    (fits : Fits size itemCount data) : ¬data.length < size * itemCount := by
  have short := data.short
  have within := fits.within
  have product : 0 ≤ size.toInt * itemCount.toInt :=
    Int.mul_nonneg (Int.le_of_lt fits.sized) (Int.le_of_lt fits.counted)
  rw [Int32.lt_iff_toInt_lt, ReadOnlySpan.toInt_length, toInt_mul_of_lt (by omega) (by omega)]
  omega

/-- A count that is an `int` is assigned as what it is. -/
theorem toInt_storedCount {stored : Nat} {count : Int32} (small : stored < 2 ^ 31)
    (assigned : storedCount (.ofNat 64 stored) = .ok count) : count.toInt = stored := by
  have size : (Int64.ofBitVec (.ofNat 64 stored)).toInt = stored :=
    Int64.toInt_ofNat_of_lt (by omega)
  have converts : storedCount (.ofNat 64 stored) =
      .ok (Int64.ofBitVec (.ofNat 64 stored)).toInt32 := by
    rw [storedCount, Interop.DbValue.sizeAsInt, if_pos (by dsimp only; omega)]
    rfl
  cases converts.symm.trans assigned
  rw [Int64.toInt_toInt32, size, Int.bmod_eq_of_le (by omega) (by omega)]

/-- What one value of several does that are all stored, or overwritten. -/
theorem storeItems_cons {cursor : IntPtr} {item : Bytes} {items : List Bytes} {stored count : Nat}
    (ran : editing.storeItems cursor key answers lone (item :: items) stored =
      some ((.success, count), after)) :
    ∃ record, takes order values (editing.contentAt cursor).records key item = some record ∧
      if overwrites order lone (editing.contentAt cursor).records key item then
        count = stored ∧ after = editing.store cursor record
      else (editing.store cursor record).storeItems cursor key answers
        (lone || (sameKey order (editing.contentAt cursor).records key).isEmpty) items
        (stored + 1) = some ((.success, count), after) := by
  rw [Editing.storeItems] at ran
  split at ran
  · rename_i code failure
    cases ran
    exact absurd failure (answers stored).failing
  · obtain ⟨record, took, rest⟩ := Option.bind_eq_some_iff.mp ran
    refine ⟨record, took, ?_⟩
    dsimp only at rest
    split at rest
    · rename_i overwritten
      cases rest
      rw [if_pos overwritten]
      exact ⟨rfl, rfl⟩
    · rename_i added
      rw [if_neg added]
      exact rest

/-- LMDB's stores change nothing of the objects. -/
theorem world_of_storeItems {cursor : IntPtr} {items : List Bytes} {stored count : Nat}
    (ran : editing.storeItems cursor key answers lone items stored =
      some ((.success, count), after)) :
    after.world = editing.world := by
  induction items generalizing stored editing lone with
  | nil =>
      cases ran
      rfl
  | cons item items ih =>
      obtain ⟨record, _, rest⟩ := storeItems_cons ran
      split at rest
      · rw [rest.2]
        rfl
      · rw [ih rest]
        rfl

/-- Behind its checks `PutMultiple` is one native call. -/
theorem putMultiple_stored {itemCount : Int32} {data : ReadOnlySpan}
    {after : Counting runtime order values} (live : editing.world.cur c ≠ 0)
    (fits : Fits (dataSize editing.world c) itemCount data)
    (ran : Counting.putMultiple c key data lone answers ⟨editing, itemCount⟩ =
      some (.ok true, after)) :
    ∃ count, (editing.calling .mdbCursorPut (editing.world.cur c)).storeItems (editing.world.cur c)
        key answers lone (itemsOf (dataSize editing.world c) itemCount data) 0 =
          some ((.success, count), after.editing) ∧
      storedCount (.ofNat 64 count) = .ok after.itemCount := by
  have passed := fits.passed
  obtain ⟨size, number⟩ := fits.toNat_size
  have check : Counting.onEditing (Editing.onWorld (Cursor.checkDisposed c))
      (⟨editing, itemCount⟩ : Counting runtime order values) =
        some (.ok (editing.world.cur c), ⟨editing, itemCount⟩) :=
    Method.zoom_of_some (edit_checkDisposed live)
  rw [Counting.putMultiple, Method.get_bind] at ran
  dsimp only at ran
  rw [if_neg passed, Method.bind_of_ok check, size, number] at ran
  cases reached : Editing.mdbCursorPutMultiple (editing.world.cur c) key data.bytes
      (dataSize editing.world c).toInt.toNat itemCount.toInt.toNat lone answers editing with
  | none =>
      rw [Method.bind_apply, Counting.onEditing, Method.zoom, Method.await_apply, reached] at ran
      cases ran
  | some outcome =>
      obtain ⟨⟨ret, stored⟩, middle⟩ := outcome
      have replied : Counting.onEditing (.await (Editing.mdbCursorPutMultiple (editing.world.cur c)
          key data.bytes (dataSize editing.world c).toInt.toNat itemCount.toInt.toNat lone answers))
          (⟨editing, itemCount⟩ : Counting runtime order values) =
            some (.ok (ret, stored), ⟨middle, itemCount⟩) := by
        rw [Counting.onEditing, Method.zoom, Method.await_apply, reached]
        rfl
      rw [Method.bind_of_ok replied] at ran
      dsimp only at ran
      cases assigned : storedCount (.ofNat 64 stored) with
      | error exception =>
          rw [Counting.assignCount, assigned] at ran
          cases ran
      | ok count =>
          rw [Counting.assignCount, assigned] at ran
          dsimp only at ran
          rw [Method.modify_bind, counted_put] at ran
          obtain ⟨told, rfl⟩ := Prod.mk.inj (Option.some.inj ran)
          obtain rfl := (putOutcome_eq_true_iff ret).mp told
          rw [Editing.mdbCursorPutMultiple] at reached
          split at reached
          · exact ⟨stored, reached, assigned⟩
          · cases reached

end Puts

section ReadBack

open FixedMultiValueCursor

variable {c : CursorRef} {editing after : Editing runtime order values} {key : Bytes}
  {lone : Bool} {answers : Nat → EditAnswer} {records : List KeyDataPair}

/-- The key is stored under these bytes, if it is. -/
def Named (order : KeyOrder) (records : List KeyDataPair) (key : Bytes) : Prop :=
  ∀ record ∈ records, order.compare record.key key = .eq → record.key = key

/-- Then the values that LMDB finds are those of the key. -/
theorem sameKey_of_named (named : Named order records key) :
    (sameKey order records key).map KeyDataPair.data = valuesOf records key := by
  refine congrArg (List.map KeyDataPair.data) (List.filter_congr fun other inside => ?_)
  rw [Bool.eq_iff_iff, beq_iff_eq, decide_eq_true_eq]
  refine ⟨named other inside, ?_⟩
  rintro rfl
  exact Std.ReflCmp.compare_self

private theorem mem_valuesOf {item : Bytes} :
    item ∈ valuesOf records key ↔ ⟨key, item⟩ ∈ records := by
  rw [valuesOf, List.mem_map]
  constructor
  · rintro ⟨other, inside, rfl⟩
    obtain ⟨stored, same⟩ := List.mem_filter.mp inside
    cases of_decide_eq_true same
    exact stored
  · intro inside
    exact ⟨_, List.mem_filter.mpr ⟨inside, decide_eq_true rfl⟩, rfl⟩

private theorem nodup_valuesOf (sorted : SortedBy order values records) :
    (valuesOf records key).Nodup := by
  refine List.pairwise_map.mpr ((sorted.sublist List.filter_sublist).imp_of_mem ?_)
  intro first second inside inside' before same
  have keys : first.key = second.key := by
    rw [of_decide_eq_true (List.mem_filter.mp inside).2,
      of_decide_eq_true (List.mem_filter.mp inside').2]
  rcases before with lower | ⟨_, lower⟩
  · exact KeyOrder.ne_of_lt lower keys
  · exact KeyOrder.ne_of_lt lower same

/-- A value that is taken is added, and nothing else changes. -/
theorem mem_placed_of_takes {item : Bytes} {record : KeyDataPair} (named : Named order records key)
    (took : takes order values records key item = some record) :
    record = ⟨key, item⟩ ∧ ∀ other, other ∈ placed order values records record ↔
      other = ⟨key, item⟩ ∨ other ∈ records := by
  rw [takes] at took
  split at took
  · rename_i alike
    cases took
    have stored : ((sameKey order records key).head?.map KeyDataPair.key).getD key = key := by
      cases first : (sameKey order records key).head? with
      | none => rfl
      | some other =>
          obtain ⟨inside, same⟩ := List.mem_filter.mp (List.mem_of_mem_head? first)
          exact named other inside (beq_iff_eq.mp same)
    rw [stored]
    refine ⟨rfl, fun other => ?_⟩
    simp only [placed, List.mem_append, List.mem_cons, List.mem_filter, decide_eq_true_eq]
    constructor
    · rintro (⟨inside, _⟩ | rfl | ⟨inside, _⟩)
      · exact .inr inside
      · exact .inl rfl
      · exact .inr inside
    · rintro (rfl | inside)
      · exact .inr (.inl rfl)
      · cases keys : order.compare other.key key with
        | lt => exact .inl ⟨inside, .inl keys⟩
        | gt => exact .inr (.inr ⟨inside, .inl (Std.OrientedCmp.lt_of_gt keys)⟩)
        | eq =>
            have same := named other inside keys
            cases data : values.compare other.data item with
            | lt => exact .inl ⟨inside, .inr ⟨same, data⟩⟩
            | gt => exact .inr (.inr ⟨inside, .inr ⟨same.symm, Std.OrientedCmp.lt_of_gt data⟩⟩)
            | eq =>
                have found := List.all_eq_true.mp alike other
                  (List.mem_filter.mpr ⟨inside, beq_iff_eq.mpr keys⟩)
                refine .inr (.inl ?_)
                cases other
                cases same
                simpa [data] using found
  · cases took

/-- So are the records at the cursor. -/
theorem mem_of_takes {cursor : IntPtr} {item : Bytes} {record : KeyDataPair}
    (named : Named order (editing.contentAt cursor).records key)
    (took : takes order values (editing.contentAt cursor).records key item = some record) :
    Named order ((editing.store cursor record).contentAt cursor).records key ∧
      ∀ other, other ∈ ((editing.store cursor record).contentAt cursor).records ↔
        other = ⟨key, item⟩ ∨ other ∈ (editing.contentAt cursor).records := by
  obtain ⟨rfl, added⟩ := mem_placed_of_takes named took
  have content : ((editing.store cursor ⟨key, item⟩).contentAt cursor).records =
      placed order values (editing.contentAt cursor).records ⟨key, item⟩ :=
    congrArg Records.records (if_pos rfl)
  rw [content]
  refine ⟨fun other inside same => ?_, added⟩
  rcases (added other).mp inside with rfl | before
  · rfl
  · exact named other before same

/-- Two members that differ are two. -/
theorem two_le_length {first second : Bytes} {items : List Bytes} (inside : first ∈ items)
    (inside' : second ∈ items) (differ : first ≠ second) : 2 ≤ items.length := by
  have pair : [first, second].Nodup := by simp [differ]
  refine (pair.subperm fun value member => ?_).length_le
  rcases List.mem_cons.mp member with rfl | last
  · exact inside
  · exact List.mem_singleton.mp last ▸ inside'

private theorem countOf_nil (lone : Bool) (old : List Bytes) : countOf lone old [] = 0 := by
  match old with
  | [] => rfl
  | [_] => rfl
  | _ :: _ :: _ => rfl

private theorem countOf_le (lone : Bool) (old items : List Bytes) :
    countOf lone old items ≤ items.length := by
  fun_cases countOf lone old items <;> simp

private theorem countOf_of_several {old : List Bytes} (several : 2 ≤ old.length) (lone : Bool)
    (items : List Bytes) : countOf lone old items = items.length := by
  match old with
  | [] => simp at several
  | [_] => simp at several
  | _ :: _ :: _ => rfl

private theorem eq_singleton {old new : List Bytes} {item : Bytes} (distinct : new.Nodup)
    (added : ∀ value, value ∈ new ↔ value = item ∨ value ∈ old)
    (same : ∀ value ∈ old, value = item) : new = [item] := by
  refine List.perm_singleton.mp
    ((List.perm_ext_iff_of_nodup distinct (by simp)).mpr fun value => ?_)
  rw [added, List.mem_singleton]
  exact ⟨fun known => known.elim id (same value), .inl⟩

/-- One more value: unless it is overwritten, it is counted, and so are those behind it as if it
had been there. -/
theorem countOf_cons {old new : List Bytes} {item : Bytes} (items : List Bytes) (lone : Bool)
    (distinct : old.Nodup) (distinct' : new.Nodup)
    (added : ∀ value, value ∈ new ↔ value = item ∨ value ∈ old) :
    countOf lone old (item :: items) =
      if lone && old == [item] then 0 else countOf (lone || old.isEmpty) new items + 1 := by
  match old with
  | [] =>
      obtain rfl : new = [item] := eq_singleton distinct' added (by simp)
      cases items with
      | nil => simp [countOf]
      | cons second items => by_cases same : item = second <;> simp [countOf, same]
  | [value] =>
      by_cases same : value = item
      · subst same
        obtain rfl : new = [value] := eq_singleton distinct' added (by simp)
        cases lone with
        | true => simp [countOf]
        | false => cases items <;> simp [countOf]
      · have several : 2 ≤ new.length :=
          two_le_length ((added item).mpr (.inl rfl)) ((added value).mpr (.inr (by simp)))
            (Ne.symm same)
        rw [countOf_of_several several]
        simp [countOf, same]
  | first :: second :: rest =>
      have several : 2 ≤ new.length :=
        two_le_length ((added first).mpr (.inr (by simp))) ((added second).mpr (.inr (by simp)))
          (by rintro rfl; simp at distinct)
      rw [countOf_of_several several]
      simp [countOf]

example : countOf true [[5]] [[5], [6]] = 0 := rfl

example : countOf true [] [[5], [5], [6]] = 1 := rfl

/-- When all values are stored, or one is overwritten, the records are those from before and
the counted ones. -/
theorem mem_of_storeItems {cursor : IntPtr} {items : List Bytes} {stored count : Nat}
    (named : Named order (editing.contentAt cursor).records key)
    (ran : editing.storeItems cursor key answers lone items stored =
      some ((.success, count), after)) :
    count = stored + countOf lone (valuesOf (editing.contentAt cursor).records key) items ∧
      Named order (after.contentAt cursor).records key ∧
      ∀ other, other ∈ (after.contentAt cursor).records ↔
        other ∈ (editing.contentAt cursor).records ∨ other.key = key ∧ other.data ∈
          items.take (countOf lone (valuesOf (editing.contentAt cursor).records key) items) := by
  induction items generalizing stored editing lone with
  | nil =>
      cases ran
      rw [countOf_nil]
      exact ⟨rfl, named, fun other => by simp⟩
  | cons item items ih =>
      obtain ⟨record, took, rest⟩ := storeItems_cons ran
      obtain ⟨named', added⟩ := mem_of_takes named took
      have step := countOf_cons items lone (nodup_valuesOf (editing.contentAt cursor).sorted)
        (nodup_valuesOf ((editing.store cursor record).contentAt cursor).sorted)
        fun value => by
          rw [mem_valuesOf, mem_valuesOf, added, KeyDataPair.mk.injEq, and_iff_right rfl]
      rw [overwrites, ← List.isEmpty_map (f := KeyDataPair.data), sameKey_of_named named] at rest
      rw [step]
      split at rest
      · rename_i overwritten
        obtain ⟨rfl, rfl⟩ := rest
        rw [if_pos overwritten]
        refine ⟨rfl, named', fun other => ?_⟩
        rw [added]
        have already : (⟨key, item⟩ : KeyDataPair) ∈ (editing.contentAt cursor).records := by
          rw [← mem_valuesOf, beq_iff_eq.mp (Bool.and_eq_true_iff.mp overwritten).2]
          exact List.mem_singleton_self item
        constructor
        · rintro (rfl | inside)
          · exact .inl already
          · exact .inl inside
        · rintro (inside | ⟨_, member⟩)
          · exact .inr inside
          · cases member
      · rename_i counted
        rw [if_neg counted]
        obtain ⟨rfl, named'', others⟩ := ih named' rest
        refine ⟨Nat.add_right_comm _ _ _, named'', fun other => ?_⟩
        rw [others, added, List.take_succ_cons]
        constructor
        · rintro ((rfl | inside) | ⟨key, inside⟩)
          · exact .inr ⟨rfl, List.mem_cons_self⟩
          · exact .inl inside
          · exact .inr ⟨key, List.mem_cons_of_mem _ inside⟩
        · rintro (inside | ⟨rfl, member⟩)
          · exact .inl (.inr inside)
          · rcases List.mem_cons.mp member with rfl | inside
            · exact .inl (.inl rfl)
            · exact .inr ⟨rfl, inside⟩

/-- From the first of several values of one size on, what `ForwardMultiple` yields, taken
apart, are the values of the key. -/
theorem forwardMultiple_cut (lastOnPage : KeyDataPair → Bool) {browsing : Browsing runtime}
    {before ahead : List KeyDataPair} {record : KeyDataPair} {size fuel : Nat}
    (stands : Stands .onward c (.on before record ahead) browsing)
    (start : ∀ earlier ∈ before.head?, earlier.key ≠ record.key)
    (sorted : SortedBy order values (before.reverse ++ record :: ahead)) (positive : 0 < size)
    (fixed : ∀ item ∈ record :: ahead, item.key = record.key → item.data.length = size)
    (several : 2 ≤ (valuesOf (before.reverse ++ record :: ahead) record.key).length)
    (enough : (record :: ahead).length < fuel) :
    ∃ chunks, outcome (forwardMultiple lastOnPage c fuel) browsing =
        some (.ok chunks) ∧
      cut size chunks.flatten = valuesOf (before.reverse ++ record :: ahead) record.key := by
  have whole := valuesOf_of_start sorted start
  have more : (ahead.takeWhile fun other => other.key = record.key) ≠ [] := by
    intro none
    rw [whole, none] at several
    exact absurd several (by simp)
  refine ⟨_, forwardMultiple_yields lastOnPage stands start enough, ?_⟩
  rw [whole]
  refine cut_pagesOf more positive fun item inside => ?_
  rcases List.mem_cons.mp inside with rfl | later
  · exact fixed item List.mem_cons_self rfl
  · have same : item.key = record.key := by simpa using List.mem_takeWhile_imp later
    exact fixed item (List.mem_cons_of_mem _ ((List.takeWhile_sublist _).subset later)) same

/-- The first record of a key: behind those with other keys. -/
theorem first_of_key (named : Named order records key) {record : KeyDataPair}
    (first : records.find? (fun other => order.compare other.key key == .eq) = some record) :
    record.key = key ∧ ∃ behind ahead, records = behind ++ record :: ahead ∧
      ∀ other ∈ behind, other.key ≠ key := by
  obtain ⟨same, behind, ahead, split, others⟩ := List.find?_eq_some_iff_append.mp first
  refine ⟨named record (by rw [split]; simp) (beq_iff_eq.mp same), behind, ahead, split, ?_⟩
  rintro other inside rfl
  have different := others other inside
  simp [Std.ReflCmp.compare_self] at different

/-- A key with several values is found and read in pages. -/
theorem find_forwardMultiple (live : editing.world.cur c ≠ 0)
    (named : Named order (editing.markedAt c).records key) {size : Nat} (positive : 0 < size)
    (fixed : ∀ record ∈ (editing.markedAt c).records, record.key = key →
      record.data.length = size)
    (several : 2 ≤ (valuesOf (editing.markedAt c).records key).length)
    (lastOnPage : KeyDataPair → Bool) {fuel : Nat}
    (enough : (editing.markedAt c).records.length < fuel) :
    ∃ record moved chunks,
      Editing.find c .setKey ⟨key, []⟩ editing = some (.ok (true, record), moved) ∧
      outcome (forwardMultiple lastOnPage c fuel) moved.browse = some (.ok chunks) ∧
      cut size chunks.flatten = valuesOf (editing.markedAt c).records key := by
  have sorted : SortedBy order values (editing.markedAt c).records :=
    (editing.contentAt (editing.world.cur c)).sorted
  cases first : (editing.markedAt c).records.find? fun other =>
      order.compare other.key key == .eq with
  | none =>
      have absent : (editing.markedAt c).records.filter (fun other => other.key = key) = [] := by
        refine List.filter_eq_nil_iff.mpr fun other inside same => ?_
        have different := List.find?_eq_none.mp first other inside
        rw [of_decide_eq_true same] at different
        simp [Std.ReflCmp.compare_self] at different
      rw [valuesOf, absent] at several
      exact absurd several (by simp)
  | some record =>
      obtain ⟨rfl, behind, ahead, split, others⟩ := first_of_key named first
      obtain ⟨item, moved, found, _, onward, marked⟩ :=
        find_reaches live .setKey ⟨record.key, []⟩ first
      have whole : (editing.markedAt c).records = behind.reverse.reverse ++ record :: ahead := by
        rw [List.reverse_reverse]
        exact split
      have place : moved.browse.places (moved.world.cur c) =
          around order values (moved.markedAt c).records record := by
        change ((moved.markedAt c).mark).place order values (moved.markedAt c).records = _
        rw [marked]
        rfl
      rw [marked, whole] at place
      rw [whole] at sorted fixed several enough ⊢
      have stands : Stands .onward c (.on behind.reverse record ahead) moved.browse :=
        ⟨onward.cur ▸ live, place.trans (around_of_split sorted)⟩
      have bounded : (record :: ahead).length < fuel := by
        rw [List.length_append] at enough
        omega
      obtain ⟨chunks, yielded, pieces⟩ := forwardMultiple_cut lastOnPage stands
        (fun earlier inside => others earlier (by simpa using List.mem_of_mem_head? inside)) sorted
        positive (fun item inside => fixed item (List.mem_append_right _ inside)) several bounded
      exact ⟨item, moved, chunks, found, yielded, pieces⟩

/-- What a successful `PutMultiple` leaves: the count, the records, and that they are
read back in pages, as soon as there are several values. -/
structure StoredBlock (c : CursorRef) (key : Bytes) (size : Int32) (counted : List Bytes)
    (before : List KeyDataPair) (after : Counting runtime order values) : Prop where
  itemCount : after.itemCount.toInt = counted.length
  stored : ∀ record, record ∈ (after.editing.markedAt c).records ↔
    record ∈ before ∨ record.key = key ∧ record.data ∈ counted
  readBack : 2 ≤ (valuesOf (after.editing.markedAt c).records key).length →
    ∀ (lastOnPage : KeyDataPair → Bool) (fuel : Nat),
      (after.editing.markedAt c).records.length < fuel →
      ∃ record moved chunks,
        Editing.find c .setKey ⟨key, []⟩ after.editing = some (.ok (true, record), moved) ∧
        outcome (forwardMultiple lastOnPage c fuel) moved.browse =
          some (.ok chunks) ∧
        cut size.toInt.toNat chunks.flatten =
          valuesOf (after.editing.markedAt c).records key

/-- A history after which a cursor for values of one byte is open and may store. -/
theorem fixedCursor_writable : ∃ world : World .ascii,
    History Always .none 0 (fixedCursor 1) world ∧ world.cur 0 ≠ 0 ∧ dataSize world 0 = 1 ∧
    (Counting.putMultiple 0 [1] ⟨[9, 5], by decide⟩ true (fun _ => .none)
      ⟨threeStored world, 2⟩).any (fun outcome => outcome.1.toOption = some true) = true :=
  history_of_replay Always .none 0 (fixedCursor 1)
    (fun world : World .ascii => world.cur 0 ≠ 0 ∧ dataSize world 0 = 1 ∧
      (Counting.putMultiple 0 [1] ⟨[9, 5], by decide⟩ true (fun _ => .none)
        ⟨threeStored world, 2⟩).any (fun outcome => outcome.1.toOption = some true) = true)
    (by decide +kernel)

end ReadBack

end KdSoftLmdb
