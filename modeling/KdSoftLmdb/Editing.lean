import KdSoftLmdb.Positions
import KdSoftLmdb.Interop.Duplicates

/-!
# Deleting at a cursor

All cursors of a transaction on one database share its records, and `Delete` removes those
at the cursor. That leaves the cursor in the gap, from where `MDB_NEXT` gets the record that
follows. What most other operations find in a gap, and where a call that finds no record
leaves a cursor, is not specified. Neither is the value that a cursor is on after a call that
has no place for a value.

Reading is what it is without changes: `browse` shows a content and a cursor that is on a
record as a `Browsing`, and the get members do the same on both.
-/

namespace KdSoftLmdb

variable {runtime : Runtime} {order values : KeyOrder}

open DbLibConstants

/-- One record comes before another in the order of LMDB. -/
def Precedes (order values : KeyOrder) (a b : KeyDataPair) : Prop :=
  order.compare a.key b.key = .lt ∨ a.key = b.key ∧ values.compare a.data b.data = .lt

instance (a b : KeyDataPair) : Decidable (Precedes order values a b) :=
  inferInstanceAs (Decidable (_ ∨ _))

/-- The records of a database as LMDB keeps them. -/
structure Records (order values : KeyOrder) where
  records : List KeyDataPair
  sorted : SortedBy order values records

/-- The records without some. -/
def Records.without (removed : KeyDataPair → Bool) (content : Records order values) :
    Records order values :=
  ⟨content.records.filter fun record => !removed record, content.sorted.sublist List.filter_sublist⟩

/-- The order of the records is transitive. -/
theorem Precedes.trans {a b c : KeyDataPair} (first : Precedes order values a b)
    (second : Precedes order values b c) : Precedes order values a c := by
  rcases first with first | ⟨same, first⟩
  · rcases second with second | ⟨same, _⟩
    · exact .inl (Std.TransCmp.lt_trans first second)
    · exact .inl (same ▸ first)
  · rcases second with second | ⟨same', second⟩
    · exact .inl (same ▸ second)
    · exact .inr ⟨same.trans same', Std.TransCmp.lt_trans first second⟩

/-- Where a cursor is: on no record yet, on one, on some value of the key of one, where one
was deleted, or where LMDB does not say. -/
inductive Mark where
  | unset
  | on (record : KeyDataPair)
  | among (record : KeyDataPair)
  | gap (deleted : KeyDataPair)
  | lost
deriving DecidableEq

/-- The place of a record among others. -/
def around (order values : KeyOrder) (records : List KeyDataPair) (record : KeyDataPair) :
    Place KeyDataPair :=
  .on (records.filter fun other => Precedes order values other record).reverse record
    (records.filter fun other => Precedes order values record other)

namespace Mark

/-- The place of a cursor that is on a record or new. -/
def place (order values : KeyOrder) (records : List KeyDataPair) : Mark → Place KeyDataPair
  | .on record => around order values records record
  | _ => .unset records

/-- Where an operation leads from anywhere, as far as LMDB says. -/
def fromAnywhere (records : List KeyDataPair) (op : DbCursorOp) :
    Option (Option (Place KeyDataPair)) :=
  if op = .first ∨ op = .last then some (op.move (.unset records)) else none

/-- Where an operation leads; the outer `none` is what LMDB does not say. From a gap it is
said where the records and the keys go on, and from some value of a key only where the keys
go on. -/
def leads (order values : KeyOrder) (records : List KeyDataPair) (op : DbCursorOp) :
    Mark → Option (Option (Place KeyDataPair))
  | .gap deleted =>
      if op = .next ∨ op = .nextNoDup then some (op.move (around order values records deleted))
      else fromAnywhere records op
  | .among record =>
      if op = .nextNoDup ∨ op = .prevNoDup then some (op.move (around order values records record))
      else fromAnywhere records op
  | .lost => fromAnywhere records op
  | mark => some (op.move (mark.place order values records))

/-- The same for an operation that gets only the key: for the current one it is enough to be
on some value of it. -/
def leadsKey (order values : KeyOrder) (records : List KeyDataPair) (op : DbCursorOp) :
    Mark → Option (Option (Place KeyDataPair))
  | .among record =>
      if op = .getCurrent then some (some (around order values records record))
      else leads order values records op (.among record)
  | mark => leads order values records op mark

/-- Where a cursor is that found no record. -/
def missed : Mark → Mark
  | .unset => .unset
  | _ => .lost

end Mark

/-- Where an operation that looks for a record leaves the cursor: `MDB_SET` has no place for
the value. -/
def DbCursorSearch.leaves (record : KeyDataPair) : DbCursorSearch → Mark
  | .set => .among record
  | _ => .on record

/-- The wrapper's objects, the records under every transaction and database handle, and
where each native cursor is. -/
structure Editing (runtime : Runtime) (order values : KeyOrder) where
  world : World runtime
  contents : IntPtr → Nat → Records order values
  marks : IntPtr → Mark

/-- A code that LMDB returns from a change for other reasons than the records. -/
structure EditAnswer where
  failure : Option DbRetCode
  failing : failure ≠ some .success

/-- LMDB has no such reason. -/
def EditAnswer.none : EditAnswer := ⟨Option.none, by simp⟩

namespace Editing

/-- Run a method that knows nothing of the records. -/
def onWorld {α : Type} (body : Call runtime α) :
    Method (Editing runtime order values) Exception α :=
  .zoom Editing.world (fun world editing => { editing with world := world }) body

/-- The transaction and the database of a native cursor. -/
def cursorPlace (editing : Editing runtime order values) (cursor : IntPtr) : IntPtr × Nat :=
  ((editing.world.native.cursors.obj cursor).txn, (editing.world.native.cursors.obj cursor).dbi)

/-- The content that a native cursor is on. -/
def contentAt (editing : Editing runtime order values) (cursor : IntPtr) : Records order values :=
  editing.contents (editing.cursorPlace cursor).1 (editing.cursorPlace cursor).2

/-- Record a native call and move the cursor. -/
def goTo (function : LibFunc) (cursor : IntPtr) (mark : Mark)
    (editing : Editing runtime order values) : Editing runtime order values where
  world := editing.world.onNative fun native => native.record function [.cursor cursor]
  contents := editing.contents
  marks other := if other = cursor then mark else editing.marks other

/-- What `mdb_cursor_get` does for an operation that leads somewhere and then leaves the cursor
at the record that is there. -/
def moveBy (cursor : IntPtr) (op : DbCursorOp) (leads : Option (Option (Place KeyDataPair)))
    (leaves : KeyDataPair → Mark) (editing : Editing runtime order values) :
    Option ((DbRetCode × KeyDataPair) × Editing runtime order values) :=
  leads.map fun there =>
    match there with
    | some (.on _ record _) => ((.success, record), editing.goTo .mdbCursorGet cursor (leaves record))
    | _ => ((op.missing, ⟨[], []⟩), editing.goTo .mdbCursorGet cursor (editing.marks cursor).missed)

/-- `mdb_cursor_get(cursor, key, data, op)` -/
def mdbCursorGet (cursor : IntPtr) (op : DbCursorOp) (editing : Editing runtime order values) :
    Option ((DbRetCode × KeyDataPair) × Editing runtime order values) :=
  editing.moveBy cursor op
    ((editing.marks cursor).leads order values (editing.contentAt cursor).records op) .on

/-- `mdb_cursor_get(cursor, key, NULL, op)`: without a place for the value the cursor comes to a
key only, and only the key is handed out. -/
def mdbCursorGetKey (cursor : IntPtr) (op : DbCursorOp) (editing : Editing runtime order values) :
    Option ((DbRetCode × KeyDataPair) × Editing runtime order values) :=
  editing.moveBy cursor op
    ((editing.marks cursor).leadsKey order values (editing.contentAt cursor).records op)
    fun record => if op = .getCurrent then editing.marks cursor else .among record

/-- `mdb_cursor_get(cursor, key, data, op)` for an operation that looks for a record. -/
def mdbCursorFind (cursor : IntPtr) (op : DbCursorSearch) (wanted : KeyDataPair)
    (editing : Editing runtime order values) :
    (DbRetCode × KeyDataPair) × Editing runtime order values :=
  match (Place.unset (editing.contentAt cursor).records).seek fun record =>
      op.accepts order values wanted record with
  | some (.on _ record _) =>
      ((.success, op.reply wanted record), editing.goTo .mdbCursorGet cursor (op.leaves record))
  | _ => ((.notFound, wanted), editing.goTo .mdbCursorGet cursor .lost)

/-- The records that a deletion removes: `MDB_NODUPDATA` means all values of the key. -/
def removes (flags : BitVec 32) (current record : KeyDataPair) : Bool :=
  if hasBit flags DbLibConstants.mdbNoDupData then record.key == current.key else record == current

/-- Remove records under one pair of handles. Other cursors that were on one of them, or in
a gap, are where LMDB does not say. -/
def remove (cursor : IntPtr) (current : KeyDataPair) (removed : KeyDataPair → Bool)
    (editing : Editing runtime order values) : Editing runtime order values where
  world := editing.world.onNative fun native => native.record .mdbCursorDel [.cursor cursor]
  contents txn dbi :=
    if (txn, dbi) = editing.cursorPlace cursor then (editing.contents txn dbi).without removed
    else editing.contents txn dbi
  marks other :=
    if other = cursor then .gap current
    else if editing.cursorPlace other = editing.cursorPlace cursor then
      match editing.marks other with
      | .on record => if removed record then .lost else .on record
      | .among record => if removed record then .lost else .among record
      | .unset => .unset
      | .gap _ | .lost => .lost
    else editing.marks other

/-- `mdb_cursor_del(cursor, flags)` -/
def mdbCursorDel (cursor : IntPtr) (flags : BitVec 32) (answer : EditAnswer)
    (editing : Editing runtime order values) : Option (DbRetCode × Editing runtime order values) :=
  match answer.failure with
  | some code => some (code, editing.goTo .mdbCursorDel cursor .lost)
  | none =>
      match editing.marks cursor with
      | .on record =>
          if editing.world.native.canWrite (editing.cursorPlace cursor).1 then
            some (.success, editing.remove cursor record (removes flags record))
          else none
      | .unset => some (.eInval, editing.goTo .mdbCursorDel cursor .unset)
      | _ => none

/-- `mdb_cursor_count(cursor, out count)` -/
def mdbCursorCount (cursor : IntPtr) (editing : Editing runtime order values) :
    Option ((DbRetCode × Nat) × Editing runtime order values) :=
  match editing.marks cursor with
  | .on record => some ((.success, ((editing.contentAt cursor).records.filter fun other =>
      other.key = record.key).length), editing.goTo .mdbCursorCount cursor (.on record))
  | .unset => some ((.eInval, 0), editing.goTo .mdbCursorCount cursor .unset)
  | _ => none

/-- What the get members share: `pick` is what they hand out of the record that `native` gets. -/
def getBy {α : Type} (native : IntPtr → Editing runtime order values →
      Option ((DbRetCode × KeyDataPair) × Editing runtime order values))
    (pick : KeyDataPair → α) (c : CursorRef) :
    Method (Editing runtime order values) Exception (Bool × α) := do
  let handle ← onWorld (Cursor.checkDisposed c)
  let (ret, record) ← .await (native handle)
  if ret = .notFound then pure (false, pick record)
  else do
    onWorld (checkRetCode ret)
    pure (true, pick record)

/-- `Cursor.Get(out entry, op)` and `Cursor.GetData(out data, op)` -/
def getItem {α : Type} (pick : KeyDataPair → α) (c : CursorRef) (op : DbCursorOp) :
    Method (Editing runtime order values) Exception (Bool × α) :=
  getBy (fun cursor => mdbCursorGet cursor op) pick c

/-- `Cursor.GetKey(out key, op)` -/
def getKey (c : CursorRef) (op : DbCursorOp) :
    Method (Editing runtime order values) Exception (Bool × Bytes) :=
  getBy (fun cursor => mdbCursorGetKey cursor op) KeyDataPair.key c

/-- What the methods that look for a record share. -/
def find (c : CursorRef) (op : DbCursorSearch) (wanted : KeyDataPair) :
    Method (Editing runtime order values) Exception (Bool × KeyDataPair) := do
  let handle ← onWorld (Cursor.checkDisposed c)
  let (ret, record) ← .call (mdbCursorFind handle op wanted)
  if ret = .notFound then pure (false, record)
  else do
    onWorld (checkRetCode ret)
    pure (true, record)

/-- What both `Delete` members share. -/
def deleteWith (c : CursorRef) (opts : BitVec 32) (answer : EditAnswer) :
    Method (Editing runtime order values) Exception Unit := do
  let handle ← onWorld (Cursor.checkDisposed c)
  let ret ← .await (mdbCursorDel handle opts answer)
  onWorld (checkRetCode ret)

/-- `MultiValueCursor.Count()` -/
def count (c : CursorRef) : Method (Editing runtime order values) Exception Nat := do
  let handle ← onWorld (Cursor.checkDisposed c)
  let (ret, result) ← .await (mdbCursorCount handle)
  onWorld (checkRetCode ret)
  pure result

/-- `Cursor.Delete(option)`; the only member of `CursorDeleteOption` is `None`. -/
def delete (c : CursorRef) (answer : EditAnswer) :
    Method (Editing runtime order values) Exception Unit :=
  deleteWith c 0 answer

/-- `MultiValueCursor.Delete(mvOption, option)`; the only member of
`MultiValueCursorDeleteOption` is `NoDuplicateData`. -/
def deleteKey (c : CursorRef) (answer : EditAnswer) :
    Method (Editing runtime order values) Exception Unit :=
  deleteWith c (0 ||| DbLibConstants.mdbNoDupData) answer

end Editing

section Orders

/-- No record precedes itself. -/
theorem Precedes.irrefl (a : KeyDataPair) : ¬Precedes order values a a := by
  rintro (before | ⟨_, before⟩)
  · exact KeyOrder.ne_of_lt before rfl
  · exact KeyOrder.ne_of_lt before rfl

/-- Of two records one comes first at most. -/
theorem Precedes.asymm {a b : KeyDataPair} (first : Precedes order values a b) :
    ¬Precedes order values b a := fun second => Precedes.irrefl a (first.trans second)

variable {before after : List KeyDataPair} {record : KeyDataPair}

/-- Between records that precede a record and records that follow it is its place. -/
theorem around_of_bounds {middle : List KeyDataPair} (self : ∀ other ∈ middle, other = record)
    (below : ∀ other ∈ before, Precedes order values other record)
    (above : ∀ other ∈ after, Precedes order values record other) :
    around order values (before.reverse ++ (middle ++ after)) record =
      .on before record after := by
  have lesser : (before.reverse ++ (middle ++ after)).filter
      (fun other => Precedes order values other record) = before.reverse := by
    have first : before.reverse.filter (fun other => Precedes order values other record) =
        before.reverse :=
      List.filter_eq_self.mpr fun other inside => decide_eq_true (below other (by simpa using inside))
    have second : middle.filter (fun other => Precedes order values other record) = [] :=
      List.filter_eq_nil_iff.mpr fun other inside precedes =>
        Precedes.irrefl record (self other inside ▸ of_decide_eq_true precedes)
    have third : after.filter (fun other => Precedes order values other record) = [] :=
      List.filter_eq_nil_iff.mpr fun other inside precedes =>
        (above other inside).asymm (of_decide_eq_true precedes)
    rw [List.filter_append, List.filter_append, first, second, third, List.append_nil,
      List.append_nil]
  have greater : (before.reverse ++ (middle ++ after)).filter
      (fun other => Precedes order values record other) = after := by
    have first : before.reverse.filter (fun other => Precedes order values record other) = [] :=
      List.filter_eq_nil_iff.mpr fun other inside precedes =>
        (below other (by simpa using inside)).asymm (of_decide_eq_true precedes)
    have second : middle.filter (fun other => Precedes order values record other) = [] :=
      List.filter_eq_nil_iff.mpr fun other inside precedes =>
        Precedes.irrefl record (self other inside ▸ of_decide_eq_true precedes)
    have third : after.filter (fun other => Precedes order values record other) = after :=
      List.filter_eq_self.mpr fun other inside => decide_eq_true (above other inside)
    rw [List.filter_append, List.filter_append, first, second, third, List.nil_append,
      List.nil_append]
  rw [around, lesser, greater, List.reverse_reverse]

/-- In sorted records the place of a record is where it stands. -/
theorem around_of_split (sorted : SortedBy order values (before.reverse ++ record :: after)) :
    around order values (before.reverse ++ record :: after) record = .on before record after := by
  obtain ⟨_, onward, across⟩ := List.pairwise_append.mp sorted
  exact @around_of_bounds order values before after record [record] (by simp)
    (fun other inside => across other (by simpa using inside) record List.mem_cons_self)
    (List.pairwise_cons.mp onward).1

end Orders

section Browse

open Place

/-- A move leads to a record of the same sequence. -/
def StaysInRecords (move : Place KeyDataPair → Option (Place KeyDataPair)) : Prop :=
  ∀ place there, move place = some there → ∃ before record after,
    there = .on before record after ∧ before.reverse ++ record :: after = place.records

private theorem StaysInRecords.mirrored {move : Place KeyDataPair → Option (Place KeyDataPair)}
    (stays : StaysInRecords move) : StaysInRecords (mirrored move) := by
  intro place there moved
  obtain ⟨seen, found, rfl⟩ := Option.map_eq_some_iff.mp moved
  obtain ⟨before, record, after, rfl, records⟩ := stays _ _ found
  refine ⟨after, record, before, rfl, ?_⟩
  rw [records_mirror] at records
  rw [← place.records.reverse_reverse, ← records]
  simp

private theorem staysInRecords_first : StaysInRecords Place.first := by
  intro place there moved
  rw [Place.first] at moved
  split at moved
  · cases moved
  · rename_i record rest records
    cases moved
    exact ⟨[], record, rest, rfl, records.symm⟩

private theorem staysInRecords_next : StaysInRecords Place.next := by
  intro place there moved
  match place with
  | .unset records => exact staysInRecords_first _ _ moved
  | .on _ _ [] => cases moved
  | .on before record (other :: after) =>
      cases moved
      exact ⟨record :: before, other, after, rfl, by simp [records]⟩

private theorem staysInRecords_nextRun : StaysInRecords (nextRun KeyDataPair.key) := by
  intro place there moved
  match place with
  | .unset records => exact staysInRecords_first _ _ moved
  | .on before record after =>
      have split := List.takeWhile_append_dropWhile
        (p := fun other : KeyDataPair => decide (other.key = record.key)) (l := after)
      rw [nextRun] at moved
      split at moved
      · cases moved
      · rename_i other rest dropped
        cases moved
        rw [dropped] at split
        exact ⟨_, other, rest, rfl, by simp [records, split]⟩

private theorem staysInRecords_firstInRun : StaysInRecords (firstInRun KeyDataPair.key) := by
  intro place there moved
  match place with
  | .unset records => cases moved
  | .on before record after =>
      have split := List.takeWhile_append_dropWhile
        (p := fun other : KeyDataPair => decide (other.key = record.key)) (l := before)
      rw [firstInRun] at moved
      split at moved
      · cases moved
        exact ⟨before, record, after, rfl, rfl⟩
      · rename_i other rest taken
        cases moved
        refine ⟨_, other, _, rfl, ?_⟩
        have reversed := congrArg List.reverse split
        rw [List.reverse_append, taken] at reversed
        rw [Place.records, ← reversed]
        simp

private theorem staysInRecords_nextInRun : StaysInRecords (nextInRun KeyDataPair.key) := by
  intro place there moved
  match place with
  | .unset records => exact staysInRecords_first _ _ moved
  | .on _ _ [] => cases moved
  | .on before record (other :: after) =>
      rw [nextInRun] at moved
      split at moved
      · cases moved
        exact ⟨record :: before, other, after, rfl, by simp [records]⟩
      · cases moved

private theorem staysInRecords_move (op : DbCursorOp) : StaysInRecords op.move := by
  cases op with
  | first => exact staysInRecords_first
  | firstDup => exact staysInRecords_firstInRun
  | last => exact staysInRecords_first.mirrored
  | lastDup => exact staysInRecords_firstInRun.mirrored
  | next => exact staysInRecords_next
  | nextDup => exact staysInRecords_nextInRun
  | nextNoDup => exact staysInRecords_nextRun
  | prev => exact staysInRecords_next.mirrored
  | prevDup => exact staysInRecords_nextInRun.mirrored
  | prevNoDup => exact staysInRecords_nextRun.mirrored
  | getCurrent =>
      intro place there moved
      cases place with
      | unset records => cases moved
      | on before record after =>
          cases moved
          exact ⟨before, record, after, rfl, rfl⟩

/-- Not to get a record is no success. -/
theorem DbCursorOp.missing_ne_success (op : DbCursorOp) : op.missing ≠ .success := by
  cases op <;> decide

namespace Editing

variable {editing : Editing runtime order values} {cursor : IntPtr} {c : CursorRef}

/-- The content as a reader without deletions sees it. -/
def browse (editing : Editing runtime order values) : Browsing runtime :=
  ⟨editing.world, fun cursor =>
    (editing.marks cursor).place order values (editing.contentAt cursor).records⟩

/-- The cursor is on a stored record, or new. -/
def Reads (editing : Editing runtime order values) (cursor : IntPtr) : Prop :=
  editing.marks cursor = .unset ∨
    ∃ record ∈ (editing.contentAt cursor).records, editing.marks cursor = .on record

/-- A record that is stored stands between those before and those after it. -/
theorem around_of_mem {content : Records order values} {record : KeyDataPair}
    (stored : record ∈ content.records) : ∃ before after,
      content.records = before.reverse ++ record :: after ∧
      around order values content.records record = .on before record after := by
  obtain ⟨left, after, split⟩ := List.append_of_mem stored
  have whole : content.records = left.reverse.reverse ++ record :: after := by
    rw [List.reverse_reverse]
    exact split
  refine ⟨left.reverse, after, whole, ?_⟩
  have sorted := content.sorted
  rw [whole] at sorted ⊢
  exact around_of_split sorted

private theorem Reads.records (reads : editing.Reads cursor) :
    ((editing.browse.places cursor).records) = (editing.contentAt cursor).records := by
  rcases reads with unset | ⟨record, stored, here⟩
  · rw [browse]
    simp [unset, Mark.place, Place.records]
  · obtain ⟨before, after, whole, placed⟩ := around_of_mem stored
    have place : editing.browse.places cursor = .on before record after := by
      change (editing.marks cursor).place order values _ = _
      rw [here]
      exact placed
    rw [place, whole]
    rfl

private theorem Reads.leads (reads : editing.Reads cursor) (op : DbCursorOp) :
    (editing.marks cursor).leads order values (editing.contentAt cursor).records op =
      some (op.move (editing.browse.places cursor)) := by
  rcases reads with unset | ⟨record, _, here⟩
  · simp [browse, unset, Mark.leads]
  · simp [browse, here, Mark.leads]

/-- Moving a cursor as the reader sees it. -/
theorem browse_goTo (mark : Mark) {place : Place KeyDataPair}
    (same : mark.place order values (editing.contentAt cursor).records = place) :
    (editing.goTo .mdbCursorGet cursor mark).browse = editing.browse.goTo cursor place := by
  have places : (editing.goTo .mdbCursorGet cursor mark).browse.places =
      fun other => if other = cursor then place else editing.browse.places other := by
    funext other
    by_cases here : other = cursor
    · subst here
      simp only [browse, goTo, if_true]
      exact same
    · simp only [browse, goTo, if_neg here]
      rfl
  exact congrArg (Browsing.mk _) places

/-- What a get member makes of a code and a value. -/
def getOutcome {α : Type} (runtime : Runtime) (ret : DbRetCode) (value : α) :
    Except Exception (Bool × α) :=
  if ret = .notFound then .ok (false, value)
  else match ErrorUtil.checkRetCode runtime ret with
    | some exception => .error exception
    | none => .ok (true, value)

/-- It returns `true` for no other code than `SUCCESS`. -/
theorem success_of_getOutcome {α : Type} {ret : DbRetCode} {value item : α}
    (found : getOutcome runtime ret value = .ok (true, item)) : ret = .success := by
  rw [getOutcome] at found
  split at found
  · cases found
  · split at found
    · cases found
    · rename_i checked
      exact (ErrorUtil.checkRetCode_eq_none_iff runtime ret).mp checked

private theorem replied {α : Type} (ret : DbRetCode) (value : α)
    (editing : Editing runtime order values) :
    (if ret = .notFound then pure (false, value)
      else do
        onWorld (checkRetCode ret)
        pure (true, value) : Method (Editing runtime order values) Exception (Bool × α)) editing =
      some (getOutcome runtime ret value, editing) := by
  rw [getOutcome]
  split
  · rfl
  · rw [Method.bind_apply, onWorld, Method.zoom, checkRetCode]
    cases ErrorUtil.checkRetCode runtime ret <;> rfl

/-- A code means the same in both models. -/
theorem replied_browsing {α : Type} (ret : DbRetCode) (value : α) (browsing : Browsing runtime) :
    (if ret = .notFound then pure (false, value)
      else do
        Browsing.onWorld (checkRetCode ret)
        pure (true, value) : Method (Browsing runtime) Exception (Bool × α)) browsing =
      some (getOutcome runtime ret value, browsing) := by
  rw [getOutcome]
  split
  · rfl
  · rw [Method.bind_apply, Browsing.onWorld, Method.zoom, checkRetCode]
    cases ErrorUtil.checkRetCode runtime ret <;> rfl

/-- Reading returns what it returns without deletions, and when it got a record the cursor is
where it is then. -/
theorem getItem_browse {α : Type} (pick : KeyDataPair → α) (op : DbCursorOp)
    (reads : editing.Reads (editing.world.cur c)) {result : Except Exception (Bool × α)}
    {later : Browsing runtime}
    (ran : Cursor.getItem pick c op editing.browse = some (result, later)) :
    ∃ after, getItem pick c op editing = some (result, after) ∧
      ∀ item, result = .ok (true, item) → after.browse = later := by
  by_cases live : editing.world.cur c = 0
  · obtain ⟨name, check⟩ := Cursor.checkDisposed_of_disposed live
    have threw : onWorld (Cursor.checkDisposed c) editing =
        some (.error (.objectDisposed name), editing) := Method.zoom_of_some check
    have threw' : Browsing.onWorld (Cursor.checkDisposed c) editing.browse =
        some (.error (.objectDisposed name), editing.browse) := Method.zoom_of_some check
    rw [Cursor.getItem, Method.bind_of_error threw'] at ran
    cases ran
    exact ⟨editing, Method.bind_of_error threw, fun item found => by cases found⟩
  · have check := Cursor.checkDisposed_of_live live
    have ran' : onWorld (Cursor.checkDisposed c) editing =
        some (.ok (editing.world.cur c), editing) := Method.zoom_of_some check
    have browsed : Browsing.onWorld (Cursor.checkDisposed c) editing.browse =
        some (.ok (editing.world.cur c), editing.browse) := Method.zoom_of_some check
    rw [Cursor.getItem, Method.bind_of_ok browsed, Method.call_bind, Browsing.mdbCursorGet] at ran
    rw [getItem, getBy, Method.bind_of_ok ran', Method.await_bind, mdbCursorGet, moveBy, reads.leads]
    cases found : op.move (editing.browse.places (editing.world.cur c)) with
    | none =>
        rw [found] at ran
        cases (replied_browsing _ _ _).symm.trans ran
        refine ⟨_, replied _ _ _, fun item got => ?_⟩
        exact absurd (success_of_getOutcome got) op.missing_ne_success
    | some there =>
        obtain ⟨before, record, rest, rfl, records⟩ := staysInRecords_move op _ _ found
        have whole := records.trans reads.records
        have sorted := (editing.contentAt (editing.world.cur c)).sorted
        rw [← whole] at sorted
        have placed : (Mark.on record).place order values
            (editing.contentAt (editing.world.cur c)).records = .on before record rest := by
          rw [← whole]
          exact around_of_split sorted
        rw [found] at ran
        cases (replied_browsing _ _ _).symm.trans ran
        exact ⟨_, replied .success (pick record) _, fun _ _ => browse_goTo _ placed⟩

end Editing

end Browse

end KdSoftLmdb
