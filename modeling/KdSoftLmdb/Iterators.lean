import KdSoftLmdb.MultiValueCursor

/-!
# Iterating by key, and from a position

`ForwardByKey` and `ReverseByKey` alone, without an inner loop that moves the
cursor; and the iterators that start at the position of the cursor or beside it.
-/

namespace KdSoftLmdb

variable {runtime : Runtime}

section ByKey

variable {direction : Direction} {c : CursorRef} {browsing : Browsing runtime}

/-- A loop over the keys alone. -/
theorem byKey_enumerates (direction : Direction) (c : CursorRef) (fuel : Nat) :
    Enumerates (@Cursor.getEntry runtime c direction.byKey.opFirst)
      (Cursor.getEntry c direction.byKey.opNext) (fun entry => pure [entry])
      firstOf (fun run => [firstOf run]) (KeysAhead direction c fuel) (KeyHere direction c fuel)
      (fun _ => True) := by
  refine KeysAhead.enumerates fun run rest browsing here => ?_
  obtain ⟨before, record, after, stands, start, split, enough⟩ := here
  rw [runs] at split
  cases split
  exact ⟨browsing, rfl, _, _, stands, rfl, dropWhile_length_lt enough, leadsTo_of_nextRun rfl⟩

/-- A loop over the keys yields the first record of every run in its direction. -/
theorem byKey_yields (live : browsing.world.cur c ≠ 0) {fuel : Nat}
    (enough : (browsing.records c).length < fuel) :
    outcome (flat c direction.byKey fuel) browsing = some (.ok
      ((runs KeyDataPair.key (direction.ordered (browsing.records c))).map firstOf)) := by
  rw [flat, keyLoop_yields live enough (byKey_enumerates direction c fuel), ← List.map_eq_flatMap]

/-- The first record of every key in the order of the duplicates, in the order of the
keys. -/
structure FirstOfEachKey (order values : KeyOrder) (content yielded : List KeyDataPair) : Prop where
  inOrder : yielded.Pairwise fun a b => order.compare a.key b.key = .lt
  first : ∀ record, record ∈ yielded ↔ record ∈ content ∧ ∀ other ∈ content,
    other.key = record.key → other = record ∨ values.compare record.data other.data = .lt

variable {order values : KeyOrder} {records : List KeyDataPair}

/-- Sorted records are sorted by their keys. -/
theorem SortedBy.keys (sorted : SortedBy order values records) :
    records.Pairwise fun a b => order.compare a.key b.key = .lt ∨ a.key = b.key :=
  sorted.imp fun either => either.imp id And.left

/-- Some of the sorted records are sorted. -/
theorem SortedBy.sublist {part : List KeyDataPair} (sorted : SortedBy order values records)
    (sublist : part.Sublist records) : SortedBy order values part := List.Pairwise.sublist sublist sorted

/-- Of two records with one key, the earlier one has the lesser value. -/
theorem SortedBy.head_lt {record other : KeyDataPair} {rest : List KeyDataPair}
    (sorted : SortedBy order values (record :: rest)) (inside : other ∈ rest)
    (same : other.key = record.key) : values.compare record.data other.data = .lt := by
  have reflexive : order.compare record.key record.key = .eq := Std.ReflCmp.compare_self
  rcases (List.pairwise_cons.mp sorted).1 other inside with before | ⟨_, before⟩
  · rw [same, reflexive] at before
    cases before
  · exact before

/-- The records after the first run have keys that come after its key. -/
theorem SortedBy.key_lt {record later : KeyDataPair} {rest : List KeyDataPair}
    (sorted : SortedBy order values (record :: rest))
    (inside : later ∈ rest.dropWhile fun other => other.key = record.key) :
    order.compare record.key later.key = .lt :=
  Place.before_of_mem_dropWhile (Direction.onward.precedes_trans order) sorted.keys inside

private theorem firstOf_mem {run : List KeyDataPair} (member : run ∈ runs KeyDataPair.key records) :
    firstOf run ∈ records := by
  obtain ⟨record, rest, rfl, _⟩ := Place.key_of_mem_runs member
  have whole := List.mem_flatten.mpr ⟨_, member, List.mem_cons_self⟩
  rw [Place.flatten_runs] at whole
  exact whole

/-- Keys in order are different. -/
theorem KeyOrder.ne_of_lt {left right : Bytes} (before : order.compare left right = .lt) :
    left ≠ right := by
  rintro rfl
  have reflexive : order.compare left left = .eq := Std.ReflCmp.compare_self
  rw [reflexive] at before
  cases before

/-- The first records of the runs are the first ones of their keys. -/
theorem firstOfEachKey_of_sorted (sorted : SortedBy order values records) :
    FirstOfEachKey order values records ((runs KeyDataPair.key records).map firstOf) := by
  induction records using runs.induct KeyDataPair.key with
  | case1 =>
      rw [runs]
      exact ⟨.nil, fun record => by simp⟩
  | case2 record rest ih =>
      have suffix := List.dropWhile_suffix (l := rest) fun other =>
        decide (other.key = record.key)
      have later := ih (sorted.sublist (suffix.sublist.cons record))
      have split : ∀ other, other ∈ record :: rest ↔
          other ∈ record :: (rest.takeWhile fun other => other.key = record.key) ∨
            other ∈ rest.dropWhile fun other => other.key = record.key := by
        intro other
        rw [← List.mem_append, List.cons_append, List.takeWhile_append_dropWhile]
      have beyond : ∀ other ∈ rest.dropWhile fun other => other.key = record.key,
          other.key ≠ record.key := fun other inside => (KeyOrder.ne_of_lt (sorted.key_lt inside)).symm
      rw [runs, List.map_cons]
      constructor
      · refine List.pairwise_cons.mpr ⟨fun other inside => ?_, later.inOrder⟩
        obtain ⟨run, member, rfl⟩ := List.mem_map.mp inside
        exact sorted.key_lt (firstOf_mem member)
      · intro candidate
        rw [List.mem_cons, later.first]
        constructor
        · rintro (rfl | ⟨inside, least⟩)
          · refine ⟨List.mem_cons_self, fun other member same => ?_⟩
            rcases List.mem_cons.mp member with rfl | inside
            · exact .inl rfl
            · exact .inr (sorted.head_lt inside same)
          · refine ⟨(split candidate).mpr (.inr inside), fun other member same => ?_⟩
            rcases (split other).mp member with first | further
            · exact absurd (same.symm.trans (Place.key_of_mem_run first)) (beyond _ inside)
            · exact least other further same
        · rintro ⟨member, least⟩
          rcases (split candidate).mp member with first | further
          · left
            have same := Place.key_of_mem_run first
            rcases least record List.mem_cons_self same.symm with equal | before
            · exact equal.symm
            · rcases List.mem_cons.mp first with equal | inside
              · exact equal
              · have after := sorted.head_lt ((List.takeWhile_prefix _).subset inside) same
                have swapped := @Std.OrientedCmp.eq_swap _ values.compare _ record.data candidate.data
                rw [before, after] at swapped
                cases swapped
          · exact .inr ⟨further, fun other inside => least other ((split other).mpr (.inr inside))⟩

private theorem sublist_of_mem_runs {run : List KeyDataPair}
    (member : run ∈ runs KeyDataPair.key records) : run.Sublist records := by
  have sublist := List.sublist_flatten_of_mem member
  rw [Place.flatten_runs] at sublist
  exact sublist

/-- In a sorted run of more than one record the first one is not the last one. -/
theorem run_eq_of_first_eq_last (sorted : SortedBy order values records)
    {run : List KeyDataPair} (member : run ∈ runs KeyDataPair.key records)
    (same : firstOf run = firstOf run.reverse) : run = [firstOf run] := by
  obtain ⟨record, rest, rfl, keys⟩ := Place.key_of_mem_runs member
  have whole := sorted.sublist (sublist_of_mem_runs member)
  rcases List.eq_nil_or_concat rest with rfl | ⟨middle, last, rfl⟩
  · rfl
  · have lastOf : firstOf (record :: middle.concat last).reverse = last := by
      simp [firstOf]
    rw [lastOf] at same
    have inside : last ∈ middle.concat last := by simp
    have before := whole.head_lt inside (keys last (List.mem_cons_of_mem _ inside))
    have equal : record = last := same
    rw [equal] at before
    exact absurd rfl (KeyOrder.ne_of_lt before)

/-- Every run is one record exactly when no key is there twice. -/
theorem nodup_keys_iff (sorted : SortedBy order values records) :
    (∀ run ∈ runs KeyDataPair.key records, firstOf run = firstOf run.reverse) ↔
      (records.map KeyDataPair.key).Nodup := by
  constructor
  · intro ends
    have singles : ∀ run ∈ runs KeyDataPair.key records, [firstOf run] = run := fun run member =>
      (run_eq_of_first_eq_last sorted member (ends run member)).symm
    have firsts : records = (runs KeyDataPair.key records).map firstOf := by
      calc records = ((runs KeyDataPair.key records).map id).flatten := by
            rw [List.map_id, Place.flatten_runs]
        _ = ((runs KeyDataPair.key records).map fun run => [firstOf run]).flatten := by
            rw [List.map_congr_left singles]
            rfl
        _ = (runs KeyDataPair.key records).map firstOf := by
            rw [← List.flatMap_def, ← List.map_eq_flatMap]
    have inOrder := (firstOfEachKey_of_sorted sorted).inOrder
    rw [← firsts] at inOrder
    exact List.pairwise_map.mpr (inOrder.imp KeyOrder.ne_of_lt)
  · intro nodup run member
    obtain ⟨record, rest, rfl, keys⟩ := Place.key_of_mem_runs member
    have distinct := nodup.sublist ((sublist_of_mem_runs member).map KeyDataPair.key)
    cases rest with
    | nil => rfl
    | cons other rest =>
        have same := keys other (by simp)
        simp [same] at distinct

/-- `ReverseByKey` yields what `ForwardByKey` yields in the opposite order, the first
record of each key, exactly when every key has one value. -/
theorem reverseByKey_iff (c : CursorRef) (browsing again : Browsing runtime) {fuel : Nat}
    (sorted : SortedBy order values (browsing.records c))
    (same : again.records c = browsing.records c) (live : browsing.world.cur c ≠ 0)
    (live' : again.world.cur c ≠ 0) (enough : (browsing.records c).length < fuel) :
    (∃ yielded, FirstOfEachKey order values (browsing.records c) yielded ∧
      outcome (flat c MultiValueCursor.forwardByKey fuel) browsing = some (.ok yielded) ∧
      outcome (flat c MultiValueCursor.reverseByKey fuel) again = some (.ok yielded.reverse)) ↔
    ((browsing.records c).map KeyDataPair.key).Nodup := by
  have forward := @byKey_yields runtime .onward c browsing live fuel enough
  have backward := @byKey_yields runtime .backward c again live' fuel (same ▸ enough)
  have mirrored : (runs KeyDataPair.key (Direction.backward.ordered (again.records c))).map firstOf =
      ((runs KeyDataPair.key (browsing.records c)).map fun run => firstOf run.reverse).reverse := by
    rw [same]
    change (runs KeyDataPair.key (browsing.records c).reverse).map firstOf = _
    rw [Place.runs_reverse, List.map_reverse, List.map_map]
    rfl
  rw [mirrored] at backward
  rw [← nodup_keys_iff sorted]
  constructor
  · rintro ⟨yielded, _, yields, reversed⟩ run member
    cases forward.symm.trans yields
    have equal := Except.ok.inj (Option.some.inj (backward.symm.trans reversed))
    exact (List.map_inj_left.mp (List.reverse_inj.mp equal) run member).symm
  · intro ends
    refine ⟨_, firstOfEachKey_of_sorted sorted, forward, backward.trans ?_⟩
    rw [List.map_congr_left fun run member => (ends run member).symm]

/-- Two keys with one value each. -/
def twoRecords (world : World .ascii) : Browsing .ascii :=
  ⟨world, fun _ => .unset [⟨[1], [5]⟩, ⟨[2], [7]⟩]⟩

/-- With one value for each key it is the reverse. -/
theorem reverseByKey_iff_two : ∃ world : World .ascii,
    History Always .none 0 multiValueCursor world ∧
    ∃ yielded, FirstOfEachKey bytewise bytewise [⟨[1], [5]⟩, ⟨[2], [7]⟩] yielded ∧
      outcome (flat 0 MultiValueCursor.forwardByKey 3) (twoRecords world) = some (.ok yielded) ∧
      outcome (flat 0 MultiValueCursor.reverseByKey 3) (twoRecords world) =
        some (.ok yielded.reverse) := by
  obtain ⟨world, history, live⟩ := history_of_replay Always .none 0 multiValueCursor
    (fun world : World .ascii => world.cur 0 ≠ 0) (by decide +kernel)
  have records : (twoRecords world).records 0 = [⟨[1], [5]⟩, ⟨[2], [7]⟩] := rfl
  have sorted : SortedBy bytewise bytewise ((twoRecords world).records 0) := by
    rw [records]
    unfold SortedBy
    decide
  refine ⟨world, history, ?_⟩
  rw [← records]
  refine (reverseByKey_iff 0 (twoRecords world) (twoRecords world) sorted rfl live live ?_).mpr ?_
  · rw [records]
    decide
  · rw [records]
    decide

/-- One key with two values: the loop backwards yields the second one. -/
theorem reverseByKey_yields_last : ∃ world : World .ascii,
    History Always .none 0 multiValueCursor world ∧
    SortedBy bytewise bytewise ((threeRecords world).records 0) ∧
    outcome (flat 0 MultiValueCursor.forwardByKey 4) (threeRecords world) =
      some (.ok [⟨[1], [5]⟩, ⟨[2], [7]⟩]) ∧
    outcome (flat 0 MultiValueCursor.reverseByKey 4) (threeRecords world) =
      some (.ok [⟨[2], [7]⟩, ⟨[1], [6]⟩]) ∧
    ¬∃ yielded, FirstOfEachKey bytewise bytewise ((threeRecords world).records 0) yielded ∧
      outcome (flat 0 MultiValueCursor.forwardByKey 4) (threeRecords world) = some (.ok yielded) ∧
      outcome (flat 0 MultiValueCursor.reverseByKey 4) (threeRecords world) =
        some (.ok yielded.reverse) := by
  obtain ⟨world, history, live⟩ := history_of_replay Always .none 0 multiValueCursor
    (fun world : World .ascii => world.cur 0 ≠ 0) (by decide +kernel)
  have forward := @byKey_yields _ .onward 0 (threeRecords world) live 4 (threeRecords_few world)
  have backward := @byKey_yields _ .backward 0 (threeRecords world) live 4 (threeRecords_few world)
  have firsts : (runs KeyDataPair.key (Direction.onward.ordered
      ((threeRecords world).records 0))).map firstOf = [⟨[1], [5]⟩, ⟨[2], [7]⟩] := by
    rw [threeRecords_records]
    simp [Direction.ordered, runs, firstOf]
  have lasts : (runs KeyDataPair.key (Direction.backward.ordered
      ((threeRecords world).records 0))).map firstOf = [⟨[2], [7]⟩, ⟨[1], [6]⟩] := by
    rw [threeRecords_records]
    simp [Direction.ordered, runs, firstOf]
  rw [firsts] at forward
  rw [lasts] at backward
  refine ⟨world, history, threeRecords_sorted world, forward, backward, ?_⟩
  rintro ⟨yielded, -, yields, reversed⟩
  cases forward.symm.trans yields
  have equal := backward.symm.trans reversed
  simp at equal

end ByKey

/-- The members of `DbCursorOp` that look for a key, or for a key and a value. -/
inductive DbCursorSearch where
  | set | setKey | setRange | getBoth | getBothRange
deriving DecidableEq

namespace DbCursorSearch

/-- Whether a record is one that the operation looks for; it leads to the first one. -/
def accepts (order values : KeyOrder) (wanted record : KeyDataPair) : DbCursorSearch → Bool
  | .set | .setKey => order.compare record.key wanted.key == .eq
  | .setRange => order.compare record.key wanted.key != .lt
  | .getBoth =>
      order.compare record.key wanted.key == .eq && values.compare record.data wanted.data == .eq
  | .getBothRange =>
      order.compare record.key wanted.key == .eq && values.compare record.data wanted.data != .lt

/-- What stands in the two `MDB_val` when the record was found. -/
def reply (wanted found : KeyDataPair) : DbCursorSearch → KeyDataPair
  | .set => wanted
  | .setKey | .setRange => found
  | .getBoth | .getBothRange => ⟨wanted.key, found.data⟩

end DbCursorSearch

section Searching

variable (order values : KeyOrder) (c : CursorRef)

/-- `mdb_cursor_get(cursor, key, data, op)` for an operation that looks for a record.
Nothing below depends on where a cursor is left that found none. `MDB_SET` is taken to lead to
the first value of the key as `MDB_SET_KEY` does, although `MoveToKey` passes no place for the
value; what depends on the value is therefore said of the calls that get a record. -/
def Browsing.mdbCursorFind (cursor : IntPtr) (op : DbCursorSearch) (wanted : KeyDataPair)
    (browsing : Browsing runtime) : (DbRetCode × KeyDataPair) × Browsing runtime :=
  match (browsing.places cursor).seek fun record => op.accepts order values wanted record with
  | some (.on before record after) =>
      ((.success, op.reply wanted record), browsing.goTo cursor (.on before record after))
  | _ => ((.notFound, wanted), browsing.goTo cursor (browsing.places cursor))

namespace Cursor

/-- What the methods that look for a record share. -/
def find (op : DbCursorSearch) (wanted : KeyDataPair) :
    Method (Browsing runtime) Exception (Bool × KeyDataPair) := do
  let handle ← Browsing.onWorld (checkDisposed c)
  let (ret, record) ← .call (Browsing.mdbCursorFind order values handle op wanted)
  if ret = .notFound then pure (false, record)
  else do
    Browsing.onWorld (checkRetCode ret)
    pure (true, record)

/-- `MoveToKey(key)` -/
def moveToKey (key : Bytes) : Method (Browsing runtime) Exception Bool := do
  let (found, _) ← find order values c .set ⟨key, []⟩
  pure found

/-- `GetAt(key, out entry)` -/
def getEntryAt (key : Bytes) : Method (Browsing runtime) Exception (Bool × KeyDataPair) :=
  find order values c .setKey ⟨key, []⟩

/-- `GetNearest(key, out entry)` -/
def getEntryNearest (key : Bytes) : Method (Browsing runtime) Exception (Bool × KeyDataPair) :=
  find order values c .setRange ⟨key, []⟩

/-- `GetCurrent(out entry)` -/
def getCurrentEntry : Method (Browsing runtime) Exception (Bool × KeyDataPair) :=
  getEntry c .getCurrent

end Cursor

namespace MultiValueCursor

/-- `GetAt(keyData, out entry)` -/
def getEntryAt (keyData : KeyDataPair) : Method (Browsing runtime) Exception (Bool × KeyDataPair) :=
  Cursor.find order values c .getBoth keyData

/-- `GetNearest(keyData, out entry)` -/
def getEntryNearest (keyData : KeyDataPair) :
    Method (Browsing runtime) Exception (Bool × KeyDataPair) :=
  Cursor.find order values c .getBothRange keyData

end MultiValueCursor

/-- The calls that bring a cursor to a record. -/
inductive Positioning where
  | moveToKey (key : Bytes)
  | getAt (key : Bytes)
  | getNearest (key : Bytes)
  | getPairAt (keyData : KeyDataPair)
  | getPairNearest (keyData : KeyDataPair)

/-- Whether the call succeeded. -/
def Positioning.run : Positioning → Method (Browsing runtime) Exception Bool
  | .moveToKey key => Cursor.moveToKey order values c key
  | .getAt key => Prod.fst <$> Cursor.getEntryAt order values c key
  | .getNearest key => Prod.fst <$> Cursor.getEntryNearest order values c key
  | .getPairAt keyData => Prod.fst <$> MultiValueCursor.getEntryAt order values c keyData
  | .getPairNearest keyData => Prod.fst <$> MultiValueCursor.getEntryNearest order values c keyData

/-- The operation of a positioning call. -/
def Positioning.op : Positioning → DbCursorSearch
  | .moveToKey _ => .set
  | .getAt _ => .setKey
  | .getNearest _ => .setRange
  | .getPairAt _ => .getBoth
  | .getPairNearest _ => .getBothRange

/-- What a positioning call looks for. -/
def Positioning.wanted : Positioning → KeyDataPair
  | .moveToKey key | .getAt key | .getNearest key => ⟨key, []⟩
  | .getPairAt keyData | .getPairNearest keyData => keyData

end Searching

namespace Cursor

/-- The operations of the iterators that start at the current record. -/
def forwardFromCurrent : CursorIterator := ⟨.getCurrent, .next⟩
def reverseFromCurrent : CursorIterator := ⟨.getCurrent, .prev⟩

/-- The one operation of the iterators that start beside it. -/
def forwardFromNext : DbCursorOp := .next
def reverseFromPrevious : DbCursorOp := .prev

end Cursor

/-- The records of one loop over a `NextItemsIterator`. -/
def flatNext (c : CursorRef) (nextOp : DbCursorOp) (fuel : Nat) :
    Method (Browsing runtime) Exception (List KeyDataPair) :=
  foreach (Cursor.getEntry c nextOp) (Cursor.getEntry c nextOp) invalidPosition
    (fun entry => pure [entry]) fuel none .start

section FromPosition

variable {direction : Direction} {c : CursorRef} {browsing : Browsing runtime}

open Place

/-- What lies ahead of a loop that goes on from where the cursor is. -/
def RecordsFollow (direction : Direction) (c : CursorRef) (ahead : List KeyDataPair)
    (browsing : Browsing runtime) : Prop :=
  ∃ place, Stands direction c place browsing ∧ place.following = ahead

/-- The next record in a direction. -/
theorem RecordsFollow.moves {record : KeyDataPair} {rest : List KeyDataPair}
    (ahead : RecordsFollow direction c (record :: rest) browsing) :
    ∃ after, Cursor.getEntry c direction.all.opNext browsing = some (.ok (true, record), after) ∧
      ∃ before, Stands direction c (.on before record rest) after := by
  obtain ⟨place, stands, following⟩ := ahead
  obtain ⟨before, found⟩ := next_of_following following
  obtain ⟨after, got, stands⟩ := stands.moved
    (direction.performs (fun d => d.all.opNext) rfl rfl) found id
  exact ⟨after, got, before, stands⟩

/-- There is none at the end. -/
theorem RecordsFollow.done (ahead : RecordsFollow direction c [] browsing) :
    ∃ item after, Cursor.getEntry c direction.all.opNext browsing =
      some (.ok (false, item), after) := by
  obtain ⟨place, stands, following⟩ := ahead
  obtain ⟨item, after, got, _⟩ := stands.missing
    (direction.performs (fun d => d.all.opNext) rfl rfl) (next_of_empty following)
    (by cases direction <;> rfl) id
  exact ⟨item, after, got⟩

private theorem fromNext_enumerates (direction : Direction) (c : CursorRef) :
    Enumerates (@Cursor.getEntry runtime c direction.all.opNext)
      (Cursor.getEntry c direction.all.opNext) (fun entry => pure [entry]) id (fun entry => [entry])
      (fun _ => RecordsFollow direction c)
      (fun record rest browsing => ∃ before, Stands direction c (.on before record rest) browsing)
      (fun _ => True) where
  left _ _ _ _ := trivial
  done started browsing ahead := by
    obtain ⟨item, after, got⟩ := ahead.done
    rw [Enumerator.fetch, ite_self]
    exact ⟨item, after, got, trivial⟩
  moves started record rest browsing ahead := by
    obtain ⟨after, got, here⟩ := ahead.moves
    rw [Enumerator.fetch, ite_self]
    exact ⟨after, got, here⟩
  runs record rest browsing here := by
    obtain ⟨before, stands⟩ := here
    exact ⟨browsing, rfl, _, stands, rfl⟩

/-- What lies ahead of a loop that begins with the current record. -/
def RecordsFromCurrent (direction : Direction) (c : CursorRef) (started : Bool)
    (ahead : List KeyDataPair) (browsing : Browsing runtime) : Prop :=
  if started then RecordsFollow direction c ahead browsing
  else ∃ before record after, Stands direction c (.on before record after) browsing ∧
    ahead = record :: after

private theorem fromCurrent_enumerates (direction : Direction) (c : CursorRef) :
    Enumerates (@Cursor.getEntry runtime c .getCurrent)
      (Cursor.getEntry c direction.all.opNext) (fun entry => pure [entry]) id (fun entry => [entry])
      (RecordsFromCurrent direction c)
      (fun record rest browsing => ∃ before, Stands direction c (.on before record rest) browsing)
      (fun _ => True) where
  left _ _ _ _ := trivial
  done started browsing ahead := by
    cases started with
    | true =>
        obtain ⟨item, after, got⟩ := RecordsFollow.done ahead
        exact ⟨item, after, got, trivial⟩
    | false =>
        obtain ⟨_, _, _, _, empty⟩ := ahead
        cases empty
  moves started record rest browsing ahead := by
    cases started with
    | true => exact RecordsFollow.moves ahead
    | false =>
        obtain ⟨before, current, after, stands, equal⟩ := ahead
        cases equal
        obtain ⟨later, got, stands⟩ := stands.moved
          (direction.performs (fun _ => .getCurrent) rfl mirrored_current.symm) rfl id
        exact ⟨later, got, before, stands⟩
  runs record rest browsing here := by
    obtain ⟨before, stands⟩ := here
    exact ⟨browsing, rfl, _, stands, rfl⟩

/-- A loop that starts beside the cursor yields what the cursor has not passed. -/
theorem flatNext_yields {place : Place KeyDataPair} (stands : Stands direction c place browsing)
    {fuel : Nat} (enough : place.following.length < fuel) :
    outcome (flatNext c direction.all.opNext fuel) browsing = some (.ok place.following) := by
  have ahead : RecordsFollow direction c place.following browsing := ⟨_, stands, rfl⟩
  obtain ⟨after, looped, _⟩ := @foreach_of_enumerates _ _ _ _ _ _ _ invalidPosition _ _ _ _ _ _
    (fromNext_enumerates direction c) _ fuel enough none Enumerator.start browsing ahead
  rw [outcome, flatNext, looped, List.flatMap_singleton']
  rfl

/-- A loop that starts at the cursor yields its record first. -/
theorem flatFromCurrent_yields {before after : List KeyDataPair} {record : KeyDataPair}
    (stands : Stands direction c (.on before record after) browsing) {fuel : Nat}
    (enough : (record :: after).length < fuel) :
    outcome (flat c ⟨.getCurrent, direction.all.opNext⟩ fuel) browsing =
      some (.ok (record :: after)) := by
  have ahead : RecordsFromCurrent direction c false (record :: after) browsing :=
    ⟨_, _, _, stands, rfl⟩
  obtain ⟨after, looped, _⟩ := @foreach_of_enumerates _ _ _ _ _ _ _ invalidPosition _ _ _ _ _ _
    (fromCurrent_enumerates direction c) _ fuel enough none Enumerator.start browsing ahead
  rw [outcome, flat, foreachItem, looped, List.flatMap_singleton']
  rfl

section Positions

variable {order values : KeyOrder} {op : DbCursorSearch} {wanted : KeyDataPair}

/-- A search that leads to a record. -/
theorem find_of_some (live : browsing.world.cur c ≠ 0) {before after : List KeyDataPair}
    {record : KeyDataPair}
    (found : ((browsing.places (browsing.world.cur c)).seek fun record =>
      op.accepts order values wanted record) = some (.on before record after)) :
    ∃ later, Cursor.find order values c op wanted browsing =
        some (.ok (true, op.reply wanted record), later) ∧
      Stands .onward c (.on before record after) later := by
  have got : Browsing.mdbCursorFind order values (browsing.world.cur c) op wanted browsing =
      ((.success, op.reply wanted record),
        browsing.goTo (browsing.world.cur c) (.on before record after)) := by
    rw [Browsing.mdbCursorFind, found]
  refine ⟨browsing.goTo (browsing.world.cur c) (.on before record after), ?_, live, if_pos rfl⟩
  rw [Cursor.find, Method.bind_of_ok (browse_of_some (Cursor.checkDisposed_of_live live)),
    Method.call_bind, got]
  rfl

/-- One that leads to none returns false. -/
theorem find_of_none (live : browsing.world.cur c ≠ 0)
    (missed : ((browsing.places (browsing.world.cur c)).seek fun record =>
      op.accepts order values wanted record) = none) :
    ∃ later, Cursor.find order values c op wanted browsing = some (.ok (false, wanted), later) := by
  have got : Browsing.mdbCursorFind order values (browsing.world.cur c) op wanted browsing =
      ((.notFound, wanted),
        browsing.goTo (browsing.world.cur c) (browsing.places (browsing.world.cur c))) := by
    rw [Browsing.mdbCursorFind, missed]
  refine ⟨browsing.goTo (browsing.world.cur c) (browsing.places (browsing.world.cur c)), ?_⟩
  rw [Cursor.find, Method.bind_of_ok (browse_of_some (Cursor.checkDisposed_of_live live)),
    Method.call_bind, got]
  rfl

/-- A search that succeeded found a record. -/
theorem find_cases {item : KeyDataPair} {later : Browsing runtime}
    (ran : Cursor.find order values c op wanted browsing = some (.ok (true, item), later)) :
    browsing.world.cur c ≠ 0 ∧ ∃ before record after,
      ((browsing.places (browsing.world.cur c)).seek fun record =>
        op.accepts order values wanted record) = some (.on before record after) ∧
      browsing.records c = before.reverse ++ record :: after := by
  have live : browsing.world.cur c ≠ 0 := by
    intro disposed
    obtain ⟨name, check⟩ := Cursor.checkDisposed_of_disposed disposed
    rw [Cursor.find, Method.bind_of_error (browse_of_some check)] at ran
    cases ran
  refine ⟨live, ?_⟩
  cases sought : (browsing.places (browsing.world.cur c)).seek fun record =>
      op.accepts order values wanted record with
  | none =>
      obtain ⟨later, missed⟩ := find_of_none live sought
      rw [missed] at ran
      cases ran
  | some there =>
      obtain ⟨before, record, after, rfl, records, _⟩ := records_of_seek sought
      exact ⟨before, record, after, rfl, records⟩

private theorem Positioning.run_eq (position : Positioning) :
    position.run order values c = (Cursor.find order values c position.op position.wanted >>=
      fun reply => pure reply.1 : Method (Browsing runtime) Exception Bool) := by
  cases position <;> rfl

/-- From every place in the same records, a positioning call that succeeded once leads
to the same record. -/
theorem Positioning.run_again {position : Positioning} {there : Browsing runtime}
    (moved : position.run order values c browsing = some (.ok true, there)) :
    ∃ before record after, browsing.records c = before.reverse ++ record :: after ∧
      ∀ again : Browsing runtime, again.world.cur c ≠ 0 →
        again.records c = browsing.records c → ∃ later,
          position.run order values c again = some (.ok true, later) ∧
          Stands .onward c (.on before record after) later := by
  rw [Positioning.run_eq] at moved
  rcases Method.bind_eq_some_iff.mp moved with ⟨_, _, absurd⟩ | ⟨⟨found, item⟩, _, ran, returned⟩
  · cases absurd
  · cases returned
    obtain ⟨live, before, record, after, sought, records⟩ := find_cases ran
    refine ⟨before, record, after, records, fun again live' same => ?_⟩
    have sought' : ((again.places (again.world.cur c)).seek fun record =>
        position.op.accepts order values position.wanted record) =
          some (.on before record after) := (seek_congr same _).trans sought
    obtain ⟨later, ran, stands⟩ := find_of_some live' sought'
    refine ⟨later, ?_, stands⟩
    rw [Positioning.run_eq, Method.bind_of_ok ran]
    rfl

end Positions

end FromPosition

/-- Bring the cursor to a record, and run a loop there. -/
def fromPosition {α : Type} (order values : KeyOrder) (c : CursorRef) (position : Positioning)
    (loop : Method (Browsing runtime) Exception α) : Method (Browsing runtime) Exception α := do
  let _ ← position.run order values c
  loop

/-- After a positioning call, the loop runs from the place it leads to. -/
theorem outcome_fromPosition {α : Type} {order values : KeyOrder} {c : CursorRef}
    {position : Positioning} {loop : Method (Browsing runtime) Exception α} {found : Bool}
    {browsing there : Browsing runtime}
    (moved : position.run order values c browsing = some (.ok found, there)) :
    outcome (fromPosition order values c position loop) browsing = outcome loop there := by
  rw [outcome, outcome, fromPosition, Method.bind_of_ok moved]

/-- The loops of the six iterators split the records at the record where a cursor was
brought to. -/
structure SplitsAt (order values : KeyOrder) (c : CursorRef) (position : Positioning) (fuel : Nat)
    (browsing : Browsing runtime) (backward : List KeyDataPair) (current : KeyDataPair)
    (onward : List KeyDataPair) : Prop where
  here : outcome (fromPosition order values c position (Cursor.getCurrentEntry c)) browsing =
    some (.ok (true, current))
  forwardFromNext : outcome (fromPosition order values c position
    (flatNext c Cursor.forwardFromNext fuel)) browsing = some (.ok onward)
  forwardFromCurrent : outcome (fromPosition order values c position
    (flat c Cursor.forwardFromCurrent fuel)) browsing = some (.ok (current :: onward))
  reverseFromPrevious : outcome (fromPosition order values c position
    (flatNext c Cursor.reverseFromPrevious fuel)) browsing = some (.ok backward)
  reverseFromCurrent : outcome (fromPosition order values c position
    (flat c Cursor.reverseFromCurrent fuel)) browsing = some (.ok (current :: backward))
  forward : outcome (fromPosition order values c position (flat c Cursor.forward fuel)) browsing =
    some (.ok (backward.reverse ++ current :: onward))

/-- Where a cursor stands on a record, the iterators split the records there. -/
theorem splitsAt_of_stands {order values : KeyOrder} {c : CursorRef} {position : Positioning}
    {fuel : Nat} {browsing there : Browsing runtime} {backward onward : List KeyDataPair}
    {current : KeyDataPair}
    (moved : position.run order values c browsing = some (.ok true, there))
    (stands : Stands .onward c (.on backward current onward) there)
    (enough : (backward.reverse ++ current :: onward).length < fuel) :
    SplitsAt order values c position fuel browsing backward current onward := by
  have mirrored : Stands .backward c (.on onward current backward) there :=
    ⟨stands.1, congrArg Place.mirror stands.2⟩
  have records : there.records c = backward.reverse ++ current :: onward :=
    congrArg Place.records stands.2
  rw [List.length_append, List.length_reverse, List.length_cons] at enough
  obtain ⟨later, got, _⟩ := stands.moved
    (Direction.onward.performs (fun _ => .getCurrent) rfl Place.mirrored_current.symm) rfl id
  refine ⟨?_, ?_, ?_, ?_, ?_, ?_⟩
  · rw [outcome_fromPosition moved, outcome, Cursor.getCurrentEntry, Cursor.getEntry, got]
    rfl
  · rw [outcome_fromPosition moved]
    exact flatNext_yields stands (by change onward.length < fuel; omega)
  · rw [outcome_fromPosition moved]
    exact flatFromCurrent_yields stands (by rw [List.length_cons]; omega)
  · rw [outcome_fromPosition moved]
    exact flatNext_yields mirrored (by change backward.length < fuel; omega)
  · rw [outcome_fromPosition moved]
    exact flatFromCurrent_yields mirrored (by rw [List.length_cons]; omega)
  · rw [outcome_fromPosition moved]
    have whole := @flat_yields runtime .onward c there fuel stands.1
      (by rw [records, List.length_append, List.length_reverse, List.length_cons]; omega)
    rw [records] at whole
    exact whole

/-- Wherever a successful call brought the cursor, and with the cursor brought there
again before each loop, the six iterators split the records at that record; on a new
cursor the iterators that start beside it yield what `Forward` and `Reverse` yield. -/
theorem iterators_split (order values : KeyOrder) (c : CursorRef) (browsing : Browsing runtime)
    {fuel : Nat} (enough : (browsing.records c).length < fuel) :
    (∀ position there, position.run order values c browsing = some (.ok true, there) →
      ∃ backward current onward,
        browsing.records c = backward.reverse ++ current :: onward ∧
        ∀ again : Browsing runtime, again.world.cur c ≠ 0 → again.records c = browsing.records c →
          SplitsAt order values c position fuel again backward current onward) ∧
    ∀ records, browsing.world.cur c ≠ 0 →
      browsing.places (browsing.world.cur c) = .unset records →
      outcome (flatNext c Cursor.forwardFromNext fuel) browsing =
          outcome (flat c Cursor.forward fuel) browsing ∧
        outcome (flatNext c Cursor.reverseFromPrevious fuel) browsing =
          outcome (flat c Cursor.reverse fuel) browsing := by
  constructor
  · intro position there moved
    obtain ⟨backward, current, onward, records, again⟩ := Positioning.run_again moved
    refine ⟨backward, current, onward, records, fun other live same => ?_⟩
    obtain ⟨later, moved, stands⟩ := again other live same
    exact splitsAt_of_stands moved stands (records ▸ enough)
  · intro records live unset
    have forward := @flat_yields runtime .onward c browsing fuel live enough
    have backward := @flat_yields runtime .backward c browsing fuel live enough
    have whole : browsing.records c = records := congrArg Place.records unset
    have stands : ∀ direction : Direction,
        Stands direction c (.unset (direction.ordered records)) browsing := by
      intro direction
      refine ⟨live, ?_⟩
      rw [unset]
      cases direction <;> rfl
    have bound : ∀ direction : Direction, (direction.ordered records).length < fuel := by
      intro direction
      rw [direction.length_ordered, ← whole]
      exact enough
    rw [whole] at forward backward
    exact ⟨(flatNext_yields (stands .onward) (bound .onward)).trans forward.symm,
      (flatNext_yields (stands .backward) (bound .backward)).trans backward.symm⟩

/-- The middle one of three records, which is the second one of its key. -/
theorem iterators_split_three : ∃ world : World .ascii,
    History Always .none 0 multiValueCursor world ∧
    ∃ backward current onward, [⟨[1], [5]⟩, ⟨[1], [6]⟩, ⟨[2], [7]⟩] =
        backward.reverse ++ current :: onward ∧
      SplitsAt bytewise bytewise 0 (.getPairAt ⟨[1], [6]⟩) 4 (threeRecords world) backward current
        onward := by
  obtain ⟨world, history, live, moved⟩ := history_of_replay Always .none 0 multiValueCursor
    (fun world : World .ascii => world.cur 0 ≠ 0 ∧
      ((Positioning.getPairAt ⟨[1], [6]⟩).run bytewise bytewise 0 (threeRecords world)).any
        (fun outcome => outcome.1.toOption = some true) = true) (by decide +kernel)
  obtain ⟨⟨result, there⟩, ran, success⟩ := (Option.any_eq_true _ _).mp moved
  have succeeded : result = .ok true := by
    cases result with
    | error exception => cases of_decide_eq_true success
    | ok found =>
        have found' : some found = some true := of_decide_eq_true success
        cases found'
        rfl
  rw [succeeded] at ran
  obtain ⟨backward, current, onward, records, again⟩ :=
    (iterators_split bytewise bytewise 0 (threeRecords world) (threeRecords_few world)).1 _ _ ran
  exact ⟨world, history, backward, current, onward, records, again (threeRecords world) live rfl⟩

end KdSoftLmdb
