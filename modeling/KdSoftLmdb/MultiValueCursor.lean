import KdSoftLmdb.Invariants.Reachable
import KdSoftLmdb.Interop.Content
import KdSoftLmdb.Library.Enumeration
import KdSoftLmdb.Library.Places

/-!
# Iterating with a cursor

`ForwardByKey` and `ReverseByKey` visit one record of each key; `ValuesForward`
and `ValuesReverse` visit the records of the current key on the same cursor, so
an inner loop moves the position from which the outer one goes on.
-/

namespace KdSoftLmdb

variable {runtime : Runtime}

/-- The members of `DbCursorOp` that look for nothing: they move over the whole
sequence or over one key, or stay. -/
inductive DbCursorOp where
  | first | firstDup | last | lastDup | next | nextDup | nextNoDup | prev | prevDup | prevNoDup
  | getCurrent
deriving DecidableEq

/-- A record of a database: `KeyDataPair`. -/
structure KeyDataPair where
  key : Bytes
  data : Bytes
deriving DecidableEq

namespace DbCursorOp

open Place

/-- Where the operation moves a cursor, if there is such a record. -/
def move : DbCursorOp → Place KeyDataPair → Option (Place KeyDataPair)
  | .first => Place.first
  | .next => Place.next
  | .nextNoDup => nextRun KeyDataPair.key
  | .firstDup => firstInRun KeyDataPair.key
  | .nextDup => nextInRun KeyDataPair.key
  | .last => mirrored Place.first
  | .prev => mirrored Place.next
  | .prevNoDup => mirrored (nextRun KeyDataPair.key)
  | .lastDup => mirrored (firstInRun KeyDataPair.key)
  | .prevDup => mirrored (nextInRun KeyDataPair.key)
  | .getCurrent => Place.current

/-- The code when there is no such record: the operations within the current key
that do not move need one. -/
def missing : DbCursorOp → DbRetCode
  | .firstDup | .lastDup | .getCurrent => .eInval
  | _ => .notFound

end DbCursorOp

/-- The wrapper's objects, and where each native cursor stands. -/
structure Browsing (runtime : Runtime) where
  world : World runtime
  places : IntPtr → Place KeyDataPair

namespace Browsing

/-- Run a method that knows nothing of the places. -/
def onWorld {α : Type} (body : Call runtime α) : Method (Browsing runtime) Exception α :=
  .zoom Browsing.world (fun world browsing => { browsing with world := world }) body

/-- Move one native cursor. -/
def goTo (cursor : IntPtr) (place : Place KeyDataPair) (browsing : Browsing runtime) :
    Browsing runtime where
  world := browsing.world.onNative fun native => native.record .mdbCursorGet [.cursor cursor]
  places other := if other = cursor then place else browsing.places other

/-- `mdb_cursor_get(cursor, key, data, op)`: a cursor that finds no record stays. -/
def mdbCursorGet (cursor : IntPtr) (op : DbCursorOp) (browsing : Browsing runtime) :
    (DbRetCode × KeyDataPair) × Browsing runtime :=
  match op.move (browsing.places cursor) with
  | some (.on before record after) =>
      ((.success, record), browsing.goTo cursor (.on before record after))
  | _ => ((op.missing, ⟨[], []⟩), browsing.goTo cursor (browsing.places cursor))

end Browsing

namespace Cursor

/-- What the get members share: `pick` is what they hand out of the record. -/
def getItem {α : Type} (pick : KeyDataPair → α) (c : CursorRef) (op : DbCursorOp) :
    Method (Browsing runtime) Exception (Bool × α) := do
  let handle ← Browsing.onWorld (checkDisposed c)
  let (ret, record) ← .call (Browsing.mdbCursorGet handle op)
  if ret = .notFound then pure (false, pick record)
  else do
    Browsing.onWorld (checkRetCode ret)
    pure (true, pick record)

/-- `Cursor.Get(out entry, op)` -/
def getEntry : CursorRef → DbCursorOp → Method (Browsing runtime) Exception (Bool × KeyDataPair) :=
  getItem id

/-- `Cursor.GetData(out data, op)` -/
def getData : CursorRef → DbCursorOp → Method (Browsing runtime) Exception (Bool × Bytes) :=
  getItem KeyDataPair.data

end Cursor

/-- `ItemsIterator` and `ValuesIterator`: the operations of a new enumerator. -/
structure CursorIterator where
  opFirst : DbCursorOp
  opNext : DbCursorOp

namespace Cursor

def forward : CursorIterator := ⟨.first, .next⟩
def reverse : CursorIterator := ⟨.last, .prev⟩

end Cursor

namespace MultiValueCursor

def forwardByKey : CursorIterator := ⟨.first, .nextNoDup⟩
def reverseByKey : CursorIterator := ⟨.last, .prevNoDup⟩
def valuesForward : CursorIterator := ⟨.firstDup, .nextDup⟩
def valuesReverse : CursorIterator := ⟨.lastDup, .prevDup⟩

end MultiValueCursor

/-- The exception of `Current` when the cursor is on no item. -/
def invalidPosition : Exception := .invalidOperation "Invalid cursor position."

/-- `foreach` over an `ItemsIterator`. -/
def foreachItem {β : Type} (c : CursorRef) (iterator : CursorIterator) (limit : Option Nat)
    (fuel : Nat) (body : KeyDataPair → Method (Browsing runtime) Exception (List β)) :
    Method (Browsing runtime) Exception (List β) :=
  foreach (Cursor.getEntry c iterator.opFirst) (Cursor.getEntry c iterator.opNext) invalidPosition
    body fuel limit .start

/-- `foreach` over a `ValuesIterator`. -/
def foreachValue {β : Type} (c : CursorRef) (iterator : CursorIterator) (limit : Option Nat)
    (fuel : Nat) (body : Bytes → Method (Browsing runtime) Exception (List β)) :
    Method (Browsing runtime) Exception (List β) :=
  foreach (Cursor.getData c iterator.opFirst) (Cursor.getData c iterator.opNext) invalidPosition
    body fuel limit .start

/-- The records of one loop over all records. -/
def flat (c : CursorRef) (iterator : CursorIterator) (fuel : Nat) :
    Method (Browsing runtime) Exception (List KeyDataPair) :=
  foreachItem c iterator none fuel fun entry => pure [entry]

/-- A loop over the keys with a loop over the values inside: the values that are
seen of each key, where `stop` tells after how many the inner loop is left. -/
def nested (c : CursorRef) (outer inner : CursorIterator) (stop : KeyDataPair → Option Nat)
    (fuel : Nat) : Method (Browsing runtime) Exception (List (Bytes × List Bytes)) :=
  foreachItem c outer none fuel fun entry => do
    let values ← foreachValue c inner (stop entry) fuel fun value => pure [value]
    pure [(entry.key, values)]

/-- The records that nested loops yield. -/
def yielded (groups : List (Bytes × List Bytes)) : List KeyDataPair :=
  groups.flatMap fun group => group.2.map fun value => ⟨group.1, value⟩

/-- The direction of an iteration. -/
inductive Direction where
  | onward | backward

namespace Direction

/-- The iterators of a direction. -/
def all : Direction → CursorIterator
  | .onward => Cursor.forward
  | .backward => Cursor.reverse

def byKey : Direction → CursorIterator
  | .onward => MultiValueCursor.forwardByKey
  | .backward => MultiValueCursor.reverseByKey

def values : Direction → CursorIterator
  | .onward => MultiValueCursor.valuesForward
  | .backward => MultiValueCursor.valuesReverse

/-- A place as it looks when one iterates in this direction. -/
def view : Direction → Place KeyDataPair → Place KeyDataPair
  | .onward => id
  | .backward => Place.mirror

/-- The records in the order of this direction. -/
def ordered : Direction → List KeyDataPair → List KeyDataPair
  | .onward => id
  | .backward => List.reverse

/-- The operation moves as `move` does in the view of this direction. -/
def Performs (direction : Direction) (op : DbCursorOp)
    (move : Place KeyDataPair → Option (Place KeyDataPair)) : Prop :=
  ∀ place, op.move place = (move (direction.view place)).map direction.view

variable (direction : Direction)

@[simp] theorem view_view (place : Place KeyDataPair) :
    direction.view (direction.view place) = place := by
  cases direction with
  | onward => rfl
  | backward => exact place.mirror_mirror

@[simp] theorem records_view (place : Place KeyDataPair) :
    (direction.view place).records = direction.ordered place.records := by
  cases direction with
  | onward => rfl
  | backward => exact place.records_mirror

@[simp] theorem length_ordered (records : List KeyDataPair) :
    (direction.ordered records).length = records.length := by
  cases direction with
  | onward => rfl
  | backward => exact List.length_reverse

private theorem mem_ordered {record : KeyDataPair} {records : List KeyDataPair} :
    record ∈ direction.ordered records ↔ record ∈ records := by
  cases direction with
  | onward => exact Iff.rfl
  | backward => exact List.mem_reverse

private theorem view_on (before after : List KeyDataPair) (record : KeyDataPair) :
    ∃ left right, direction.view (.on before record after) = .on left record right := by
  cases direction with
  | onward => exact ⟨before, after, rfl⟩
  | backward => exact ⟨after, before, rfl⟩

/-- The operations of both directions that a move and its mirror image describe. -/
theorem performs (op : Direction → DbCursorOp) {move : Place KeyDataPair → Option (Place KeyDataPair)}
    (onward : (op .onward).move = move) (backward : (op .backward).move = Place.mirrored move) :
    direction.Performs (op direction) move := by
  intro place
  cases direction with
  | onward =>
      rw [onward]
      exact Option.map_id'.symm
  | backward =>
      rw [backward]
      rfl

end Direction

section Steps

variable {direction : Direction} {c : CursorRef} {place : Place KeyDataPair}
  {browsing : Browsing runtime} {op : DbCursorOp}
  {move : Place KeyDataPair → Option (Place KeyDataPair)}

/-- The cursor is not disposed and stands here, in the view of a direction. -/
def Stands (direction : Direction) (c : CursorRef) (place : Place KeyDataPair)
    (browsing : Browsing runtime) : Prop :=
  browsing.world.cur c ≠ 0 ∧ direction.view (browsing.places (browsing.world.cur c)) = place

/-- A call that leaves the objects leaves everything. -/
theorem browse_of_some {α : Type} {body : Call runtime α} {result : Except Exception α}
    (ran : body browsing.world = some (result, browsing.world)) :
    Browsing.onWorld body browsing = some (result, browsing) :=
  Method.zoom_of_some ran

/-- A cursor that finds a record goes there. -/
theorem Stands.moved (stands : Stands direction c place browsing)
    (performs : direction.Performs op move) {before after : List KeyDataPair}
    {record : KeyDataPair} (found : move place = some (.on before record after)) {α : Type}
    (pick : KeyDataPair → α) :
    ∃ later, Cursor.getItem pick c op browsing = some (.ok (true, pick record), later) ∧
      Stands direction c (.on before record after) later := by
  obtain ⟨live, rfl⟩ := stands
  obtain ⟨left, right, seen⟩ := direction.view_on before after record
  have target : op.move (browsing.places (browsing.world.cur c)) = some (.on left record right) := by
    rw [performs, found, Option.map_some, seen]
  have got : Browsing.mdbCursorGet (browsing.world.cur c) op browsing =
      ((.success, record), browsing.goTo (browsing.world.cur c) (.on left record right)) := by
    rw [Browsing.mdbCursorGet, target]
  refine ⟨browsing.goTo (browsing.world.cur c) (.on left record right), ?_, live, ?_⟩
  · rw [Cursor.getItem, Method.bind_of_ok (browse_of_some (Cursor.checkDisposed_of_live live)),
      Method.call_bind, got]
    rfl
  · have here : (browsing.goTo (browsing.world.cur c) (.on left record right)).places
        (browsing.world.cur c) = .on left record right := if_pos rfl
    exact (congrArg direction.view here).trans (by rw [← seen, direction.view_view])

/-- A cursor that finds none stays. -/
theorem Stands.missing (stands : Stands direction c place browsing)
    (performs : direction.Performs op move) (none : move place = none)
    (code : op.missing = .notFound) {α : Type} (pick : KeyDataPair → α) :
    ∃ item later, Cursor.getItem pick c op browsing = some (.ok (false, item), later) ∧
      Stands direction c place later := by
  obtain ⟨live, rfl⟩ := stands
  have target : op.move (browsing.places (browsing.world.cur c)) = .none := by
    rw [performs, none, Option.map_none]
  have got : Browsing.mdbCursorGet (browsing.world.cur c) op browsing = ((.notFound, ⟨[], []⟩),
      browsing.goTo (browsing.world.cur c) (browsing.places (browsing.world.cur c))) := by
    rw [Browsing.mdbCursorGet, target, code]
  let stayed := browsing.goTo (browsing.world.cur c) (browsing.places (browsing.world.cur c))
  have here : stayed.places (browsing.world.cur c) = browsing.places (browsing.world.cur c) :=
    if_pos rfl
  refine ⟨pick ⟨[], []⟩, stayed, ?_, live, congrArg direction.view here⟩
  · rw [Cursor.getItem, Method.bind_of_ok (browse_of_some (Cursor.checkDisposed_of_live live)),
      Method.call_bind, got]
    rfl

end Steps

section Loops

variable {direction : Direction} {c : CursorRef} {browsing : Browsing runtime}

open Place

/-- What lies ahead of a loop over all records. -/
def RecordsAhead (direction : Direction) (c : CursorRef) (started : Bool)
    (ahead : List KeyDataPair) (browsing : Browsing runtime) : Prop :=
  if started then ∃ before record, Stands direction c (.on before record ahead) browsing
  else ∃ place, Stands direction c place browsing ∧ place.records = ahead

private theorem flat_enumerates (direction : Direction) (c : CursorRef) :
    Enumerates (@Cursor.getEntry runtime c direction.all.opFirst)
      (Cursor.getEntry c direction.all.opNext) (fun entry => pure [entry]) id (fun entry => [entry])
      (RecordsAhead direction c)
      (fun record rest browsing => ∃ before, Stands direction c (.on before record rest) browsing)
      (fun _ => True) where
  left _ _ _ _ := trivial
  done started browsing ahead := by
    cases started with
    | true =>
        obtain ⟨before, record, stands⟩ := ahead
        obtain ⟨item, after, got, _⟩ := stands.missing
          (direction.performs (fun d => d.all.opNext) rfl rfl) rfl (by cases direction <;> rfl) id
        exact ⟨item, after, got, trivial⟩
    | false =>
        obtain ⟨place, stands, empty⟩ := ahead
        obtain ⟨item, after, got, _⟩ := stands.missing
          (direction.performs (fun d => d.all.opFirst) rfl rfl) (first_of_empty empty)
          (by cases direction <;> rfl) id
        exact ⟨item, after, got, trivial⟩
  moves started record rest browsing ahead := by
    cases started with
    | true =>
        obtain ⟨before, earlier, stands⟩ := ahead
        obtain ⟨after, got, stands⟩ := stands.moved
          (direction.performs (fun d => d.all.opNext) rfl rfl) rfl id
        exact ⟨after, got, _, stands⟩
    | false =>
        obtain ⟨place, stands, records⟩ := ahead
        obtain ⟨after, got, stands⟩ := stands.moved
          (direction.performs (fun d => d.all.opFirst) rfl rfl) (first_of_records records) id
        exact ⟨after, got, _, stands⟩
  runs record rest browsing here := by
    obtain ⟨before, stands⟩ := here
    exact ⟨browsing, rfl, before, record, stands⟩

/-- The cursor is in the run of a key, on `record` and before `items`; `beyond` is
what follows the run, and `target` where the next run begins. -/
structure InRun (direction : Direction) (c : CursorRef) (key : Bytes) (beyond : List KeyDataPair)
    (target : Option (Place KeyDataPair)) (before : List KeyDataPair) (record : KeyDataPair)
    (items : List KeyDataPair) (browsing : Browsing runtime) : Prop where
  stands : Stands direction c (.on before record (items ++ beyond)) browsing
  here : record.key = key
  same : ∀ item ∈ items, item.key = key
  nextRun : nextRun KeyDataPair.key (.on before record (items ++ beyond)) = target

/-- What lies ahead of a loop over the values of a key. -/
def ValuesAhead (direction : Direction) (c : CursorRef) (key : Bytes) (beyond : List KeyDataPair)
    (target : Option (Place KeyDataPair)) (started : Bool) (ahead : List KeyDataPair)
    (browsing : Browsing runtime) : Prop :=
  if started then ∃ before record, InRun direction c key beyond target before record ahead browsing
  else ∃ before record items, ahead = record :: items ∧
    (∀ earlier ∈ before.head?, earlier.key ≠ record.key) ∧
    InRun direction c key beyond target before record items browsing

/-- The values of a key, as a `foreach` sees them. -/
theorem values_enumerates (direction : Direction) (c : CursorRef) {key : Bytes}
    {beyond : List KeyDataPair} (target : Option (Place KeyDataPair))
    (foreign : ∀ record ∈ beyond.head?, record.key ≠ key) :
    Enumerates (@Cursor.getData runtime c direction.values.opFirst)
      (Cursor.getData c direction.values.opNext) (fun value => pure [value]) KeyDataPair.data
      (fun record => [record.data]) (ValuesAhead direction c key beyond target)
      (fun record items browsing => ∃ before,
        InRun direction c key beyond target before record items browsing)
      (fun browsing => ∃ place, Stands direction c place browsing ∧
        Place.nextRun KeyDataPair.key place = target) where
  left started items browsing ahead := by
    cases started with
    | true =>
        obtain ⟨_, _, inside⟩ := ahead
        exact ⟨_, inside.stands, inside.nextRun⟩
    | false =>
        obtain ⟨_, _, _, _, _, inside⟩ := ahead
        exact ⟨_, inside.stands, inside.nextRun⟩
  done started browsing ahead := by
    cases started with
    | true =>
        obtain ⟨before, record, inside⟩ := ahead
        have last : nextInRun KeyDataPair.key (.on before record ([] ++ beyond)) = none := by
          cases beyond with
          | nil => rfl
          | cons other beyond =>
              have different : other.key ≠ record.key := inside.here ▸ foreign other rfl
              exact if_neg different
        obtain ⟨item, after, got, stands⟩ := inside.stands.missing
          (direction.performs (fun d => d.values.opNext) rfl rfl) last
          (by cases direction <;> rfl) KeyDataPair.data
        exact ⟨item, after, got, _, stands, inside.nextRun⟩
    | false =>
        obtain ⟨_, _, _, empty, _⟩ := ahead
        cases empty
  moves started first rest browsing ahead := by
    cases started with
    | true =>
        obtain ⟨before, record, inside⟩ := ahead
        have same : first.key = record.key :=
          (inside.same first List.mem_cons_self).trans inside.here.symm
        obtain ⟨after, got, stands⟩ := inside.stands.moved
          (direction.performs (fun d => d.values.opNext) rfl rfl) (if_pos same) KeyDataPair.data
        refine ⟨after, got, record :: before, stands, same.trans inside.here,
          fun item member => inside.same item (List.mem_cons_of_mem _ member), ?_⟩
        rw [nextRun_of_nextInRun same]
        exact inside.nextRun
    | false =>
        obtain ⟨before, record, items, equal, start, inside⟩ := ahead
        cases equal
        obtain ⟨after, got, stands⟩ := inside.stands.moved
          (direction.performs (fun d => d.values.opFirst) rfl rfl) (firstInRun_of_start start)
          KeyDataPair.data
        exact ⟨after, got, before, stands, inside.here, inside.same, inside.nextRun⟩
  runs record items browsing here := by
    obtain ⟨before, inside⟩ := here
    exact ⟨browsing, rfl, before, record, inside⟩

/-- The next run begins with the first of these records, or there is none. -/
def LeadsTo (place : Place KeyDataPair) (records : List KeyDataPair) : Prop :=
  match records with
  | [] => nextRun KeyDataPair.key place = none
  | record :: rest => ∃ before, nextRun KeyDataPair.key place = some (.on before record rest) ∧
      ∀ earlier ∈ before.head?, earlier.key ≠ record.key

/-- What lies ahead of a loop over the keys; `fuel` is enough for every run. -/
def KeysAhead (direction : Direction) (c : CursorRef) (fuel : Nat) (started : Bool)
    (ahead : List (List KeyDataPair)) (browsing : Browsing runtime) : Prop :=
  ∃ place records, Stands direction c place browsing ∧ ahead = runs KeyDataPair.key records ∧
    records.length < fuel ∧ if started then LeadsTo place records else place.records = records

/-- The cursor is on the first record of a run. -/
def KeyHere (direction : Direction) (c : CursorRef) (fuel : Nat) (run : List KeyDataPair)
    (rest : List (List KeyDataPair)) (browsing : Browsing runtime) : Prop :=
  ∃ before record after, Stands direction c (.on before record after) browsing ∧
    (∀ earlier ∈ before.head?, earlier.key ≠ record.key) ∧
    run :: rest = runs KeyDataPair.key (record :: after) ∧ (record :: after).length < fuel

/-- The record that a loop over the keys yields of a run. -/
def firstOf (run : List KeyDataPair) : KeyDataPair := run.headD ⟨[], []⟩

/-- What nested loops yield of a run. -/
def seenOf (stop : KeyDataPair → Option Nat) (run : List KeyDataPair) : Bytes × List Bytes :=
  ((firstOf run).key, (limited (stop (firstOf run)) run).map KeyDataPair.data)

/-- Past the run that begins at a place comes what follows the run. -/
theorem leadsTo_of_nextRun {place : Place KeyDataPair} {before after : List KeyDataPair}
    {record : KeyDataPair}
    (target : nextRun KeyDataPair.key place = nextRun KeyDataPair.key (.on before record after)) :
    LeadsTo place (after.dropWhile fun other => other.key = record.key) := by
  match dropped : after.dropWhile fun other => other.key = record.key with
  | [] =>
      rw [nextRun, dropped] at target
      rw [dropped]
      exact target
  | other :: rest =>
      have different : other.key ≠ record.key :=
        key_ne_of_head_dropWhile (congrArg List.head? dropped)
      rw [nextRun, dropped] at target
      rw [dropped]
      exact ⟨_, target, fun earlier nearest =>
        (key_of_head_takeWhile nearest).trans_ne different.symm⟩

/-- The inner loop sees the values of the run on whose first record it begins, up
to where it is left, and leaves the cursor where the next run comes next. -/
theorem values_of_run {stop : Option Nat} {fuel : Nat} {before after : List KeyDataPair}
    {record : KeyDataPair} (stands : Stands direction c (.on before record after) browsing)
    (start : ∀ earlier ∈ before.head?, earlier.key ≠ record.key)
    (enough : (record :: after).length < fuel) :
    ∃ place later, foreachValue c direction.values stop fuel (fun value => pure [value]) browsing =
        some (.ok ((limited stop
          (record :: after.takeWhile fun other => other.key = record.key)).map KeyDataPair.data),
          later) ∧
      Stands direction c place later ∧
      LeadsTo place (after.dropWhile fun other => other.key = record.key) := by
  have split : (after.takeWhile fun other => other.key = record.key) ++
      (after.dropWhile fun other => other.key = record.key) = after :=
    List.takeWhile_append_dropWhile
  have foreign : ∀ other ∈ (after.dropWhile fun other => other.key = record.key).head?,
      other.key ≠ record.key := fun _ => key_ne_of_head_dropWhile
  have ahead : ValuesAhead direction c record.key
      (after.dropWhile fun other => other.key = record.key)
      (nextRun KeyDataPair.key (.on before record after)) false
      (record :: after.takeWhile fun other => other.key = record.key) browsing := by
    refine ⟨before, record, _, rfl, start, ?_, rfl, ?_, ?_⟩
    · exact split.symm ▸ stands
    · intro item inside
      simpa using List.mem_takeWhile_imp inside
    · rw [split]
  have bounded : (record :: after.takeWhile fun other => other.key = record.key).length < fuel := by
    have shorter := (List.takeWhile_prefix (l := after) fun other =>
      decide (other.key = record.key)).length_le
    simp only [List.length_cons] at enough ⊢
    omega
  obtain ⟨later, looped, place, there, target⟩ := @foreach_of_enumerates _ _ _ _ _ _ _
    invalidPosition _ _ _ _ _ _ (values_enumerates direction c _ foreign) _ fuel bounded stop
    Enumerator.start browsing ahead
  refine ⟨place, later, ?_, there, leadsTo_of_nextRun target⟩
  rw [foreachValue, looped, List.map_eq_flatMap]

/-- Without a run ahead the operations find no record. -/
theorem KeysAhead.done {fuel : Nat} {started : Bool}
    (ahead : KeysAhead direction c fuel started [] browsing) :
    ∃ item after, Enumerator.fetch (@Cursor.getEntry runtime c direction.byKey.opFirst)
        (Cursor.getEntry c direction.byKey.opNext) started browsing =
      some (.ok (false, item), after) := by
  obtain ⟨place, records, stands, none, _, leads⟩ := ahead
  have empty : records = [] := by
    cases records with
    | nil => rfl
    | cons record rest =>
        rw [runs] at none
        cases none
  subst empty
  cases started with
  | true =>
      obtain ⟨item, after, got, _⟩ := stands.missing
        (direction.performs (fun d => d.byKey.opNext) rfl rfl) leads
        (by cases direction <;> rfl) id
      exact ⟨item, after, got⟩
  | false =>
      obtain ⟨item, after, got, _⟩ := stands.missing
        (direction.performs (fun d => d.byKey.opFirst) rfl rfl) (first_of_empty leads)
        (by cases direction <;> rfl) id
      exact ⟨item, after, got⟩

/-- The operations lead to the first record of the run ahead. -/
theorem KeysAhead.moves {fuel : Nat} {started : Bool} {run : List KeyDataPair}
    {rest : List (List KeyDataPair)}
    (ahead : KeysAhead direction c fuel started (run :: rest) browsing) :
    ∃ after, Enumerator.fetch (@Cursor.getEntry runtime c direction.byKey.opFirst)
        (Cursor.getEntry c direction.byKey.opNext) started browsing =
      some (.ok (true, firstOf run), after) ∧ KeyHere direction c fuel run rest after := by
  obtain ⟨place, records, stands, split, enough, leads⟩ := ahead
  cases records with
  | nil =>
      rw [runs] at split
      cases split
  | cons record records =>
      have first : firstOf run = record := by
        rw [runs] at split
        cases split
        rfl
      cases started with
      | true =>
          obtain ⟨before, found, start⟩ := leads
          obtain ⟨after, got, stands⟩ := stands.moved
            (direction.performs (fun d => d.byKey.opNext) rfl rfl) found id
          exact ⟨after, first ▸ got, before, record, records, stands, start, split, enough⟩
      | false =>
          obtain ⟨after, got, stands⟩ := stands.moved
            (direction.performs (fun d => d.byKey.opFirst) rfl rfl) (first_of_records leads) id
          exact ⟨after, first ▸ got, [], record, records, stands, by simp, split, enough⟩

/-- What follows a run has room in the loop that had room for it. -/
theorem dropWhile_length_lt {record : KeyDataPair} {after : List KeyDataPair} {fuel : Nat}
    (enough : (record :: after).length < fuel) :
    (after.dropWhile fun other => other.key = record.key).length < fuel := by
  have shorter := (List.dropWhile_suffix (l := after) fun other =>
    decide (other.key = record.key)).length_le
  simp only [List.length_cons] at enough
  omega

/-- A loop over the keys, given what its body does at a run. -/
theorem KeysAhead.enumerates {β : Type} {fuel : Nat}
    {body : KeyDataPair → Method (Browsing runtime) Exception (List β)}
    {output : List KeyDataPair → List β}
    (runs : ∀ run rest browsing, KeyHere direction c fuel run rest browsing → ∃ after,
      body (firstOf run) browsing = some (.ok (output run), after) ∧
        KeysAhead direction c fuel true rest after) :
    Enumerates (@Cursor.getEntry runtime c direction.byKey.opFirst)
      (Cursor.getEntry c direction.byKey.opNext) body firstOf output (KeysAhead direction c fuel)
      (KeyHere direction c fuel) (fun _ => True) where
  left _ _ _ _ := trivial
  done _ _ ahead := by
    obtain ⟨item, after, got⟩ := ahead.done
    exact ⟨item, after, got, trivial⟩
  moves _ _ _ _ ahead := ahead.moves
  runs := runs

private theorem keys_enumerates (direction : Direction) (c : CursorRef)
    (stop : KeyDataPair → Option Nat)
    (fuel : Nat) :
    Enumerates (@Cursor.getEntry runtime c direction.byKey.opFirst)
      (Cursor.getEntry c direction.byKey.opNext)
      (fun entry => do
        let values ← foreachValue c direction.values (stop entry) fuel fun value => pure [value]
        pure [(entry.key, values)])
      firstOf (fun run => [seenOf stop run]) (KeysAhead direction c fuel) (KeyHere direction c fuel)
      (fun _ => True) := by
  refine KeysAhead.enumerates fun run rest browsing here => ?_
  obtain ⟨before, record, after, stands, start, split, enough⟩ := here
  rw [runs] at split
  cases split
  obtain ⟨place, later, looped, there, leads⟩ := values_of_run stands start enough
  exact ⟨later, Method.bind_of_ok looped, place, _, there, rfl, dropWhile_length_lt enough, leads⟩

end Loops

section Results

variable {direction : Direction} {c : CursorRef} {browsing : Browsing runtime} {fuel : Nat}

/-- The records of the database that a cursor is on. -/
def Browsing.records (browsing : Browsing runtime) (c : CursorRef) : List KeyDataPair :=
  (browsing.places (browsing.world.cur c)).records

/-- What a loop yields, or how it fails. -/
def outcome {α : Type} (loop : Method (Browsing runtime) Exception α)
    (browsing : Browsing runtime) : Option (Except Exception α) :=
  (loop browsing).map Prod.fst

/-- Every loop with a disposed cursor fails in the same way, at its first item. -/
theorem outcome_of_disposed (disposed : browsing.world.cur c = 0) (enough : 0 < fuel) :
    ∃ exception, ∀ (β : Type) (iterator : CursorIterator)
      (body : KeyDataPair → Method (Browsing runtime) Exception (List β)),
      outcome (foreachItem c iterator none fuel body) browsing = some (.error exception) := by
  obtain ⟨fuel, rfl⟩ := Nat.exists_eq_succ_of_ne_zero (Nat.ne_of_gt enough)
  obtain ⟨name, check⟩ := Cursor.checkDisposed_of_disposed disposed
  refine ⟨.objectDisposed name, fun β iterator body => ?_⟩
  have threw : Enumerator.fetch (Cursor.getEntry c iterator.opFirst)
      (Cursor.getEntry c iterator.opNext)
      (Enumerator.start : Enumerator KeyDataPair).isInitialized browsing =
        some (.error (.objectDisposed name), browsing) :=
    Method.bind_of_error (Method.zoom_of_some check)
  rw [outcome, foreachItem, foreach, if_neg (by simp), foreachRound_of_error threw]
  rfl

/-- `Forward` and `Reverse` yield every record. -/
theorem flat_yields (live : browsing.world.cur c ≠ 0)
    (enough : (browsing.records c).length < fuel) :
    outcome (flat c direction.all fuel) browsing =
      some (.ok (direction.ordered (browsing.records c))) := by
  have ahead : RecordsAhead direction c false (direction.ordered (browsing.records c)) browsing :=
    ⟨_, ⟨live, rfl⟩, direction.records_view _⟩
  obtain ⟨after, looped, _⟩ := @foreach_of_enumerates _ _ _ _ _ _ _ invalidPosition _ _ _ _ _ _
    (flat_enumerates direction c) _ fuel (by simpa using enough) none Enumerator.start browsing
    ahead
  rw [outcome, flat, foreachItem, looped, List.flatMap_singleton']
  rfl

/-- A loop over the keys visits every run of the records once, in its direction. -/
theorem keyLoop_yields {β : Type} {output : List KeyDataPair → List β}
    {body : KeyDataPair → Method (Browsing runtime) Exception (List β)}
    (live : browsing.world.cur c ≠ 0) (enough : (browsing.records c).length < fuel)
    (enumerates : Enumerates (@Cursor.getEntry runtime c direction.byKey.opFirst)
      (Cursor.getEntry c direction.byKey.opNext) body firstOf output (KeysAhead direction c fuel)
      (KeyHere direction c fuel) (fun _ => True)) :
    outcome (foreachItem c direction.byKey none fuel body) browsing =
      some (.ok ((runs KeyDataPair.key (direction.ordered (browsing.records c))).flatMap
        output)) := by
  have bound : (direction.ordered (browsing.records c)).length < fuel := by simpa using enough
  have ahead : KeysAhead direction c fuel false
      (runs KeyDataPair.key (direction.ordered (browsing.records c))) browsing :=
    ⟨_, _, ⟨live, rfl⟩, rfl, bound, direction.records_view _⟩
  have fewer : (runs KeyDataPair.key (direction.ordered (browsing.records c))).length < fuel :=
    Nat.lt_of_le_of_lt (Place.length_runs_le _) bound
  obtain ⟨after, looped, _⟩ := @foreach_of_enumerates _ _ _ _ _ _ _ invalidPosition _ _ _ _ _ _
    enumerates _ fuel fewer none Enumerator.start browsing ahead
  rw [outcome, foreachItem, looped]
  rfl

private theorem nested_yields (live : browsing.world.cur c ≠ 0)
    (enough : (browsing.records c).length < fuel) (stop : KeyDataPair → Option Nat) :
    outcome (nested c direction.byKey direction.values stop fuel) browsing =
      some (.ok ((runs KeyDataPair.key (direction.ordered (browsing.records c))).map
        (seenOf stop))) := by
  rw [nested, keyLoop_yields live enough (keys_enumerates direction c stop fuel),
    ← List.map_eq_flatMap]

/-- What the runs of the records hold, taken together, is the records. -/
theorem yielded_runs (records : List KeyDataPair) :
    yielded ((runs KeyDataPair.key records).map (seenOf fun _ => none)) = records := by
  have each : ∀ run ∈ runs KeyDataPair.key records,
      ((run.map KeyDataPair.data).map fun value =>
        (⟨(firstOf run).key, value⟩ : KeyDataPair)) = run := by
    intro run member
    obtain ⟨record, rest, rfl, same⟩ := Place.key_of_mem_runs member
    have unchanged : ∀ item ∈ record :: rest, (⟨record.key, item.data⟩ : KeyDataPair) = item :=
      fun item inside => congrArg (KeyDataPair.mk · item.data) (same item inside).symm
    rw [List.map_map]
    exact (List.map_congr_left unchanged).trans (List.map_id' _)
  calc yielded ((runs KeyDataPair.key records).map (seenOf fun _ => none))
      = (runs KeyDataPair.key records).flatMap fun run =>
          (run.map KeyDataPair.data).map fun value => ⟨(firstOf run).key, value⟩ :=
        List.flatMap_map ..
    _ = (runs KeyDataPair.key records).flatMap id := List.flatMap_congr each
    _ = records := by rw [List.flatMap_id, Place.flatten_runs]

/-- The records of a multi-value database in the order of LMDB: by keys, and the
values of one key in the order of the duplicates. -/
def SortedBy (order values : KeyOrder) (records : List KeyDataPair) : Prop :=
  records.Pairwise fun a b =>
    order.compare a.key b.key = .lt ∨ a.key = b.key ∧ values.compare a.data b.data = .lt

/-- Key `a` comes before key `b` in the direction. -/
def Direction.Precedes (direction : Direction) (order : KeyOrder) (a b : Bytes) : Prop :=
  match direction with
  | .onward => order.compare a b = .lt
  | .backward => order.compare b a = .lt

/-- A loop over the keys visited every key of the records, each once and in order. -/
structure VisitsEveryKey (direction : Direction) (order : KeyOrder) (records : List KeyDataPair)
    (visited : List Bytes) : Prop where
  inOrder : visited.Pairwise (direction.Precedes order)
  once : visited.Nodup
  every : ∀ key, key ∈ visited ↔ ∃ record ∈ records, record.key = key

/-- The order of a direction is transitive. -/
theorem Direction.precedes_trans (direction : Direction) (order : KeyOrder) (a b c : Bytes)
    (first : direction.Precedes order a b) (second : direction.Precedes order b c) :
    direction.Precedes order a c := by
  cases direction with
  | onward => exact Std.TransCmp.lt_trans first second
  | backward => exact Std.TransCmp.lt_trans second first

/-- No key precedes itself. -/
theorem Direction.not_precedes_self (direction : Direction) (order : KeyOrder) (a : Bytes) :
    ¬direction.Precedes order a a := by
  have same : order.compare a a = .eq := Std.ReflCmp.compare_self
  cases direction <;> simp [Direction.Precedes, same]

/-- The records in a direction are sorted by key in that direction. -/
theorem Direction.sorted_ordered (direction : Direction) {order values : KeyOrder}
    {records : List KeyDataPair} (sorted : SortedBy order values records) :
    (direction.ordered records).Pairwise fun a b =>
      direction.Precedes order a.key b.key ∨ a.key = b.key := by
  cases direction with
  | onward => exact sorted.imp fun either => either.imp id And.left
  | backward =>
      refine List.pairwise_reverse.mpr (sorted.imp ?_)
      exact fun either => either.imp id fun same => same.1.symm

private theorem visitsEveryKey_of_sorted (direction : Direction) {order values : KeyOrder}
    {records : List KeyDataPair} (sorted : SortedBy order values records)
    (stop : KeyDataPair → Option Nat) :
    VisitsEveryKey direction order records
      (((runs KeyDataPair.key (direction.ordered records)).map (seenOf stop)).map Prod.fst) := by
  have inOrder : (((runs KeyDataPair.key (direction.ordered records)).map (seenOf stop)).map
      Prod.fst).Pairwise (direction.Precedes order) := by
    rw [List.map_map]
    refine List.pairwise_map.mpr ?_
    refine (Place.pairwise_runs (direction.precedes_trans order)
      (direction.sorted_ordered sorted)).imp_of_mem ?_
    intro left right inLeft inRight precedes
    obtain ⟨a, _, rfl, _⟩ := Place.key_of_mem_runs inLeft
    obtain ⟨b, _, rfl, _⟩ := Place.key_of_mem_runs inRight
    exact precedes a List.mem_cons_self b List.mem_cons_self
  refine ⟨inOrder, ?_, ?_⟩
  · refine inOrder.imp ?_
    rintro a _ precedes rfl
    exact direction.not_precedes_self order a precedes
  · intro key
    have members : ∀ record, record ∈ records ↔
        ∃ run ∈ runs KeyDataPair.key (direction.ordered records), record ∈ run := by
      intro record
      rw [← List.mem_flatten, Place.flatten_runs, direction.mem_ordered]
    simp only [List.map_map, List.mem_map]
    constructor
    · rintro ⟨run, member, rfl⟩
      obtain ⟨record, rest, rfl, _⟩ := Place.key_of_mem_runs member
      exact ⟨record, (members record).mpr ⟨_, member, List.mem_cons_self⟩, rfl⟩
    · rintro ⟨record, inside, rfl⟩
      obtain ⟨run, member, inRun⟩ := (members record).mp inside
      obtain ⟨first, rest, rfl, same⟩ := Place.key_of_mem_runs member
      exact ⟨_, member, (same record inRun).symm⟩

/-- From every start state of a cursor, loops over the keys and inside over the
values of a key yield what one loop over all records yields, which is every
record in order; wherever the inner loops are left, the outer loop visits every
key once and in order. -/
theorem nested_yields_flat (direction : Direction) {order values : KeyOrder} (c : CursorRef)
    (browsing : Browsing runtime) {fuel : Nat}
    (sorted : SortedBy order values (browsing.records c))
    (enough : (browsing.records c).length < fuel) :
    (outcome (nested c direction.byKey direction.values (fun _ => none) fuel) browsing).map
        (Except.map yielded) = outcome (flat c direction.all fuel) browsing ∧
      (browsing.world.cur c ≠ 0 →
        outcome (flat c direction.all fuel) browsing =
            some (.ok (direction.ordered (browsing.records c))) ∧
        ∀ stop, ∃ groups,
          outcome (nested c direction.byKey direction.values stop fuel) browsing =
              some (.ok groups) ∧
            VisitsEveryKey direction order (browsing.records c) (groups.map Prod.fst)) := by
  by_cases live : browsing.world.cur c = 0
  · obtain ⟨exception, fails⟩ := outcome_of_disposed live (Nat.zero_lt_of_lt enough)
    refine ⟨?_, fun other => absurd live other⟩
    rw [nested, fails, flat, fails]
    rfl
  · refine ⟨?_, fun _ => ⟨flat_yields live enough, fun stop =>
      ⟨_, nested_yields live enough stop, visitsEveryKey_of_sorted direction sorted stop⟩⟩⟩
    rw [nested_yields live enough, flat_yields live enough]
    exact congrArg (fun records => some (Except.ok records)) (yielded_runs _)

end Results

/-- A cursor of a multi-value database. -/
def multiValueCursor : List Op :=
  [.beginDatabaseTransaction .none none .success,
    .openMultiValueDatabase 0 (some "multi") (some ⟨⟨0x40000, none, none⟩, 0, none, none⟩)
      ⟨.success, 2, .success, .success⟩,
    .openCursor 0 0 .success]

/-- Two keys, the first one with two values; the cursor is on its second value. -/
def threeRecords (world : World .ascii) : Browsing .ascii :=
  ⟨world, fun _ => .on [⟨[1], [5]⟩] ⟨[1], [6]⟩ [⟨[2], [7]⟩]⟩

/-- The records of the example. -/
theorem threeRecords_records (world : World .ascii) :
    (threeRecords world).records 0 = [⟨[1], [5]⟩, ⟨[1], [6]⟩, ⟨[2], [7]⟩] := rfl

/-- They are fewer than the fuel. -/
theorem threeRecords_few (world : World .ascii) : ((threeRecords world).records 0).length < 4 := by
  rw [threeRecords_records]
  decide

/-- They are sorted. -/
theorem threeRecords_sorted (world : World .ascii) :
    SortedBy bytewise bytewise ((threeRecords world).records 0) := by
  rw [threeRecords_records]
  unfold SortedBy
  decide

/-- Three records, backwards by either loop. -/
theorem nested_yields_flat_three : ∃ world : World .ascii,
    History Always .none 0 multiValueCursor world ∧
    outcome (flat 0 Cursor.reverse 4) (threeRecords world) =
      some (.ok [⟨[2], [7]⟩, ⟨[1], [6]⟩, ⟨[1], [5]⟩]) ∧
    (outcome (nested 0 MultiValueCursor.reverseByKey MultiValueCursor.valuesReverse
        (fun _ => none) 4) (threeRecords world)).map (Except.map yielded) =
      some (.ok [⟨[2], [7]⟩, ⟨[1], [6]⟩, ⟨[1], [5]⟩]) := by
  obtain ⟨world, history, live⟩ := history_of_replay Always .none 0 multiValueCursor
    (fun world : World .ascii => world.cur 0 ≠ 0) (by decide +kernel)
  obtain ⟨same, yields⟩ := nested_yields_flat .backward 0 (threeRecords world)
    (threeRecords_sorted world) (threeRecords_few world)
  exact ⟨world, history, (yields live).1, same.trans (yields live).1⟩

end KdSoftLmdb
