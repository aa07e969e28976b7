import KdSoftLmdb.ForwardMultiple
import KdSoftLmdb.Positions

/-!
# Values from a position

The iterators of a multi-value cursor that begin at the record of the cursor or
beside it and go on over the values of its key, and the number of these values.
-/

namespace KdSoftLmdb

variable {runtime : Runtime}

namespace MultiValueCursor

def valuesForwardFromNext : DbCursorOp := .nextDup
def valuesForwardFromCurrent : CursorIterator := ⟨.getCurrent, .nextDup⟩
def valuesReverseFromPrevious : DbCursorOp := .prevDup
def valuesReverseFromCurrent : CursorIterator := ⟨.getCurrent, .prevDup⟩

end MultiValueCursor

namespace Direction

def valuesFromNext : Direction → DbCursorOp
  | .onward => MultiValueCursor.valuesForwardFromNext
  | .backward => MultiValueCursor.valuesReverseFromPrevious

def valuesFromCurrent : Direction → CursorIterator
  | .onward => MultiValueCursor.valuesForwardFromCurrent
  | .backward => MultiValueCursor.valuesReverseFromCurrent

end Direction

/-- The values of one loop over a `ValuesIterator`. -/
def flatValues (c : CursorRef) (iterator : CursorIterator) (fuel : Nat) :
    Method (Browsing runtime) Exception (List Bytes) :=
  foreachValue c iterator none fuel fun value => pure [value]

/-- The values of one loop over a `ValuesNextIterator`. -/
def flatValuesNext (c : CursorRef) (opNext : DbCursorOp) (fuel : Nat) :
    Method (Browsing runtime) Exception (List Bytes) :=
  foreach (Cursor.getData c opNext) (Cursor.getData c opNext) invalidPosition
    (fun value => pure [value]) fuel none .start

/-- `mdb_cursor_count(cursor, out count)`: the values of the key that the cursor is on. -/
def Browsing.mdbCursorCount (cursor : IntPtr) (browsing : Browsing runtime) :
    (DbRetCode × Nat) × Browsing runtime :=
  match browsing.places cursor with
  | .unset _ => ((.eInval, 0), browsing.goTo cursor (browsing.places cursor))
  | .on before record after =>
      ((.success, (before.takeWhile fun other => other.key = record.key).length + 1 +
          (after.takeWhile fun other => other.key = record.key).length),
        browsing.goTo cursor (browsing.places cursor))

/-- `MultiValueCursor.Count()` -/
def MultiValueCursor.countValues (c : CursorRef) : Method (Browsing runtime) Exception Nat := do
  let handle ← Browsing.onWorld (Cursor.checkDisposed c)
  let (ret, result) ← .call (Browsing.mdbCursorCount handle)
  Browsing.onWorld (checkRetCode ret)
  pure result

section Values

variable {direction : Direction} {c : CursorRef} {browsing : Browsing runtime} {fuel : Nat}
  {before after : List KeyDataPair} {record : KeyDataPair}

open Place

/-- The cursor is in the run of a record, on `other` and before `items`. -/
abbrev InRunOf (direction : Direction) (c : CursorRef) (before : List KeyDataPair)
    (record : KeyDataPair) (after left : List KeyDataPair) (other : KeyDataPair)
    (items : List KeyDataPair) (browsing : Browsing runtime) : Prop :=
  InRun direction c record.key (after.dropWhile fun other => other.key = record.key)
    (nextRun KeyDataPair.key (.on before record after)) left other items browsing

/-- The run of a record ends where another key begins. -/
theorem inRun_of_stands (stands : Stands direction c (.on before record after) browsing) :
    InRunOf direction c before record after before record
      (after.takeWhile fun other => other.key = record.key) browsing := by
  have split : (after.takeWhile fun other => other.key = record.key) ++
      (after.dropWhile fun other => other.key = record.key) = after :=
    List.takeWhile_append_dropWhile
  refine ⟨split.symm ▸ stands, rfl, fun item inside => ?_, by rw [split]⟩
  exact key_of_mem_run (List.mem_cons_of_mem _ inside)

/-- What lies ahead of a loop that begins with the value of the cursor. -/
def ValuesFromCurrent (direction : Direction) (c : CursorRef) (before : List KeyDataPair)
    (record : KeyDataPair) (after ahead : List KeyDataPair) (browsing : Browsing runtime) : Prop :=
  ∃ left other items, ahead = other :: items ∧
    InRunOf direction c before record after left other items browsing

/-- What lies ahead of a loop that begins with the first value of a run. -/
def ValuesFromFirst (direction : Direction) (c : CursorRef) (before : List KeyDataPair)
    (record : KeyDataPair) (after ahead : List KeyDataPair) (browsing : Browsing runtime) : Prop :=
  ∃ place, Stands direction c place browsing ∧
    firstInRun KeyDataPair.key place = some (.on before record after) ∧
    ahead = record :: after.takeWhile fun other => other.key = record.key

/-- The loops over the values of the run of a record. -/
theorem values_enumerates_later (direction : Direction) (c : CursorRef)
    (before : List KeyDataPair) (record : KeyDataPair) (after : List KeyDataPair) :
    Enumerates (@Cursor.getData runtime c direction.values.opNext)
      (Cursor.getData c direction.values.opNext) (fun value => pure [value]) KeyDataPair.data
      (fun other => [other.data])
      (fun _ items browsing => ∃ left other,
        InRunOf direction c before record after left other items browsing)
      (fun other items browsing => ∃ left,
        InRunOf direction c before record after left other items browsing)
      (fun browsing => ∃ place, Stands direction c place browsing ∧
        nextRun KeyDataPair.key place = nextRun KeyDataPair.key (.on before record after)) := by
  have foreign : ∀ other ∈ (after.dropWhile fun other => other.key = record.key).head?,
      other.key ≠ record.key := fun _ => key_ne_of_head_dropWhile
  exact (values_enumerates direction c _ foreign).later

private theorem valuesFromCurrent_enumerates (direction : Direction) (c : CursorRef)
    (before : List KeyDataPair) (record : KeyDataPair) (after : List KeyDataPair) :
    Enumerates (@Cursor.getData runtime c .getCurrent)
      (Cursor.getData c direction.values.opNext) (fun value => pure [value]) KeyDataPair.data
      (fun other => [other.data])
      (fun started => if started then fun items browsing => ∃ left other,
          InRunOf direction c before record after left other items browsing
        else ValuesFromCurrent direction c before record after)
      (fun other items browsing => ∃ left,
        InRunOf direction c before record after left other items browsing)
      (fun browsing => ∃ place, Stands direction c place browsing ∧
        nextRun KeyDataPair.key place = nextRun KeyDataPair.key (.on before record after)) := by
  refine (values_enumerates_later direction c before record after).begun ?_ ?_ ?_
  · rintro _ browsing ⟨_, _, _, _, inside⟩
    exact ⟨_, inside.stands, inside.nextRun⟩
  · rintro browsing ⟨_, _, _, empty, _⟩
    cases empty
  · rintro first rest browsing ⟨left, other, items, equal, inside⟩
    cases equal
    obtain ⟨later, got, stands⟩ := inside.stands.moved
      (direction.performs (fun _ => .getCurrent) rfl mirrored_current.symm) rfl KeyDataPair.data
    exact ⟨later, got, left, stands, inside.here, inside.same, inside.nextRun⟩

private theorem valuesFromFirst_enumerates (direction : Direction) (c : CursorRef)
    (before : List KeyDataPair) (record : KeyDataPair) (after : List KeyDataPair) :
    Enumerates (@Cursor.getData runtime c direction.values.opFirst)
      (Cursor.getData c direction.values.opNext) (fun value => pure [value]) KeyDataPair.data
      (fun other => [other.data])
      (fun started => if started then fun items browsing => ∃ left other,
          InRunOf direction c before record after left other items browsing
        else ValuesFromFirst direction c before record after)
      (fun other items browsing => ∃ left,
        InRunOf direction c before record after left other items browsing)
      (fun browsing => ∃ place, Stands direction c place browsing) := by
  refine ((values_enumerates_later direction c before record after).weaken ?_).begun ?_ ?_ ?_
  · rintro browsing ⟨place, stands, _⟩
    exact ⟨place, stands⟩
  · rintro _ browsing ⟨place, stands, _⟩
    exact ⟨place, stands⟩
  · rintro browsing ⟨_, _, _, empty⟩
    cases empty
  · rintro first rest browsing ⟨place, stands, found, equal⟩
    cases equal
    obtain ⟨later, got, stands⟩ := stands.moved
      (direction.performs (fun d => d.values.opFirst) rfl rfl) found KeyDataPair.data
    exact ⟨later, got, before, inRun_of_stands stands⟩

private theorem length_run_lt (enough : (record :: after).length < fuel) :
    (record :: after.takeWhile fun other => other.key = record.key).length < fuel := by
  have shorter := (List.takeWhile_prefix (l := after) fun other =>
    decide (other.key = record.key)).length_le
  simp only [List.length_cons] at enough ⊢
  omega

/-- A loop over the values from beside the cursor yields the rest of its run. -/
theorem valuesNext_yields (stands : Stands direction c (.on before record after) browsing)
    (enough : (record :: after).length < fuel) :
    outcome (flatValuesNext c direction.valuesFromNext fuel) browsing = some (.ok
      ((after.takeWhile fun other => other.key = record.key).map KeyDataPair.data)) := by
  have bounded := Nat.lt_of_succ_lt (length_run_lt enough)
  obtain ⟨later, looped, _⟩ := @foreach_of_enumerates _ _ _ _ _ _ _ invalidPosition _ _ _ _ _ _
    (values_enumerates_later direction c before record after) _ fuel bounded none Enumerator.start
    browsing ⟨before, record, inRun_of_stands stands⟩
  have op : direction.valuesFromNext = direction.values.opNext := by cases direction <;> rfl
  rw [outcome, flatValuesNext, op, looped, List.map_eq_flatMap]
  rfl

/-- One that begins at the cursor yields its value first. -/
theorem valuesCurrent_yields (stands : Stands direction c (.on before record after) browsing)
    (enough : (record :: after).length < fuel) :
    outcome (flatValues c direction.valuesFromCurrent fuel) browsing = some (.ok
      ((record :: after.takeWhile fun other => other.key = record.key).map KeyDataPair.data)) := by
  obtain ⟨later, looped, _⟩ := @foreach_of_enumerates _ _ _ _ _ _ _ invalidPosition _ _ _ _ _ _
    (valuesFromCurrent_enumerates direction c before record after) _ fuel (length_run_lt enough)
    none Enumerator.start browsing ⟨before, record, _, rfl, inRun_of_stands stands⟩
  have ops : direction.valuesFromCurrent = ⟨.getCurrent, direction.values.opNext⟩ := by
    cases direction <;> rfl
  rw [outcome, flatValues, foreachValue, ops, looped, List.map_eq_flatMap]
  rfl

/-- One over the whole key yields all its values, wherever among them it begins. -/
theorem values_yields (stands : Stands direction c (.on before record after) browsing)
    (enough : (before.reverse ++ record :: after).length < fuel) :
    outcome (flatValues c direction.values fuel) browsing = some (.ok
      (((before.takeWhile fun other => other.key = record.key).reverse ++
        record :: after.takeWhile fun other => other.key = record.key).map KeyDataPair.data)) := by
  obtain ⟨left, first, right, found, run⟩ :=
    @firstInRun_on _ _ _ KeyDataPair.key before record after
  have bounded : (first :: right.takeWhile fun other => other.key = first.key).length < fuel := by
    have ahead := (List.takeWhile_prefix (l := before) fun other =>
      decide (other.key = record.key)).length_le
    have behind := (List.takeWhile_prefix (l := after) fun other =>
      decide (other.key = record.key)).length_le
    rw [run]
    simp only [List.length_append, List.length_reverse, List.length_cons] at enough ⊢
    omega
  obtain ⟨later, looped, _⟩ := @foreach_of_enumerates _ _ _ _ _ _ _ invalidPosition _ _ _ _ _ _
    (valuesFromFirst_enumerates direction c left first right) _ fuel bounded none Enumerator.start
    browsing ⟨_, stands, found, rfl⟩
  rw [outcome, flatValues, foreachValue, looped, List.map_eq_flatMap, ← run]
  rfl

/-- `Count` is the number of the values of the key. -/
theorem countValues_eq (stands : Stands .onward c (.on before record after) browsing) :
    outcome (MultiValueCursor.countValues c) browsing = some (.ok
      ((before.takeWhile fun other => other.key = record.key).reverse ++
        record :: after.takeWhile fun other => other.key = record.key).length) := by
  obtain ⟨live, here⟩ := stands
  have place : browsing.places (browsing.world.cur c) = .on before record after := here
  have counted : Browsing.mdbCursorCount (browsing.world.cur c) browsing =
      ((.success, ((before.takeWhile fun other => other.key = record.key).reverse ++
          record :: after.takeWhile fun other => other.key = record.key).length),
        browsing.goTo (browsing.world.cur c) (.on before record after)) := by
    rw [Browsing.mdbCursorCount, place, List.length_append, List.length_reverse, List.length_cons]
    simp only [Nat.add_assoc, Nat.add_comm 1]
  rw [outcome, MultiValueCursor.countValues,
    Method.bind_of_ok (browse_of_some (Cursor.checkDisposed_of_live live)), Method.call_bind,
    counted]
  rfl

end Values

section ValuesFrom

open FixedMultiValueCursor (valuesOf)

variable {order values : KeyOrder} {c : CursorRef} {position : Positioning} {fuel : Nat}
  {browsing there : Browsing runtime} {before after : List KeyDataPair} {current : KeyDataPair}

/-- In sorted records the values of a key are those of the run around any of its records. -/
theorem SortedBy.valuesOf (sorted : SortedBy order values (before.reverse ++ current :: after)) :
    valuesOf (before.reverse ++ current :: after) current.key =
      ((before.takeWhile fun other => other.key = current.key).reverse ++
        current :: after.takeWhile fun other => other.key = current.key).map KeyDataPair.data := by
  have onward : SortedBy order values (current :: after) :=
    sorted.sublist (List.sublist_append_right _ _)
  have backward : SortedBy order.reversed values.reversed (current :: before) := by
    have mirrored : SortedBy order.reversed values.reversed
        (before.reverse ++ current :: after).reverse := sorted.ordered .backward
    rw [List.reverse_append, List.reverse_cons, List.reverse_reverse, List.append_assoc] at mirrored
    exact mirrored.sublist (List.sublist_append_right _ _)
  rw [FixedMultiValueCursor.valuesOf, List.filter_append, List.filter_reverse, backward.filter_key,
    List.filter_cons_of_pos (by simp), onward.filter_key]

/-- The loops over the values split the values of the key at the one where a cursor was
brought to; `Count` counts them all. -/
structure ValuesSplitAt (order values : KeyOrder) (c : CursorRef) (position : Positioning)
    (fuel : Nat) (browsing : Browsing runtime) (below : List Bytes) (value : Bytes)
    (above : List Bytes) : Prop where
  forwardFromNext : outcome (fromPosition order values c position
    (flatValuesNext c MultiValueCursor.valuesForwardFromNext fuel)) browsing = some (.ok above)
  forwardFromCurrent : outcome (fromPosition order values c position
    (flatValues c MultiValueCursor.valuesForwardFromCurrent fuel)) browsing =
      some (.ok (value :: above))
  reverseFromPrevious : outcome (fromPosition order values c position
    (flatValuesNext c MultiValueCursor.valuesReverseFromPrevious fuel)) browsing =
      some (.ok below.reverse)
  reverseFromCurrent : outcome (fromPosition order values c position
    (flatValues c MultiValueCursor.valuesReverseFromCurrent fuel)) browsing =
      some (.ok (value :: below.reverse))
  forward : outcome (fromPosition order values c position
    (flatValues c MultiValueCursor.valuesForward fuel)) browsing =
      some (.ok (below ++ value :: above))
  reverse : outcome (fromPosition order values c position
    (flatValues c MultiValueCursor.valuesReverse fuel)) browsing =
      some (.ok (below ++ value :: above).reverse)
  count : outcome (fromPosition order values c position (MultiValueCursor.countValues c)) browsing =
    some (.ok (below ++ value :: above).length)

private theorem valuesSplitAt_of_stands
    (moved : position.run order values c browsing = some (.ok true, there))
    (stands : Stands .onward c (.on before current after) there)
    (enough : (before.reverse ++ current :: after).length < fuel) :
    ValuesSplitAt order values c position fuel browsing
      ((before.takeWhile fun other => other.key = current.key).reverse.map KeyDataPair.data)
      current.data
      ((after.takeWhile fun other => other.key = current.key).map KeyDataPair.data) := by
  have mirrored : Stands .backward c (.on after current before) there :=
    ⟨stands.1, congrArg Place.mirror stands.2⟩
  have lengths := enough
  rw [List.length_append, List.length_reverse, List.length_cons] at lengths
  have ahead : (current :: after).length < fuel := by rw [List.length_cons]; omega
  have behind : (current :: before).length < fuel := by rw [List.length_cons]; omega
  have around : (after.reverse ++ current :: before).length < fuel := by
    rw [List.length_append, List.length_reverse, List.length_cons]
    omega
  refine ⟨?_, ?_, ?_, ?_, ?_, ?_, ?_⟩ <;> rw [outcome_fromPosition moved]
  · exact valuesNext_yields stands ahead
  · exact valuesCurrent_yields stands ahead
  · rw [← List.map_reverse, List.reverse_reverse]
    exact valuesNext_yields mirrored behind
  · rw [← List.map_reverse, List.reverse_reverse]
    exact valuesCurrent_yields mirrored behind
  · rw [← List.map_cons, ← List.map_append]
    exact values_yields stands enough
  · rw [← List.map_cons, ← List.map_append, ← List.map_reverse, List.reverse_append,
      List.reverse_reverse, List.reverse_cons, List.append_assoc, List.singleton_append]
    exact values_yields mirrored around
  · rw [← List.map_cons, ← List.map_append, List.length_map]
    exact countValues_eq stands

/-- Wherever a call that got a record brought the cursor of a sorted multi-value database, and
with the cursor brought there again before each loop, the iterators over values split the
values of the current key at the current one. -/
theorem valuesSplit_position (order values : KeyOrder) (c : CursorRef) (call : Getting)
    (browsing there : Browsing runtime) {fuel : Nat}
    (moved : call.positioning.run order values c browsing = some (.ok true, there))
    (sorted : SortedBy order values (browsing.records c))
    (enough : (browsing.records c).length < fuel) :
    ∃ current ∈ browsing.records c, ∃ below above,
      valuesOf (browsing.records c) current.key = below ++ current.data :: above ∧
      ∀ again : Browsing runtime, again.world.cur c ≠ 0 →
        again.records c = browsing.records c →
          ValuesSplitAt order values c call.positioning fuel again below current.data above := by
  obtain ⟨before, current, after, records, again⟩ := Positioning.run_again moved
  rw [records] at sorted enough ⊢
  refine ⟨current, by simp,
    (before.takeWhile fun other => other.key = current.key).reverse.map KeyDataPair.data,
    (after.takeWhile fun other => other.key = current.key).map KeyDataPair.data,
    ?_, fun other live same => ?_⟩
  · rw [sorted.valuesOf, List.map_append, List.map_cons]
  · obtain ⟨later, moved, stands⟩ := again other live (same.trans records.symm)
    exact valuesSplitAt_of_stands moved stands enough

end ValuesFrom

/-- At the second value of a key, both ways. -/
theorem valuesSplit_position_three : ∃ world : World .ascii,
    History Always .none 0 multiValueCursor world ∧
    ∃ current ∈ (threeRecords world).records 0, ∃ below above,
      FixedMultiValueCursor.valuesOf ((threeRecords world).records 0) current.key =
        below ++ current.data :: above ∧
      ValuesSplitAt bytewise bytewise 0 (.getPairAt ⟨[1], [6]⟩) 4 (threeRecords world) below
        current.data above := by
  obtain ⟨world, history, live, there, moved⟩ := threeRecords_moved
  obtain ⟨current, inside, below, above, split, again⟩ := valuesSplit_position bytewise bytewise 0
    (.getPairAt ⟨[1], [6]⟩) (threeRecords world) there moved (threeRecords_sorted world)
    (threeRecords_few world)
  exact ⟨world, history, current, inside, below, above, split, again (threeRecords world) live rfl⟩

end KdSoftLmdb
