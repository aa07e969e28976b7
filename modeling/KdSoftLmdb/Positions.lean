import KdSoftLmdb.Iterators

/-!
# Keys from a position

The iterators of a multi-value cursor that begin at the record of the cursor or
beside it, and go on by keys.
-/

namespace KdSoftLmdb

variable {runtime : Runtime}

/-- A flag and a variable as one value: the variable means nothing when the flag is not set. -/
def shown {α : Type} (reply : Bool × α) : Option α := if reply.1 then some reply.2 else none

namespace MultiValueCursor

/-- `GetNextByKey(out entry)` -/
def getNextByKey (c : CursorRef) : Method (Browsing runtime) Exception (Bool × KeyDataPair) :=
  Cursor.getEntry c .nextNoDup

/-- `GetPreviousByKey(out entry)` -/
def getPreviousByKey (c : CursorRef) : Method (Browsing runtime) Exception (Bool × KeyDataPair) :=
  Cursor.getEntry c .prevNoDup

def forwardFromNextByKey : DbCursorOp := .nextNoDup
def forwardFromCurrentByKey : CursorIterator := ⟨.getCurrent, .nextNoDup⟩
def reverseFromNextByKey : DbCursorOp := .prevNoDup
def reverseFromCurrentByKey : CursorIterator := ⟨.getCurrent, .prevNoDup⟩

end MultiValueCursor

namespace Direction

def fromNextByKey : Direction → DbCursorOp
  | .onward => MultiValueCursor.forwardFromNextByKey
  | .backward => MultiValueCursor.reverseFromNextByKey

def fromCurrentByKey : Direction → CursorIterator
  | .onward => MultiValueCursor.forwardFromCurrentByKey
  | .backward => MultiValueCursor.reverseFromCurrentByKey

/-- The call that gets the record of the next key in a direction. -/
def getByKey (c : CursorRef) :
    Direction → Method (Browsing runtime) Exception (Bool × KeyDataPair)
  | .onward => MultiValueCursor.getNextByKey c
  | .backward => MultiValueCursor.getPreviousByKey c

end Direction

/-- The calls that get a record by its key. `MoveToKey` is not one of them: it hands LMDB no
place for a value, and LMDB then says which key the cursor is on, but not which value. -/
inductive Getting where
  | getAt (key : Bytes)
  | getNearest (key : Bytes)
  | getPairAt (keyData : KeyDataPair)
  | getPairNearest (keyData : KeyDataPair)

/-- As a call that brings the cursor somewhere. -/
def Getting.positioning : Getting → Positioning
  | .getAt key => .getAt key
  | .getNearest key => .getNearest key
  | .getPairAt keyData => .getPairAt keyData
  | .getPairNearest keyData => .getPairNearest keyData

section Keys

variable {direction : Direction} {c : CursorRef} {browsing : Browsing runtime} {fuel : Nat}

open Place

/-- From the first record of a run the next run comes next. -/
theorem KeyHere.onward {run : List KeyDataPair} {rest : List (List KeyDataPair)}
    (here : KeyHere direction c fuel run rest browsing) :
    KeysAhead direction c fuel true rest browsing := by
  obtain ⟨before, record, after, stands, start, split, enough⟩ := here
  rw [runs] at split
  cases split
  exact ⟨_, _, stands, rfl, dropWhile_length_lt enough, leadsTo_of_nextRun rfl⟩

/-- A loop over the keys that are ahead. -/
theorem keysAhead_enumerates (direction : Direction) (c : CursorRef) (fuel : Nat) :
    Enumerates (@Cursor.getEntry runtime c direction.byKey.opFirst)
      (Cursor.getEntry c direction.byKey.opNext) (fun entry => pure [entry])
      firstOf (fun run => [firstOf run]) (KeysAhead direction c fuel)
      (fun _ => KeysAhead direction c fuel true) (fun _ => True) where
  left _ _ _ _ := trivial
  done _ _ ahead := by
    obtain ⟨item, after, got⟩ := ahead.done
    exact ⟨item, after, got, trivial⟩
  moves _ _ _ _ ahead := by
    obtain ⟨after, got, here⟩ := ahead.moves
    exact ⟨after, got, here.onward⟩
  runs _ _ browsing ahead := ⟨browsing, rfl, ahead⟩

/-- What lies ahead of a loop over the keys that begins at the record of the cursor. -/
def KeysFromCurrent (direction : Direction) (c : CursorRef) (fuel : Nat)
    (ahead : List (List KeyDataPair)) (browsing : Browsing runtime) : Prop :=
  ∃ before record after, Stands direction c (.on before record after) browsing ∧
    ahead = [record] :: runs KeyDataPair.key (after.dropWhile fun other => other.key = record.key) ∧
    (record :: after).length < fuel

private theorem keysFromCurrent_enumerates (direction : Direction) (c : CursorRef) (fuel : Nat) :
    Enumerates (@Cursor.getEntry runtime c .getCurrent)
      (Cursor.getEntry c direction.byKey.opNext) (fun entry => pure [entry])
      firstOf (fun run => [firstOf run])
      (fun started => if started then KeysAhead direction c fuel true
        else KeysFromCurrent direction c fuel)
      (fun _ => KeysAhead direction c fuel true) (fun _ => True) := by
  refine (keysAhead_enumerates direction c fuel).begun (fun _ _ _ => trivial) ?_ ?_
  · rintro browsing ⟨_, _, _, _, empty, _⟩
    cases empty
  · rintro first rest browsing ⟨before, record, after, stands, equal, enough⟩
    cases equal
    obtain ⟨later, got, stands⟩ := stands.moved
      (direction.performs (fun _ => .getCurrent) rfl mirrored_current.symm) rfl id
    exact ⟨later, got, _, _, stands, rfl, dropWhile_length_lt enough, leadsTo_of_nextRun rfl⟩

/-- The runs beyond the one of the record fit into the loop. -/
theorem length_runs_beyond {record : KeyDataPair} {after : List KeyDataPair}
    (enough : (record :: after).length < fuel) :
    (runs KeyDataPair.key (after.dropWhile fun other => other.key = record.key)).length + 1 <
      fuel := by
  have runs := @length_runs_le _ _ _ KeyDataPair.key
    (after.dropWhile fun other => other.key = record.key)
  have shorter := (List.dropWhile_suffix (l := after) fun other =>
    decide (other.key = record.key)).length_le
  simp only [List.length_cons] at enough
  omega

variable {before after : List KeyDataPair} {record : KeyDataPair}

/-- A loop over the keys from beside the cursor yields the first records of the runs
beyond the one of the cursor. -/
theorem keysNext_yields (stands : Stands direction c (.on before record after) browsing)
    (enough : (record :: after).length < fuel) :
    outcome (flatNext c direction.fromNextByKey fuel) browsing = some (.ok
      ((runs KeyDataPair.key (after.dropWhile fun other => other.key = record.key)).map
        firstOf)) := by
  have ahead : KeysAhead direction c fuel true
      (runs KeyDataPair.key (after.dropWhile fun other => other.key = record.key)) browsing :=
    ⟨_, _, stands, rfl, dropWhile_length_lt enough, leadsTo_of_nextRun rfl⟩
  have bounded := length_runs_beyond enough
  obtain ⟨later, looped, _⟩ := @foreach_of_enumerates _ _ _ _ _ _ _ invalidPosition _ _ _ _ _ _
    (keysAhead_enumerates direction c fuel).later _ fuel (by omega) none Enumerator.start browsing
    ahead
  have op : direction.fromNextByKey = direction.byKey.opNext := by cases direction <;> rfl
  rw [outcome, flatNext, op, looped, List.map_eq_flatMap]
  rfl

/-- One that begins at the cursor yields its record first. -/
theorem keysCurrent_yields (stands : Stands direction c (.on before record after) browsing)
    (enough : (record :: after).length < fuel) :
    outcome (flat c direction.fromCurrentByKey fuel) browsing = some (.ok (record ::
      (runs KeyDataPair.key (after.dropWhile fun other => other.key = record.key)).map
        firstOf)) := by
  have ahead : KeysFromCurrent direction c fuel ([record] ::
      runs KeyDataPair.key (after.dropWhile fun other => other.key = record.key)) browsing :=
    ⟨_, _, _, stands, rfl, enough⟩
  have bounded := length_runs_beyond enough
  obtain ⟨later, looped, _⟩ := @foreach_of_enumerates _ _ _ _ _ _ _ invalidPosition _ _ _ _ _ _
    (keysFromCurrent_enumerates direction c fuel) (_ :: _) fuel
    (by rw [List.length_cons]; exact bounded) none Enumerator.start browsing
    ahead
  have ops : direction.fromCurrentByKey = ⟨.getCurrent, direction.byKey.opNext⟩ := by
    cases direction <;> rfl
  rw [outcome, flat, foreachItem, ops, looped, ← List.map_eq_flatMap]
  rfl

/-- The first records of the runs begin with the first record. -/
theorem head?_firsts (records : List KeyDataPair) :
    ((runs KeyDataPair.key records).map firstOf).head? = records.head? := by
  cases records with
  | nil =>
      rw [runs]
      rfl
  | cons record rest =>
      rw [runs]
      rfl

/-- One call gets the first record beyond the run of the cursor, if there is one. -/
theorem getByKey_yields (stands : Stands direction c (.on before record after) browsing) :
    ∃ reply, outcome (direction.getByKey c) browsing = some (.ok reply) ∧
      shown reply = (after.dropWhile fun other => other.key = record.key).head? := by
  have call : @Direction.getByKey runtime c direction =
      Cursor.getEntry c direction.byKey.opNext := by
    cases direction <;> rfl
  have performs := direction.performs (fun d => d.byKey.opNext) rfl rfl
  rw [call, outcome]
  cases dropped : after.dropWhile fun other => decide (other.key = record.key) with
  | nil =>
      have none : nextRun KeyDataPair.key (.on before record after) = .none := by
        rw [nextRun, dropped]
      obtain ⟨item, later, got, _⟩ := stands.missing performs none (by cases direction <;> rfl) id
      rw [Cursor.getEntry, got]
      exact ⟨(false, item), rfl, rfl⟩
  | cons other rest =>
      have found : nextRun KeyDataPair.key (.on before record after) = some (.on
          ((after.takeWhile fun other => other.key = record.key).reverse ++ record :: before)
          other rest) := by
        rw [nextRun, dropped]
      obtain ⟨later, got, _⟩ := stands.moved performs found id
      rw [Cursor.getEntry, got]
      exact ⟨(true, other), rfl, rfl⟩

end Keys

section Orders

/-- The order of the keys seen from the other end. -/
def KeyOrder.reversed (order : KeyOrder) : KeyOrder :=
  ⟨fun a b => order.compare b a, inferInstance⟩

/-- An order as it looks when one iterates in this direction. -/
def Direction.orderOf : Direction → KeyOrder → KeyOrder
  | .onward => id
  | .backward => KeyOrder.reversed

variable {order values : KeyOrder} {before after records : List KeyDataPair} {record : KeyDataPair}

/-- The records in a direction are sorted as that direction sees it. -/
theorem SortedBy.ordered (sorted : SortedBy order values records) (direction : Direction) :
    SortedBy (direction.orderOf order) (direction.orderOf values) (direction.ordered records) := by
  cases direction with
  | onward => exact sorted
  | backward =>
      refine List.pairwise_reverse.mpr (sorted.imp ?_)
      exact fun either => either.imp id fun same => ⟨same.1.symm, same.2⟩

/-- Of sorted records, those behind a record with its key stand next to it. -/
theorem SortedBy.filter_key (sorted : SortedBy order values (record :: after)) :
    after.filter (fun other => other.key = record.key) =
      after.takeWhile fun other => other.key = record.key := by
  have beyond : (after.dropWhile fun other => other.key = record.key).filter
      (fun other => other.key = record.key) = [] := by
    refine List.filter_eq_nil_iff.mpr fun other inside same => ?_
    exact KeyOrder.ne_of_lt (sorted.key_lt inside) (of_decide_eq_true same).symm
  have here : (after.takeWhile fun other => other.key = record.key).filter
      (fun other => other.key = record.key) =
        after.takeWhile fun other => other.key = record.key :=
    List.filter_eq_self.mpr fun _ => List.mem_takeWhile_imp
  calc after.filter (fun other => other.key = record.key)
      = ((after.takeWhile fun other => other.key = record.key) ++
          after.dropWhile fun other => other.key = record.key).filter
            fun other => other.key = record.key := by
        rw [List.takeWhile_append_dropWhile]
    _ = after.takeWhile fun other => other.key = record.key := by
        rw [List.filter_append, here, beyond, List.append_nil]

/-- The records with greater keys are those beyond the run of a record. -/
theorem SortedBy.filter_beyond
    (sorted : SortedBy order values (before.reverse ++ record :: after)) :
    (before.reverse ++ record :: after).filter
        (fun other => order.compare record.key other.key = .lt) =
      after.dropWhile fun other => other.key = record.key := by
  obtain ⟨_, onward, across⟩ := List.pairwise_append.mp sorted
  have self : order.compare record.key record.key = .eq := Std.ReflCmp.compare_self
  have behind : before.reverse.filter
      (fun other => order.compare record.key other.key = .lt) = [] := by
    refine List.filter_eq_nil_iff.mpr fun other inside greater => ?_
    rcases across other inside record List.mem_cons_self with smaller | ⟨same, _⟩
    · exact Direction.onward.not_precedes_self order _
        (Std.TransCmp.lt_trans smaller (of_decide_eq_true greater))
    · exact KeyOrder.ne_of_lt (of_decide_eq_true greater) same.symm
  have here : (after.takeWhile fun other => other.key = record.key).filter
      (fun other => order.compare record.key other.key = .lt) = [] := by
    refine List.filter_eq_nil_iff.mpr fun other inside greater => ?_
    have same : other.key = record.key := Place.key_of_mem_run (List.mem_cons_of_mem _ inside)
    exact KeyOrder.ne_of_lt (of_decide_eq_true greater) same.symm
  have beyond : (after.dropWhile fun other => other.key = record.key).filter
      (fun other => order.compare record.key other.key = .lt) =
        after.dropWhile fun other => other.key = record.key :=
    List.filter_eq_self.mpr fun _ inside => decide_eq_true (SortedBy.key_lt onward inside)
  rw [List.filter_append, behind, List.nil_append, List.filter_cons_of_neg (by simp [self]),
    ← List.takeWhile_append_dropWhile (p := fun other => decide (other.key = record.key)) (l := after),
    List.filter_append, here, beyond, List.nil_append, List.takeWhile_append_dropWhile]

end Orders

section KeysFrom

variable {order values : KeyOrder} {c : CursorRef} {position : Positioning} {fuel : Nat}
  {browsing there : Browsing runtime} {before after : List KeyDataPair} {current : KeyDataPair}

/-- The records whose keys come after the one of a record in a direction. -/
def Direction.beyond (direction : Direction) (order : KeyOrder) (records : List KeyDataPair)
    (current : KeyDataPair) : List KeyDataPair :=
  (direction.ordered records).filter fun other =>
    (direction.orderOf order).compare current.key other.key = .lt

/-- From the record where a cursor was brought to, the loops over the keys go on with the
keys that come after its key, in either direction; each yields the record of a key that
is the first one in its direction. The call that gets the record of the next key gets the
first of these. -/
structure KeysFrom (order values : KeyOrder) (c : CursorRef) (position : Positioning) (fuel : Nat)
    (browsing : Browsing runtime) (current : KeyDataPair) (direction : Direction) : Prop where
  here : outcome (fromPosition order values c position (Cursor.getCurrentEntry c)) browsing =
    some (.ok (true, current))
  further : ∃ yielded, FirstOfEachKey (direction.orderOf order) (direction.orderOf values)
      (direction.beyond order (browsing.records c) current) yielded ∧
    outcome (fromPosition order values c position (flatNext c direction.fromNextByKey fuel))
        browsing = some (.ok yielded) ∧
    outcome (fromPosition order values c position (flat c direction.fromCurrentByKey fuel))
        browsing = some (.ok (current :: yielded)) ∧
    ∃ reply, outcome (fromPosition order values c position (direction.getByKey c)) browsing =
        some (.ok reply) ∧ shown reply = yielded.head?

/-- A cursor stands on the same record in the view of either direction. -/
theorem Stands.inDirection (stands : Stands .onward c (.on before current after) browsing)
    (direction : Direction) : ∃ left right, Stands direction c (.on left current right) browsing ∧
      left.reverse ++ current :: right =
        direction.ordered (before.reverse ++ current :: after) := by
  cases direction with
  | onward => exact ⟨before, after, stands, rfl⟩
  | backward =>
      refine ⟨after, before, ⟨stands.1, congrArg Place.mirror stands.2⟩, ?_⟩
      simp [Direction.ordered]

private theorem keysFrom_of_stands
    (moved : position.run order values c browsing = some (.ok true, there))
    (stands : Stands .onward c (.on before current after) there)
    (records : browsing.records c = before.reverse ++ current :: after)
    (sorted : SortedBy order values (browsing.records c))
    (enough : (browsing.records c).length < fuel) (direction : Direction) :
    KeysFrom order values c position fuel browsing current direction := by
  obtain ⟨later, got, _⟩ := stands.moved
    (Direction.onward.performs (fun _ => .getCurrent) rfl Place.mirrored_current.symm) rfl id
  obtain ⟨left, right, stands, whole⟩ := stands.inDirection direction
  have sorted := sorted.ordered direction
  rw [records, ← whole] at sorted
  have beyond : direction.beyond order (browsing.records c) current =
      right.dropWhile fun other => other.key = current.key := by
    rw [Direction.beyond, records, ← whole]
    exact sorted.filter_beyond
  have onward : (right.dropWhile fun other => other.key = current.key).Sublist
      (left.reverse ++ current :: right) :=
    ((List.dropWhile_suffix _).sublist.cons current).trans (List.sublist_append_right _ _)
  have bounded : (current :: right).length < fuel := by
    have length := congrArg List.length whole
    rw [direction.length_ordered, List.length_append, ← records] at length
    omega
  have firsts := firstOfEachKey_of_sorted (sorted.sublist onward)
  refine ⟨?_, _, by rw [beyond]; exact firsts, ?_, ?_, ?_⟩
  · rw [outcome_fromPosition moved, outcome, Cursor.getCurrentEntry, Cursor.getEntry, got]
    rfl
  · rw [outcome_fromPosition moved]
    exact keysNext_yields stands bounded
  · rw [outcome_fromPosition moved]
    exact keysCurrent_yields stands bounded
  · rw [outcome_fromPosition moved, head?_firsts]
    exact getByKey_yields stands

/-- Wherever a call that got a record brought the cursor of a sorted database, the iterators
by key that begin there or beside it go on with the keys that follow in their direction. -/
theorem keysFrom_position (order values : KeyOrder) (c : CursorRef) (call : Getting)
    (browsing there : Browsing runtime) {fuel : Nat}
    (moved : call.positioning.run order values c browsing = some (.ok true, there))
    (sorted : SortedBy order values (browsing.records c))
    (enough : (browsing.records c).length < fuel) :
    ∃ current ∈ browsing.records c, ∀ again : Browsing runtime, again.world.cur c ≠ 0 →
      again.records c = browsing.records c → ∀ direction,
        KeysFrom order values c call.positioning fuel again current direction := by
  obtain ⟨before, current, after, records, again⟩ := Positioning.run_again moved
  refine ⟨current, by simp [records], fun other live same direction => ?_⟩
  obtain ⟨later, moved, stands⟩ := again other live same
  exact keysFrom_of_stands moved stands (same.trans records) (same ▸ sorted) (same ▸ enough)
    direction

end KeysFrom

/-- A positioning call that succeeds in an evaluation. -/
theorem Positioning.run_of_any {order values : KeyOrder} {c : CursorRef} {position : Positioning}
    {browsing : Browsing runtime}
    (moved : (position.run order values c browsing).any
      (fun outcome => outcome.1.toOption = some true) = true) :
    ∃ there, position.run order values c browsing = some (.ok true, there) := by
  obtain ⟨⟨result, there⟩, ran, success⟩ := (Option.any_eq_true _ _).mp moved
  refine ⟨there, ran.trans ?_⟩
  cases result with
  | error exception => cases of_decide_eq_true success
  | ok found =>
      have found' : some found = some true := of_decide_eq_true success
      rw [Option.some.inj found']

/-- A history after which the cursor can be brought to the middle one of three records. -/
theorem threeRecords_moved : ∃ world : World .ascii,
    History Always .none 0 multiValueCursor world ∧ world.cur 0 ≠ 0 ∧
    ∃ there, (Positioning.getPairAt ⟨[1], [6]⟩).run bytewise bytewise 0 (threeRecords world) =
      some (.ok true, there) := by
  obtain ⟨world, history, live, moved⟩ := history_of_replay Always .none 0 multiValueCursor
    (fun world : World .ascii => world.cur 0 ≠ 0 ∧
      ((Positioning.getPairAt ⟨[1], [6]⟩).run bytewise bytewise 0 (threeRecords world)).any
        (fun outcome => outcome.1.toOption = some true) = true) (by decide +kernel)
  exact ⟨world, history, live, Positioning.run_of_any moved⟩

/-- From the second of three records, both ways. -/
theorem keysFrom_position_three : ∃ world : World .ascii,
    History Always .none 0 multiValueCursor world ∧
    ∃ current ∈ (threeRecords world).records 0, ∀ direction,
      KeysFrom bytewise bytewise 0 (.getPairAt ⟨[1], [6]⟩) 4 (threeRecords world) current
        direction := by
  obtain ⟨world, history, live, there, moved⟩ := threeRecords_moved
  obtain ⟨current, inside, again⟩ := keysFrom_position bytewise bytewise 0 (.getPairAt ⟨[1], [6]⟩)
    (threeRecords world) there moved (threeRecords_sorted world) (threeRecords_few world)
  exact ⟨world, history, current, inside, again (threeRecords world) live rfl⟩

end KdSoftLmdb
