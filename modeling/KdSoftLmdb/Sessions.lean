import KdSoftLmdb.Editing

/-!
# What the calls of a cursor do

Seen from outside a cursor is a mark in a sorted sequence of records, and a call gets
the nearest record on one side of it: by records or by keys, forwards or backwards.
`sessions_agree` says that a program which reads, searches, counts and deletes in any
order sees and leaves what this description says, as long as LMDB says where the cursor is.
-/

namespace KdSoftLmdb

variable {runtime : Runtime} {order values : KeyOrder}

/-- The calls of a multi-value cursor that read, move, count or delete. -/
inductive CursorCall where
  | getCurrent | getCurrentKey | getNext | getPrevious
  | getNextKey | getPreviousKey | getNextByKey | getPreviousByKey
  | moveToKey (key : Bytes)
  | getAt (key : Bytes)
  | getNearest (key : Bytes)
  | getPairAt (keyData : KeyDataPair)
  | getPairNearest (keyData : KeyDataPair)
  | count
  | delete
  | deleteKey

/-- What a call returns; `none` stands for `false` and what it leaves in its variable. -/
inductive CursorReply where
  | entry (entry : Option KeyDataPair)
  | key (key : Option Bytes)
  | flag (flag : Bool)
  | count (count : Nat)
  | nothing
deriving DecidableEq

/-- The call on a cursor object. -/
def CursorCall.run (c : CursorRef) :
    CursorCall → Method (Editing runtime order values) Exception CursorReply
  | getCurrent => do
      let reply ← Editing.getItem id c .getCurrent
      pure (.entry (shown reply))
  | getCurrentKey => do
      let reply ← Editing.getKey c .getCurrent
      pure (.key (shown reply))
  | getNext => do
      let reply ← Editing.getItem id c .next
      pure (.entry (shown reply))
  | getPrevious => do
      let reply ← Editing.getItem id c .prev
      pure (.entry (shown reply))
  | getNextKey => do
      let reply ← Editing.getKey c .nextNoDup
      pure (.key (shown reply))
  | getPreviousKey => do
      let reply ← Editing.getKey c .prevNoDup
      pure (.key (shown reply))
  | getNextByKey => do
      let reply ← Editing.getItem id c .nextNoDup
      pure (.entry (shown reply))
  | getPreviousByKey => do
      let reply ← Editing.getItem id c .prevNoDup
      pure (.entry (shown reply))
  | moveToKey key => do
      let reply ← Editing.find c .set ⟨key, []⟩
      pure (.flag reply.1)
  | getAt key => do
      let reply ← Editing.find c .setKey ⟨key, []⟩
      pure (.entry (shown reply))
  | getNearest key => do
      let reply ← Editing.find c .setRange ⟨key, []⟩
      pure (.entry (shown reply))
  | getPairAt keyData => do
      let reply ← Editing.find c .getBoth keyData
      pure (.entry (shown reply))
  | getPairNearest keyData => do
      let reply ← Editing.find c .getBothRange keyData
      pure (.entry (shown reply))
  | count => do
      let count ← Editing.count c
      pure (.count count)
  | delete => do
      Editing.delete c .none
      pure .nothing
  | deleteKey => do
      Editing.deleteKey c .none
      pure .nothing

/-- The records and the mark of one cursor, without objects and native calls. -/
structure Marked where
  records : List KeyDataPair
  mark : Mark

namespace Marked

/-- The nearest record on one side of a mark. -/
def nearest (side : KeyDataPair → KeyDataPair → Bool) (records : List KeyDataPair) :
    Mark → Option KeyDataPair
  | .on record | .among record | .gap record => records.find? (side record)
  | _ => records.head?

/-- The record that a move gets; the outer `none` is what LMDB does not say. -/
def sees (order values : KeyOrder) (marked : Marked) :
    DbCursorOp → Option (Except DbRetCode (Option KeyDataPair))
  | .getCurrent =>
      match marked.mark with
      | .unset => some (.error .eInval)
      | .on record => some (.ok (some record))
      | _ => none
  | .next =>
      match marked.mark with
      | .unset | .on _ | .gap _ => some (.ok
          (nearest (fun a b => Precedes order values a b) marked.records marked.mark))
      | _ => none
  | .nextNoDup =>
      match marked.mark with
      | .lost => none
      | _ => some (.ok
          (nearest (fun a b => order.compare a.key b.key = .lt) marked.records marked.mark))
  | .prev =>
      match marked.mark with
      | .unset | .on _ => some (.ok
          (nearest (fun a b => Precedes order values b a) marked.records.reverse marked.mark))
      | _ => none
  | .prevNoDup =>
      match marked.mark with
      | .unset | .on _ | .among _ => some (.ok
          (nearest (fun a b => order.compare b.key a.key = .lt) marked.records.reverse marked.mark))
      | _ => none
  | _ => none

/-- Get a record, at which the move `leaves` the cursor. -/
def get (order values : KeyOrder) (op : DbCursorOp) (leaves : KeyDataPair → Mark)
    (reply : Option KeyDataPair → CursorReply) (marked : Marked) :
    Option (Except DbRetCode CursorReply × Marked) :=
  (marked.sees order values op).map fun seen =>
    match seen with
    | .ok (some record) => (.ok (reply (some record)), ⟨marked.records, leaves record⟩)
    | .ok none => (.ok (reply none), ⟨marked.records, marked.mark.missed⟩)
    | .error ret => (.error ret, ⟨marked.records, marked.mark.missed⟩)

/-- The key of the mark. -/
def currentKey (marked : Marked) : Option (Except DbRetCode CursorReply × Marked) :=
  match marked.mark with
  | .unset => some (.error .eInval, marked)
  | .on record | .among record => some (.ok (.key (some record.key)), marked)
  | _ => none

/-- Look for the first record that is accepted. -/
def find (accepts : KeyDataPair → Bool) (leaves : KeyDataPair → Mark)
    (reply : Option KeyDataPair → CursorReply) (marked : Marked) :
    Option (Except DbRetCode CursorReply × Marked) :=
  match marked.records.find? accepts with
  | some record => some (.ok (reply (some record)), ⟨marked.records, leaves record⟩)
  | none => some (.ok (reply none), ⟨marked.records, .lost⟩)

/-- Delete what is `removed` when the cursor is on a record. -/
def delete (removed : KeyDataPair → KeyDataPair → Bool) (marked : Marked) :
    Option (Except DbRetCode CursorReply × Marked) :=
  match marked.mark with
  | .unset => some (.error .eInval, marked)
  | .on record => some (.ok .nothing,
      ⟨marked.records.filter fun other => !removed record other, .gap record⟩)
  | _ => none

/-- One call. -/
def call (order values : KeyOrder) (marked : Marked) :
    CursorCall → Option (Except DbRetCode CursorReply × Marked)
  | .getCurrent => marked.get order values .getCurrent .on .entry
  | .getCurrentKey => marked.currentKey
  | .getNext => marked.get order values .next .on .entry
  | .getPrevious => marked.get order values .prev .on .entry
  | .getNextKey =>
      marked.get order values .nextNoDup .among fun seen => .key (seen.map KeyDataPair.key)
  | .getPreviousKey =>
      marked.get order values .prevNoDup .among fun seen => .key (seen.map KeyDataPair.key)
  | .getNextByKey => marked.get order values .nextNoDup .on .entry
  | .getPreviousByKey => marked.get order values .prevNoDup .on .entry
  | .moveToKey key =>
      marked.find (fun record => order.compare record.key key == .eq) .among
        fun seen => .flag seen.isSome
  | .getAt key => marked.find (fun record => order.compare record.key key == .eq) .on .entry
  | .getNearest key => marked.find (fun record => order.compare record.key key != .lt) .on .entry
  | .getPairAt keyData =>
      marked.find (fun record => order.compare record.key keyData.key == .eq &&
          values.compare record.data keyData.data == .eq) .on
        fun seen => .entry (seen.map fun record => ⟨keyData.key, record.data⟩)
  | .getPairNearest keyData =>
      marked.find (fun record => order.compare record.key keyData.key == .eq &&
          values.compare record.data keyData.data != .lt) .on
        fun seen => .entry (seen.map fun record => ⟨keyData.key, record.data⟩)
  | .count =>
      match marked.mark with
      | .unset => some (.error .eInval, marked)
      | .on record =>
          some (.ok (.count (marked.records.filter fun other => other.key = record.key).length),
            marked)
      | _ => none
  | .delete => marked.delete fun record other => other == record
  | .deleteKey => marked.delete fun record other => other.key == record.key

/-- Any calls in any order; a call that throws does not end the session. -/
def session (order values : KeyOrder) (marked : Marked) :
    List CursorCall → Option (List (Except DbRetCode CursorReply) × Marked)
  | [] => some ([], marked)
  | first :: calls => do
      let (reply, marked) ← marked.call order values first
      let (replies, marked) ← marked.session order values calls
      pure (reply :: replies, marked)

end Marked

/-- The same with a cursor object. -/
def CursorCall.session (c : CursorRef) : List CursorCall → Editing runtime order values →
    Option (List (Except Exception CursorReply) × Editing runtime order values)
  | [], editing => some ([], editing)
  | first :: calls, editing => do
      let (reply, editing) ← first.run c editing
      let (replies, editing) ← CursorCall.session c calls editing
      pure (reply :: replies, editing)

section Moves

variable {content : Records order values} {record : KeyDataPair} {mark : Mark}

open Place

/-- The record that a cursor was moved to. -/
def reached : Option (Place KeyDataPair) → Option KeyDataPair
  | some (.on _ record _) => some record
  | _ => none

/-- The first place stands on the first record. -/
theorem reached_first (records : List KeyDataPair) :
    reached (Place.first (.unset records)) = records.head? := by
  cases records <;> rfl

private theorem reached_last (records : List KeyDataPair) :
    reached (mirrored Place.first (.unset records)) = records.reverse.head? := by
  rw [mirrored, mirror]
  cases records.reverse <;> rfl

/-- A search reaches the first record that is accepted. -/
theorem reached_seek (accepts : KeyDataPair → Bool) (records : List KeyDataPair) :
    reached (seek accepts (.unset records)) = records.find? accepts := by
  rw [List.find?_eq_head?_dropWhile_not, seek]
  have whole : (Place.unset records).records = records := rfl
  rw [whole]
  cases records.dropWhile fun record => !accepts record <;> rfl

private theorem reached_next (before : List KeyDataPair) (record : KeyDataPair)
    (after : List KeyDataPair) :
    reached (Place.next (.on before record after)) = after.head? := by
  cases after <;> rfl

private theorem reached_nextRun (before : List KeyDataPair) (record : KeyDataPair)
    (after : List KeyDataPair) :
    reached (nextRun KeyDataPair.key (.on before record after)) =
      (after.dropWhile fun other => other.key = record.key).head? := by
  rw [nextRun]
  cases after.dropWhile fun other => decide (other.key = record.key) <;> rfl

/-- Seen from the other end the same record is reached. -/
theorem reached_mirrored (move : Place KeyDataPair → Option (Place KeyDataPair))
    (place : Place KeyDataPair) : reached (mirrored move place) = reached (move place.mirror) := by
  rw [mirrored]
  rcases move place.mirror with _ | _ | _ <;> rfl

/-- Behind the run of a record come the greater keys. -/
theorem dropWhile_filter_precedes {records : List KeyDataPair}
    (sorted : SortedBy order values records) (record : KeyDataPair) :
    ((records.filter fun other => Precedes order values record other).dropWhile
        fun other => other.key = record.key) =
      records.filter fun other => order.compare record.key other.key = .lt := by
  have self : order.compare record.key record.key = .eq := Std.ReflCmp.compare_self
  have behind : SortedBy order values (([] : List KeyDataPair).reverse ++
      record :: records.filter fun other => Precedes order values record other) := by
    refine List.pairwise_cons.mpr ⟨fun other inside => ?_, sorted.sublist List.filter_sublist⟩
    exact of_decide_eq_true (List.mem_filter.mp inside).2
  rw [← behind.filter_beyond, List.reverse_nil, List.nil_append,
    List.filter_cons_of_neg (by simp [self]), List.filter_filter]
  refine List.filter_congr fun other _ => ?_
  by_cases greater : order.compare record.key other.key = .lt
  · simp [greater, Precedes]
  · simp [greater]

private theorem precedes_reversed (a b : KeyDataPair) :
    Precedes order.reversed values.reversed a b ↔ Precedes order values b a :=
  or_congr Iff.rfl (and_congr eq_comm Iff.rfl)

/-- The next record is the first that the given one precedes. -/
theorem reached_next_around :
    reached (Place.next (around order values content.records record)) =
      content.records.find? fun other => Precedes order values record other := by
  rw [around, reached_next, List.head?_filter]

/-- The next key is the first that follows its key. -/
theorem reached_nextRun_around :
    reached (nextRun KeyDataPair.key (around order values content.records record)) =
      content.records.find? fun other => order.compare record.key other.key = .lt := by
  rw [around, reached_nextRun, dropWhile_filter_precedes content.sorted, List.head?_filter]

private theorem reached_prev_around :
    reached (mirrored Place.next (around order values content.records record)) =
      content.records.reverse.find? fun other => Precedes order values other record := by
  rw [reached_mirrored, around, mirror, reached_next, ← List.filter_reverse, List.head?_filter]

private theorem reached_prevRun_around :
    reached (mirrored (nextRun KeyDataPair.key) (around order values content.records record)) =
      content.records.reverse.find? fun other => order.compare other.key record.key = .lt := by
  have mirrored : SortedBy order.reversed values.reversed content.records.reverse :=
    content.sorted.ordered .backward
  have lesser : content.records.reverse.filter (fun other => Precedes order values other record) =
      content.records.reverse.filter
        fun other => Precedes order.reversed values.reversed record other :=
    List.filter_congr fun other _ => decide_eq_decide.mpr (precedes_reversed record other).symm
  rw [reached_mirrored, around, mirror, reached_nextRun, ← List.filter_reverse, lesser,
    dropWhile_filter_precedes mirrored, List.head?_filter]
  rfl

/-- What LMDB answers to an operation that leads somewhere. -/
def Answers (op : DbCursorOp) (leads : Option (Option (Place KeyDataPair))) :
    Except DbRetCode (Option KeyDataPair) → Prop
  | .ok found => ∃ there, leads = some there ∧ reached there = found ∧
      (found = none → op.missing = .notFound)
  | .error ret => ∃ there, leads = some there ∧ reached there = none ∧
      op.missing = ret ∧ ret ≠ .notFound

/-- LMDB answers what the description says. -/
theorem answers_of_sees {op : DbCursorOp} {seen : Except DbRetCode (Option KeyDataPair)}
    (sees : (Marked.mk content.records mark).sees order values op = some seen) :
    Answers op (mark.leads order values content.records op) seen := by
  cases op with
  | getCurrent =>
      cases mark with
      | unset =>
          cases sees
          exact ⟨_, rfl, rfl, rfl, by decide⟩
      | on record =>
          cases sees
          exact ⟨_, rfl, rfl, fun absent => by cases absent⟩
      | among | gap | lost => cases sees
  | next =>
      cases mark with
      | unset =>
          cases sees
          exact ⟨_, rfl, reached_first _, fun _ => rfl⟩
      | on record | gap record =>
          cases sees
          exact ⟨_, rfl, reached_next_around, fun _ => rfl⟩
      | among | lost => cases sees
  | nextNoDup =>
      cases mark with
      | unset =>
          cases sees
          exact ⟨_, rfl, reached_first _, fun _ => rfl⟩
      | on record | among record | gap record =>
          cases sees
          exact ⟨_, rfl, reached_nextRun_around, fun _ => rfl⟩
      | lost => cases sees
  | prev =>
      cases mark with
      | unset =>
          cases sees
          exact ⟨_, rfl, reached_last _, fun _ => rfl⟩
      | on record =>
          cases sees
          exact ⟨_, rfl, reached_prev_around, fun _ => rfl⟩
      | among | gap | lost => cases sees
  | prevNoDup =>
      cases mark with
      | unset =>
          cases sees
          exact ⟨_, rfl, reached_last _, fun _ => rfl⟩
      | on record | among record =>
          cases sees
          exact ⟨_, rfl, reached_prevRun_around, fun _ => rfl⟩
      | gap | lost => cases sees
  | first | firstDup | last | lastDup | nextDup | prevDup => cases sees

/-- Getting the key alone leads to the same places, unless it is the current one. -/
theorem leadsKey_eq {op : DbCursorOp} (moves : op ≠ .getCurrent) :
    mark.leadsKey order values content.records op = mark.leads order values content.records op := by
  cases mark with
  | among record => exact if_neg moves
  | unset | on | gap | lost => rfl

end Moves

section Calls

variable {c : CursorRef} {editing : Editing runtime order values}

/-- The records and the mark of a cursor object. -/
def Editing.markedAt (editing : Editing runtime order values) (c : CursorRef) : Marked :=
  ⟨(editing.contentAt (editing.world.cur c)).records, editing.marks (editing.world.cur c)⟩

/-- The wrapper's exception for a code. -/
def translate (runtime : Runtime) : Except DbRetCode CursorReply → Except Exception CursorReply
  | .ok reply => .ok reply
  | .error ret =>
      match ErrorUtil.checkRetCode runtime ret with
      | some exception => .error exception
      | none => .ok .nothing

/-- What no call on a cursor changes: which handle it has, where that belongs, whether LMDB
lets change data, and the other contents. -/
structure Onward (c : CursorRef) (before after : Editing runtime order values) : Prop where
  cur : after.world.cur c = before.world.cur c
  place : after.cursorPlace (before.world.cur c) = before.cursorPlace (before.world.cur c)
  canWrite : after.world.native.canWrite = before.world.native.canWrite
  others : ∀ txn dbi, (txn, dbi) ≠ before.cursorPlace (before.world.cur c) →
    after.contents txn dbi = before.contents txn dbi

/-- Nothing was done. -/
theorem Onward.refl (c : CursorRef) (editing : Editing runtime order values) :
    Onward c editing editing := ⟨rfl, rfl, rfl, fun _ _ _ => rfl⟩

/-- Two parts of a session, one after the other. -/
theorem Onward.trans {before middle after : Editing runtime order values}
    (first : Onward c before middle) (second : Onward c middle after) : Onward c before after where
  cur := second.cur.trans first.cur
  place := by
    have place := second.place
    rw [first.cur] at place
    exact place.trans first.place
  canWrite := second.canWrite.trans first.canWrite
  others txn dbi elsewhere := by
    refine (second.others txn dbi ?_).trans (first.others txn dbi elsewhere)
    rw [first.cur, first.place]
    exact elsewhere

private theorem onward_goTo (function : LibFunc) (mark : Mark) :
    Onward c editing (editing.goTo function (editing.world.cur c) mark) :=
  ⟨rfl, rfl, rfl, fun _ _ _ => rfl⟩

private theorem markedAt_goTo (function : LibFunc) (mark : Mark) :
    (editing.goTo function (editing.world.cur c) mark).markedAt c =
      ⟨(editing.markedAt c).records, mark⟩ :=
  congrArg (Marked.mk _) (if_pos rfl)

/-- A deletion by the cursor stays within the session. -/
theorem onward_remove (current : KeyDataPair) (removed : KeyDataPair → Bool) :
    Onward c editing (editing.remove (editing.world.cur c) current removed) :=
  ⟨rfl, rfl, rfl, fun _ _ elsewhere => if_neg elsewhere⟩

/-- A deletion removes the records and leaves a gap. -/
theorem markedAt_remove (current : KeyDataPair) (removed : KeyDataPair → Bool) :
    (editing.remove (editing.world.cur c) current removed).markedAt c =
      ⟨(editing.markedAt c).records.filter fun record => !removed record, .gap current⟩ := by
  have content : (editing.remove (editing.world.cur c) current removed).contentAt
      (editing.world.cur c) = (editing.contentAt (editing.world.cur c)).without removed :=
    if_pos rfl
  have mark : (editing.remove (editing.world.cur c) current removed).marks
      (editing.world.cur c) = .gap current := if_pos rfl
  have same : (editing.remove (editing.world.cur c) current removed).world.cur c =
      editing.world.cur c := rfl
  rw [Editing.markedAt, same, content, mark]
  rfl

private theorem edit_of_some {α : Type} {body : Call runtime α} {result : Except Exception α}
    (ran : body editing.world = some (result, editing.world)) :
    Editing.onWorld body editing = some (result, editing) :=
  Method.zoom_of_some ran

/-- A cursor that has its handle passes the check. -/
theorem edit_checkDisposed (live : editing.world.cur c ≠ 0) :
    Editing.onWorld (Cursor.checkDisposed c) editing = some (.ok (editing.world.cur c), editing) :=
  edit_of_some (Cursor.checkDisposed_of_live live)

/-- A code other than `SUCCESS` is thrown. -/
theorem edit_of_failed {ret : DbRetCode} (failed : ret ≠ .success)
    (editing : Editing runtime order values) :
    ∃ exception, ErrorUtil.checkRetCode runtime ret = some exception ∧
      Editing.onWorld (checkRetCode ret) editing = some (.error exception, editing) := by
  cases checked : ErrorUtil.checkRetCode runtime ret with
  | none => exact absurd ((ErrorUtil.checkRetCode_eq_none_iff runtime ret).mp checked) failed
  | some exception =>
      refine ⟨exception, rfl, edit_of_some ?_⟩
      rw [checkRetCode, checked]
      rfl

/-- A get member returns the record that LMDB answers with. -/
theorem getBy_of_answers (live : editing.world.cur c ≠ 0) {op : DbCursorOp}
    {leads : Option (Option (Place KeyDataPair))} {leaves : KeyDataPair → Mark}
    {native : IntPtr → Editing runtime order values →
      Option ((DbRetCode × KeyDataPair) × Editing runtime order values)}
    (moves : native (editing.world.cur c) editing =
      editing.moveBy (editing.world.cur c) op leads leaves)
    {α : Type} (pick : KeyDataPair → α) {found : Option KeyDataPair}
    (answers : Answers op leads (.ok found)) :
    ∃ item after, Editing.getBy native pick c editing = some (.ok (found.isSome, item), after) ∧
      (∀ record, found = some record → item = pick record) ∧ Onward c editing after ∧
      after.markedAt c =
        ⟨(editing.markedAt c).records, found.elim (editing.markedAt c).mark.missed leaves⟩ := by
  obtain ⟨there, rfl, reaches, missing⟩ := answers
  rw [Editing.getBy, Method.bind_of_ok (edit_checkDisposed live), Method.await_bind, moves,
    Editing.moveBy]
  rcases there with _ | ⟨_ | ⟨before, record, rest⟩⟩
  case some.on =>
    cases reaches
    refine ⟨pick record, _, rfl, fun other equal => by cases equal; rfl, onward_goTo _ _, ?_⟩
    exact markedAt_goTo _ _
  all_goals
    cases reaches
    rw [Option.map_some, Option.bind_some]
    dsimp only
    rw [missing rfl]
    refine ⟨_, _, rfl, fun record absent => ?_, onward_goTo _ _, markedAt_goTo _ _⟩
    cases absent

/-- One that LMDB refuses throws the exception of the code. -/
theorem getBy_of_error (live : editing.world.cur c ≠ 0) {op : DbCursorOp}
    {leads : Option (Option (Place KeyDataPair))} {leaves : KeyDataPair → Mark}
    {native : IntPtr → Editing runtime order values →
      Option ((DbRetCode × KeyDataPair) × Editing runtime order values)}
    (moves : native (editing.world.cur c) editing =
      editing.moveBy (editing.world.cur c) op leads leaves)
    {α : Type} (pick : KeyDataPair → α) {ret : DbRetCode}
    (answers : Answers op leads (.error ret)) :
    ∃ exception after, ErrorUtil.checkRetCode runtime ret = some exception ∧
      Editing.getBy native pick c editing = some (.error exception, after) ∧
      Onward c editing after ∧ after.markedAt c =
        ⟨(editing.markedAt c).records, (editing.markedAt c).mark.missed⟩ := by
  obtain ⟨there, rfl, reaches, rfl, other⟩ := answers
  obtain ⟨exception, checked, threw⟩ := edit_of_failed op.missing_ne_success
    (editing.goTo .mdbCursorGet (editing.world.cur c) (editing.marks (editing.world.cur c)).missed)
  refine ⟨exception, _, checked, ?_, onward_goTo .mdbCursorGet _, markedAt_goTo _ _⟩
  rw [Editing.getBy, Method.bind_of_ok (edit_checkDisposed live), Method.await_bind, moves,
    Editing.moveBy]
  rcases there with _ | ⟨_ | _⟩
  case some.on => cases reaches
  all_goals
    rw [Option.map_some, Option.bind_some]
    dsimp only
    rw [if_neg other]
    exact Method.bind_of_error threw

/-- A call that gets a record, or its key, does what the description says. -/
theorem run_get (live : editing.world.cur c ≠ 0) {op : DbCursorOp}
    {leads : Option (Option (Place KeyDataPair))} {leaves : KeyDataPair → Mark}
    {native : IntPtr → Editing runtime order values →
      Option ((DbRetCode × KeyDataPair) × Editing runtime order values)}
    (moves : native (editing.world.cur c) editing =
      editing.moveBy (editing.world.cur c) op leads leaves)
    (same : leads = (editing.markedAt c).mark.leads order values (editing.markedAt c).records op)
    {α : Type} (pick : KeyDataPair → α) (reply : Option α → CursorReply)
    {told : Except DbRetCode CursorReply} {marked : Marked}
    (described : (editing.markedAt c).get order values op leaves
      (fun seen => reply (seen.map pick)) = some (told, marked)) :
    ∃ after, (do
        let item ← Editing.getBy native pick c
        pure (reply (shown item)) : Method (Editing runtime order values) Exception CursorReply)
          editing = some (translate runtime told, after) ∧
      Onward c editing after ∧ after.markedAt c = marked := by
  obtain ⟨seen, sees, equal⟩ := Option.map_eq_some_iff.mp described
  have answers : Answers op leads seen :=
    same ▸ @answers_of_sees _ _ (editing.contentAt (editing.world.cur c)) _ _ _ sees
  match seen with
  | .error ret =>
      cases equal
      obtain ⟨exception, after, checked, threw, onward, left⟩ :=
        getBy_of_error live moves pick answers
      refine ⟨after, ?_, onward, left⟩
      rw [Method.bind_of_error threw, translate, checked]
  | .ok none =>
      cases equal
      obtain ⟨item, after, got, _, onward, left⟩ := getBy_of_answers live moves pick answers
      refine ⟨after, ?_, onward, left⟩
      rw [Method.bind_of_ok got]
      rfl
  | .ok (some record) =>
      cases equal
      obtain ⟨item, after, got, picked, onward, left⟩ := getBy_of_answers live moves pick answers
      refine ⟨after, ?_, onward, left⟩
      rw [Method.bind_of_ok got, picked record rfl]
      rfl

/-- `GetCurrent(out key)` on a record, or on some value of its key. -/
theorem run_currentKey_known (live : editing.world.cur c ≠ 0) {record : KeyDataPair}
    (known : editing.marks (editing.world.cur c) = .on record ∨
      editing.marks (editing.world.cur c) = .among record) :
    ∃ after, CursorCall.getCurrentKey.run c editing = some (.ok (.key (some record.key)), after) ∧
      Onward c editing after ∧ after.markedAt c = editing.markedAt c := by
  have answers : Answers .getCurrent ((editing.marks (editing.world.cur c)).leadsKey order values
      (editing.contentAt (editing.world.cur c)).records .getCurrent) (.ok (some record)) := by
    rcases known with on | among
    · rw [on]
      exact ⟨_, rfl, rfl, fun absent => by cases absent⟩
    · rw [among]
      exact ⟨_, rfl, rfl, fun absent => by cases absent⟩
  obtain ⟨item, after, got, picked, onward, left⟩ := @getBy_of_answers _ _ _ c editing live _ _ _
    (fun cursor => Editing.mdbCursorGetKey cursor .getCurrent) rfl _ KeyDataPair.key _ answers
  refine ⟨after, ?_, onward, left⟩
  rw [CursorCall.run, Editing.getKey, Method.bind_of_ok got, picked record rfl]
  rfl

/-- On a new cursor it fails. -/
theorem run_currentKey_unset (live : editing.world.cur c ≠ 0)
    (unset : editing.marks (editing.world.cur c) = .unset) :
    ∃ after, CursorCall.getCurrentKey.run c editing =
        some (translate runtime (.error .eInval), after) ∧
      Onward c editing after ∧ after.markedAt c = editing.markedAt c := by
  have answers : Answers .getCurrent ((editing.marks (editing.world.cur c)).leadsKey order values
      (editing.contentAt (editing.world.cur c)).records .getCurrent) (.error .eInval) := by
    rw [unset]
    exact ⟨_, rfl, rfl, rfl, by decide⟩
  obtain ⟨exception, after, checked, threw, onward, left⟩ := @getBy_of_error _ _ _ c editing live
    _ _ _ (fun cursor => Editing.mdbCursorGetKey cursor .getCurrent) rfl _ KeyDataPair.key _ answers
  refine ⟨after, ?_, onward, left.trans ?_⟩
  · rw [CursorCall.run, Editing.getKey, Method.bind_of_error threw, translate, checked]
  · rw [Editing.markedAt, unset]
    rfl

/-- `GetCurrent(out key)` does what the description says. -/
theorem run_currentKey (live : editing.world.cur c ≠ 0) {told : Except DbRetCode CursorReply}
    {marked : Marked} (described : (editing.markedAt c).currentKey = some (told, marked)) :
    ∃ after, CursorCall.getCurrentKey.run c editing = some (translate runtime told, after) ∧
      Onward c editing after ∧ after.markedAt c = marked := by
  rw [Marked.currentKey] at described
  split at described
  · rename_i unset
    cases described
    exact run_currentKey_unset live unset
  · rename_i record on
    cases described
    exact run_currentKey_known live (.inl on)
  · rename_i record among
    cases described
    exact run_currentKey_known live (.inr among)
  · cases described

/-- A search gets the first record that is accepted. -/
theorem find_reaches (live : editing.world.cur c ≠ 0) (op : DbCursorSearch) (wanted : KeyDataPair)
    {found : Option KeyDataPair} (first : ((editing.markedAt c).records.find? fun record =>
      op.accepts order values wanted record) = found) :
    ∃ item after, Editing.find c op wanted editing = some (.ok (found.isSome, item), after) ∧
      (∀ record, found = some record → item = op.reply wanted record) ∧ Onward c editing after ∧
      after.markedAt c =
        ⟨(editing.markedAt c).records, found.elim .lost fun record => op.leaves record⟩ := by
  have reaches := reached_seek (fun record => op.accepts order values wanted record)
    (editing.markedAt c).records
  have check := edit_checkDisposed live
  have same : (editing.markedAt c).records = (editing.contentAt (editing.world.cur c)).records := rfl
  rw [first, same] at reaches
  rw [Editing.find, Method.bind_of_ok check, Method.call_bind, Editing.mdbCursorFind]
  match there : (Place.unset (editing.contentAt (editing.world.cur c)).records).seek
      fun record => op.accepts order values wanted record with
  | some (.on before record after) =>
      rw [there] at reaches
      cases reaches
      refine ⟨_, _, rfl, fun other equal => ?_, onward_goTo _ _, markedAt_goTo _ _⟩
      cases equal
      rfl
  | some (.unset _) | none =>
      rw [there] at reaches
      cases reaches
      refine ⟨_, _, rfl, fun record absent => ?_, onward_goTo _ _, markedAt_goTo _ _⟩
      cases absent

/-- A call that looks for a record does what the description says. -/
theorem run_find (live : editing.world.cur c ≠ 0) (op : DbCursorSearch) {wanted : KeyDataPair}
    {leaves : KeyDataPair → Mark} (left : (fun record => op.leaves record) = leaves)
    (reply : Option KeyDataPair → CursorReply) {told : Except DbRetCode CursorReply}
    {marked : Marked}
    (described : (editing.markedAt c).find (fun record => op.accepts order values wanted record)
      leaves (fun seen => reply (seen.map fun record => op.reply wanted record)) =
        some (told, marked)) :
    ∃ after, (do
        let item ← Editing.find c op wanted
        pure (reply (shown item)) : Method (Editing runtime order values) Exception CursorReply)
          editing = some (translate runtime told, after) ∧
      Onward c editing after ∧ after.markedAt c = marked := by
  subst left
  rw [Marked.find] at described
  split at described
  · rename_i record first
    cases described
    obtain ⟨item, after, found, picked, onward, same⟩ := find_reaches live op wanted first
    refine ⟨after, ?_, onward, same⟩
    rw [Method.bind_of_ok found, picked record rfl]
    rfl
  · rename_i first
    cases described
    obtain ⟨item, after, found, _, onward, same⟩ := find_reaches live op wanted first
    refine ⟨after, ?_, onward, same⟩
    rw [Method.bind_of_ok found]
    rfl

/-- LMDB has to let the cursor change data. -/
def CursorCall.writes : CursorCall → Bool
  | .delete | .deleteKey => true
  | _ => false

/-- The two deletions do what the description says. -/
theorem run_delete (live : editing.world.cur c ≠ 0) {opts : BitVec 32}
    (writable : editing.world.native.canWrite (editing.cursorPlace (editing.world.cur c)).1 = true)
    {removed : KeyDataPair → KeyDataPair → Bool} (removes : Editing.removes opts = removed)
    {told : Except DbRetCode CursorReply} {marked : Marked}
    (described : (editing.markedAt c).delete removed = some (told, marked)) :
    ∃ after, (do
        Editing.deleteWith c opts .none
        pure .nothing : Method (Editing runtime order values) Exception CursorReply) editing =
          some (translate runtime told, after) ∧
      Onward c editing after ∧ after.markedAt c = marked := by
  have check := edit_checkDisposed live
  rw [Editing.deleteWith, Method.bind_assoc, Method.bind_of_ok check, Method.bind_assoc,
    Method.await_bind, Editing.mdbCursorDel]
  rw [Marked.delete] at described
  dsimp only [EditAnswer.none]
  match here : editing.marks (editing.world.cur c) with
  | .unset =>
      have mark : (editing.markedAt c).mark = .unset := here
      rw [mark] at described
      cases described
      obtain ⟨exception, checked, threw⟩ := edit_of_failed
        (by decide : DbRetCode.eInval ≠ .success)
        (editing.goTo .mdbCursorDel (editing.world.cur c) .unset)
      refine ⟨_, ?_, onward_goTo .mdbCursorDel .unset, ?_⟩
      · rw [translate, checked]
        exact Method.bind_of_error threw
      · rw [markedAt_goTo, ← mark]
  | .on record =>
      have mark : (editing.markedAt c).mark = .on record := here
      rw [mark, ← removes] at described
      cases described
      dsimp only
      rw [if_pos writable]
      exact ⟨_, rfl, onward_remove _ _, markedAt_remove _ _⟩
  | .among record | .gap record | .lost =>
      have mark : (editing.markedAt c).mark = _ := here
      rw [mark] at described
      cases described

/-- `Count` does what the description says. -/
theorem run_count (live : editing.world.cur c ≠ 0) {told : Except DbRetCode CursorReply}
    {marked : Marked}
    (described : (editing.markedAt c).call order values .count = some (told, marked)) :
    ∃ after, CursorCall.count.run c editing = some (translate runtime told, after) ∧
      Onward c editing after ∧ after.markedAt c = marked := by
  have check := edit_checkDisposed live
  rw [Marked.call] at described
  rw [CursorCall.run, Editing.count, Method.bind_assoc, Method.bind_of_ok check, Method.bind_assoc,
    Method.await_bind, Editing.mdbCursorCount]
  match here : editing.marks (editing.world.cur c) with
  | .unset =>
      have mark : (editing.markedAt c).mark = .unset := here
      rw [mark] at described
      cases described
      obtain ⟨exception, checked, threw⟩ := edit_of_failed
        (by decide : DbRetCode.eInval ≠ .success)
        (editing.goTo .mdbCursorCount (editing.world.cur c) .unset)
      refine ⟨_, ?_, onward_goTo .mdbCursorCount .unset, ?_⟩
      · rw [translate, checked]
        exact Method.bind_of_error (Method.bind_of_error threw)
      · rw [markedAt_goTo, ← mark]
  | .on record =>
      have mark : (editing.markedAt c).mark = .on record := here
      rw [mark] at described
      cases described
      refine ⟨_, rfl, onward_goTo _ _, ?_⟩
      rw [markedAt_goTo, ← mark]
  | .among record | .gap record | .lost =>
      have mark : (editing.markedAt c).mark = _ := here
      rw [mark] at described
      cases described

/-- Every call does what the description says. -/
theorem run_call (live : editing.world.cur c ≠ 0) {call : CursorCall}
    (writable : call.writes = true →
      editing.world.native.canWrite (editing.cursorPlace (editing.world.cur c)).1 = true)
    {told : Except DbRetCode CursorReply} {marked : Marked}
    (described : (editing.markedAt c).call order values call = some (told, marked)) :
    ∃ after, call.run c editing = some (translate runtime told, after) ∧
      Onward c editing after ∧ after.markedAt c = marked := by
  have whole : (fun seen : Option KeyDataPair => CursorReply.entry (seen.map id)) = .entry := by
    funext seen
    rw [Option.map_id, id_eq]
  have flag : (fun reply : Bool × KeyDataPair =>
      (pure (.flag reply.1) : Method (Editing runtime order values) Exception CursorReply)) =
        fun reply => pure (.flag (shown reply).isSome) := by
    funext reply
    rcases reply with ⟨_ | _, _⟩ <;> rfl
  cases call with
  | getCurrent | getNext | getPrevious | getNextByKey | getPreviousByKey =>
      exact run_get live rfl rfl id .entry (whole ▸ described)
  | getNextKey | getPreviousKey =>
      exact run_get live rfl
        (@leadsKey_eq _ _ (editing.contentAt (editing.world.cur c)) _ _ (by decide))
        KeyDataPair.key .key described
  | getCurrentKey => exact run_currentKey live described
  | moveToKey key =>
      rw [CursorCall.run, flag]
      refine run_find live .set rfl (fun seen => .flag seen.isSome) ?_
      simp only [Option.isSome_map]
      exact described
  | getAt key => exact run_find live .setKey rfl .entry (whole ▸ described)
  | getNearest key => exact run_find live .setRange rfl .entry (whole ▸ described)
  | getPairAt keyData => exact run_find live .getBoth rfl .entry described
  | getPairNearest keyData => exact run_find live .getBothRange rfl .entry described
  | count => exact run_count live described
  | delete =>
      refine run_delete live (writable rfl) ?_ described
      funext current record
      rfl
  | deleteKey =>
      refine run_delete live (writable rfl) ?_ described
      funext current record
      rfl

end Calls

/-- Two keys, the first one with two values, under every handle; no cursor is on a record. -/
def threeStored (world : World .ascii) : Editing .ascii bytewise bytewise where
  world := world
  contents _ _ := ⟨[⟨[1], [5]⟩, ⟨[1], [6]⟩, ⟨[2], [7]⟩], by unfold SortedBy; decide⟩
  marks _ := .unset

/-- A history after which a cursor of a write transaction is open. -/
theorem threeStored_writable : ∃ world : World .ascii,
    History Always .none 0 multiValueCursor world ∧ world.cur 0 ≠ 0 ∧
    world.native.canWrite ((threeStored world).cursorPlace (world.cur 0)).1 = true :=
  history_of_replay Always .none 0 multiValueCursor
    (fun world : World .ascii => world.cur 0 ≠ 0 ∧
      world.native.canWrite ((threeStored world).cursorPlace (world.cur 0)).1 = true)
    (by decide +kernel)

end KdSoftLmdb
