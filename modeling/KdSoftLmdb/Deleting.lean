import KdSoftLmdb.Sessions

/-!
# Deleting while iterating

A loop whose body may delete the record that it got, or all values of its key, goes on
from the gap. `Blocks` is what such a loop takes the records for: one record each, or
the values of one key. Whatever the body deletes, every block is visited once, in order,
and what is left are the blocks that were not deleted.
-/

namespace KdSoftLmdb

variable {runtime : Runtime} {order values : KeyOrder}

/-- `foreach` over an `ItemsIterator`, with a body that calls `remove` on the records that
`chosen` selects; the records that were seen. -/
def deletingWhere (c : CursorRef) (iterator : CursorIterator) (chosen : KeyDataPair → Bool)
    (remove : Method (Editing runtime order values) Exception Unit) (fuel : Nat) :
    Method (Editing runtime order values) Exception (List KeyDataPair) :=
  foreach (Editing.getItem id c iterator.opFirst) (Editing.getItem id c iterator.opNext)
    invalidPosition
    (fun entry =>
      if chosen entry then do
        remove
        pure [entry]
      else pure [entry])
    fuel none .start

/-- The records from `lower` on as blocks: `side` tells what is beyond the block of a record,
`removed` what its deletion takes away. -/
structure Blocks (side removed : KeyDataPair → KeyDataPair → Bool) (lower : List KeyDataPair)
    (blocks : List (List KeyDataPair)) : Prop where
  headed : ∀ block ∈ blocks, ∃ record rest, block = record :: rest
  upTo : ∀ seen block rest, blocks = seen ++ block :: rest →
    ∀ other ∈ lower ++ seen.flatten ++ block, side (firstOf block) other = false
  beyond : ∀ seen block rest, blocks = seen ++ block :: rest →
    ∀ other ∈ rest.flatten, side (firstOf block) other = true
  own : ∀ seen block rest, blocks = seen ++ block :: rest →
    ∀ other ∈ block, removed (firstOf block) other = true
  foreign : ∀ seen block rest, blocks = seen ++ block :: rest →
    ∀ other ∈ lower ++ seen.flatten ++ rest.flatten, removed (firstOf block) other = false

/-- What is left of blocks. -/
def leftOf (chosen : KeyDataPair → Bool) (blocks : List (List KeyDataPair)) : List KeyDataPair :=
  (blocks.filter fun block => !chosen (firstOf block)).flatten

section Loop

variable {side removed : KeyDataPair → KeyDataPair → Bool} {lower : List KeyDataPair}
  {blocks : List (List KeyDataPair)} {c : CursorRef} {chosen : KeyDataPair → Bool}
  {before editing : Editing runtime order values}

/-- What is left is part of what was there. -/
theorem mem_of_mem_leftOf {seen : List (List KeyDataPair)} {record : KeyDataPair}
    (inside : record ∈ leftOf chosen seen) : record ∈ seen.flatten := by
  obtain ⟨block, member, inBlock⟩ := List.mem_flatten.mp inside
  exact List.mem_flatten.mpr ⟨block, (List.mem_filter.mp member).1, inBlock⟩

private theorem leftOf_concat (seen : List (List KeyDataPair)) (block : List KeyDataPair) :
    leftOf chosen (seen ++ [block]) =
      leftOf chosen seen ++ if chosen (firstOf block) then [] else block := by
  rw [leftOf, leftOf, List.filter_append, List.flatten_append]
  by_cases picked : chosen (firstOf block) = true
  · simp [picked]
  · simp [picked]

/-- Between two rounds: the cursor is on the first record of the last block that was seen,
or where that was deleted. -/
def BlocksAhead (before : Editing runtime order values) (c : CursorRef)
    (chosen : KeyDataPair → Bool) (lower : List KeyDataPair) (blocks : List (List KeyDataPair))
    (ahead : List (List KeyDataPair)) (editing : Editing runtime order values) : Prop :=
  Onward c before editing ∧ ∃ seen block, blocks = seen ++ block :: ahead ∧
    editing.markedAt c = ⟨lower ++ leftOf chosen (seen ++ [block]) ++ ahead.flatten,
      if chosen (firstOf block) then .gap (firstOf block) else .on (firstOf block)⟩

/-- In a round: the cursor is on the first record of a block. -/
def BlockHere (before : Editing runtime order values) (c : CursorRef)
    (chosen : KeyDataPair → Bool) (lower : List KeyDataPair) (blocks : List (List KeyDataPair))
    (block : List KeyDataPair) (ahead : List (List KeyDataPair))
    (editing : Editing runtime order values) : Prop :=
  Onward c before editing ∧ ∃ seen, blocks = seen ++ block :: ahead ∧
    editing.markedAt c =
      ⟨lower ++ leftOf chosen seen ++ (block ++ ahead.flatten), .on (firstOf block)⟩

/-- Beyond a block the first record of the next one comes first. -/
theorem Blocks.find_beyond (isBlocks : Blocks side removed lower blocks)
    {seen ahead : List (List KeyDataPair)} {block : List KeyDataPair}
    (split : blocks = seen ++ block :: ahead) :
    (lower ++ leftOf chosen (seen ++ [block]) ++ ahead.flatten).find? (side (firstOf block)) =
      ahead.head?.map firstOf := by
  have upTo : (lower ++ leftOf chosen (seen ++ [block])).find? (side (firstOf block)) = none := by
    refine List.find?_eq_none.mpr fun other inside => ?_
    rw [isBlocks.upTo seen block ahead split other ?_]
    · exact Bool.false_ne_true
    · rcases List.mem_append.mp inside with inLower | inLeft
      · simp [inLower]
      · have inSeen := mem_of_mem_leftOf inLeft
        rw [List.flatten_append, List.flatten_singleton] at inSeen
        rw [List.append_assoc]
        exact List.mem_append_right _ inSeen
  rw [List.find?_append, upTo, Option.none_or]
  match ahead with
  | [] => rfl
  | next :: ahead =>
      obtain ⟨record, rest, rfl⟩ := isBlocks.headed next (by rw [split]; simp)
      have there := isBlocks.beyond seen block _ split record (by simp)
      rw [List.flatten_cons, List.cons_append, List.find?_cons_of_pos there]
      rfl

/-- A deletion takes away the block that the cursor is on. -/
theorem Blocks.filter_removed (isBlocks : Blocks side removed lower blocks)
    {seen ahead : List (List KeyDataPair)} {block : List KeyDataPair}
    (split : blocks = seen ++ block :: ahead) :
    (lower ++ leftOf chosen seen ++ (block ++ ahead.flatten)).filter
        (fun other => !removed (firstOf block) other) =
      lower ++ leftOf chosen seen ++ ahead.flatten := by
  have foreign := isBlocks.foreign seen block ahead split
  have first : (lower ++ leftOf chosen seen).filter
      (fun other => !removed (firstOf block) other) = lower ++ leftOf chosen seen := by
    refine List.filter_eq_self.mpr fun other inside => ?_
    rw [foreign other ?_]
    · rfl
    · refine List.mem_append_left _ (List.mem_append.mpr ?_)
      exact (List.mem_append.mp inside).imp id mem_of_mem_leftOf
  have second : block.filter (fun other => !removed (firstOf block) other) = [] := by
    refine List.filter_eq_nil_iff.mpr fun other inside => ?_
    rw [isBlocks.own seen block ahead split other inside]
    exact Bool.false_ne_true
  have third : ahead.flatten.filter (fun other => !removed (firstOf block) other) =
      ahead.flatten := by
    refine List.filter_eq_self.mpr fun other inside => ?_
    rw [foreign other (List.mem_append_right _ inside)]
    rfl
  rw [List.filter_append, first, List.filter_append, second, third, List.nil_append]

/-- Deletions of the current block by a method that LMDB does not refuse. -/
def Deletes (c : CursorRef) (removed : KeyDataPair → KeyDataPair → Bool)
    (remove : Method (Editing runtime order values) Exception Unit) : Prop :=
  ∀ editing record, editing.world.cur c ≠ 0 →
    editing.world.native.canWrite (editing.cursorPlace (editing.world.cur c)).1 = true →
    (editing.markedAt c).mark = .on record → ∃ after,
      remove editing = some (.ok (), after) ∧ Onward c editing after ∧
      after.markedAt c =
        ⟨(editing.markedAt c).records.filter fun other => !removed record other, .gap record⟩

private theorem deletes_deleteWith (c : CursorRef) (opts : BitVec 32) :
    Deletes c (Editing.removes opts)
      (Editing.deleteWith c opts .none : Method (Editing runtime order values) Exception Unit) := by
  intro editing record live writable here
  have mark : editing.marks (editing.world.cur c) = .on record := here
  refine ⟨editing.remove (editing.world.cur c) record (Editing.removes opts record), ?_,
    onward_remove _ _, markedAt_remove _ _⟩
  rw [Editing.deleteWith, Method.bind_of_ok (edit_checkDisposed live),
    Method.await_bind, Editing.mdbCursorDel, mark]
  dsimp only [EditAnswer.none]
  rw [if_pos writable]
  rfl

/-- Where a loop over blocks begins: its first operation gets the first record of the first
block. -/
def BlocksStart (before : Editing runtime order values) (c : CursorRef) (opFirst : DbCursorOp)
    (lower : List KeyDataPair) (blocks ahead : List (List KeyDataPair))
    (editing : Editing runtime order values) : Prop :=
  ahead = blocks ∧ Onward c before editing ∧
    (editing.markedAt c).records = lower ++ blocks.flatten ∧
    Answers opFirst
      ((editing.markedAt c).mark.leads order values (editing.markedAt c).records opFirst)
      (.ok (blocks.head?.map firstOf))

/-- The operation gets what is first beyond the block of a record, there or deleted. -/
def GoesBeyond (order values : KeyOrder) (side : KeyDataPair → KeyDataPair → Bool)
    (op : DbCursorOp) : Prop :=
  ∀ (content : Records order values) (record : KeyDataPair), ∀ mark ∈ [Mark.on record, .gap record],
    Answers op (mark.leads order values content.records op)
      (.ok (content.records.find? (side record)))

/-- Between two rounds the operation gets the first record of the next block. -/
theorem BlocksAhead.answers (isBlocks : Blocks side removed lower blocks) {op : DbCursorOp}
    (beyond : GoesBeyond order values side op) {ahead : List (List KeyDataPair)}
    (between : BlocksAhead before c chosen lower blocks ahead editing) :
    Answers op ((editing.markedAt c).mark.leads order values (editing.markedAt c).records op)
      (.ok (ahead.head?.map firstOf)) := by
  obtain ⟨_, seen, block, split, marked⟩ := between
  have answers := beyond (editing.contentAt (editing.world.cur c)) (firstOf block)
  have records : (editing.contentAt (editing.world.cur c)).records =
      lower ++ leftOf chosen (seen ++ [block]) ++ ahead.flatten := congrArg Marked.records marked
  rw [records, isBlocks.find_beyond split] at answers
  rw [marked]
  refine answers _ ?_
  by_cases picked : chosen (firstOf block) = true
  · simp [picked]
  · simp [picked]

/-- A get member of the loop gets the record that LMDB answers with, and is on it then. -/
theorem getItem_of_answers (live : editing.world.cur c ≠ 0) {op : DbCursorOp}
    {found : Option KeyDataPair} (answers : Answers op
      ((editing.markedAt c).mark.leads order values (editing.markedAt c).records op) (.ok found)) :
    ∃ item after, Editing.getItem id c op editing = some (.ok (found.isSome, item), after) ∧
      (∀ record, found = some record → item = record) ∧ Onward c editing after ∧
      after.markedAt c =
        ⟨(editing.markedAt c).records, found.elim (editing.markedAt c).mark.missed .on⟩ :=
  @getBy_of_answers _ _ _ c editing live _ _ _
    (fun cursor => Editing.mdbCursorGet cursor op) rfl _ id _ answers

private theorem blocks_exhausts (isBlocks : Blocks side removed lower blocks)
    {remove : Method (Editing runtime order values) Exception Unit}
    (deletes : Deletes c removed remove) {opFirst opNext : DbCursorOp}
    (beyond : GoesBeyond order values side opNext) (live : before.world.cur c ≠ 0)
    (writable : before.world.native.canWrite (before.cursorPlace (before.world.cur c)).1 = true) :
    Exhausts (@Editing.getItem runtime order values _ id c opFirst)
      (Editing.getItem id c opNext)
      (fun entry =>
        if chosen entry then do
          remove
          pure [entry]
        else pure [entry])
      firstOf (fun block => [firstOf block])
      (fun started => if started then BlocksAhead before c chosen lower blocks
        else BlocksStart before c opFirst lower blocks)
      (BlockHere before c chosen lower blocks)
      (fun after => Onward c before after ∧
        (after.markedAt c).records = lower ++ leftOf chosen blocks) where
  done started editing ahead := by
    cases started with
    | true =>
        have answers := ahead.answers isBlocks beyond
        obtain ⟨onward, seen, block, split, marked⟩ := ahead
        have live' : editing.world.cur c ≠ 0 := onward.cur ▸ live
        obtain ⟨item, after, got, _, onward', same⟩ := getItem_of_answers live' answers
        refine ⟨item, after, got, onward.trans onward', ?_⟩
        rw [same, split]
        exact (congrArg Marked.records marked).trans (List.append_nil _)
    | false =>
        obtain ⟨none, onward, records, answers⟩ := ahead
        subst none
        have live' : editing.world.cur c ≠ 0 := onward.cur ▸ live
        obtain ⟨item, after, got, _, onward', same⟩ := getItem_of_answers live' answers
        refine ⟨item, after, got, onward.trans onward', ?_⟩
        rw [same]
        exact records
  moves started block rest editing ahead := by
    cases started with
    | true =>
        have answers := ahead.answers isBlocks beyond
        obtain ⟨onward, seen, last, split, marked⟩ := ahead
        have live' : editing.world.cur c ≠ 0 := onward.cur ▸ live
        obtain ⟨item, after, got, picked, onward', same⟩ := getItem_of_answers live' answers
        rw [picked _ rfl] at got
        refine ⟨after, got, onward.trans onward', seen ++ [last], by simp [split], ?_⟩
        rw [same]
        exact congrArg (Marked.mk · _) (congrArg Marked.records marked)
    | false =>
        obtain ⟨whole, onward, records, answers⟩ := ahead
        subst whole
        have live' : editing.world.cur c ≠ 0 := onward.cur ▸ live
        obtain ⟨item, after, got, picked, onward', same⟩ := getItem_of_answers live' answers
        rw [picked _ rfl] at got
        refine ⟨after, got, onward.trans onward', [], rfl, ?_⟩
        rw [same]
        refine congrArg (Marked.mk · _) (records.trans ?_)
        simp [leftOf]
  runs block rest editing here := by
    obtain ⟨onward, seen, split, marked⟩ := here
    have live' : editing.world.cur c ≠ 0 := onward.cur ▸ live
    have writable' : editing.world.native.canWrite
        (editing.cursorPlace (editing.world.cur c)).1 = true := by
      rw [onward.cur, onward.place, onward.canWrite]
      exact writable
    by_cases picked : chosen (firstOf block) = true
    · obtain ⟨after, ran, onward', same⟩ :=
        deletes editing (firstOf block) live' writable' (congrArg Marked.mark marked)
      refine ⟨after, ?_, onward.trans onward', seen, block, split, ?_⟩
      · rw [if_pos picked, Method.bind_of_ok ran]
        rfl
      · rw [same, marked, leftOf_concat, if_pos picked, if_pos picked, List.append_nil]
        exact congrArg (Marked.mk · _) (isBlocks.filter_removed split)
    · refine ⟨editing, ?_, onward, seen, block, split, ?_⟩
      · rw [if_neg picked]
        rfl
      · rw [marked, leftOf_concat, if_neg picked, if_neg picked]
        simp only [List.append_assoc]

end Loop

section Records

variable {lower records : List KeyDataPair}

private theorem flatten_singles (records : List KeyDataPair) :
    (records.map fun record => [record]).flatten = records := by
  rw [← List.flatMap_def, List.flatMap_singleton']

private theorem firstOf_singles (records : List KeyDataPair) :
    (records.map fun record => [record]).map firstOf = records := by
  rw [List.map_map]
  exact List.map_id' records

private theorem leftOf_singles (chosen : KeyDataPair → Bool) (records : List KeyDataPair) :
    leftOf chosen (records.map fun record => [record]) =
      records.filter fun record => !chosen record := by
  rw [leftOf, List.filter_map]
  exact flatten_singles _

/-- Every record is a block. -/
theorem blocks_records (sorted : SortedBy order values (lower ++ records)) :
    Blocks (fun a b => Precedes order values a b) (fun record other => other == record) lower
      (records.map fun record => [record]) := by
  have cut : ∀ seen block rest, (records.map fun record => [record]) = seen ++ block :: rest →
      ∃ record, block = [record] ∧ SortedBy order values
        (lower ++ seen.flatten ++ record :: rest.flatten) := by
    intro seen block rest split
    obtain ⟨first, later, rfl, rfl, tail⟩ := List.map_eq_append_iff.mp split
    obtain ⟨record, last, rfl, rfl, rfl⟩ := List.map_eq_cons_iff.mp tail
    refine ⟨record, rfl, ?_⟩
    rw [flatten_singles, flatten_singles, List.append_assoc]
    exact sorted
  refine ⟨?_, ?_, ?_, ?_, ?_⟩
  · intro block member
    obtain ⟨record, _, rfl⟩ := List.mem_map.mp member
    exact ⟨record, [], rfl⟩
  · intro seen block rest split other inside
    obtain ⟨record, rfl, sorted⟩ := cut seen block rest split
    refine decide_eq_false fun precedes => ?_
    rcases List.mem_append.mp inside with behind | here
    · have less := (List.pairwise_append.mp sorted).2.2 other behind record List.mem_cons_self
      exact Precedes.asymm less precedes
    · rw [List.mem_singleton.mp here] at precedes
      exact Precedes.irrefl _ precedes
  · intro seen block rest split other inside
    obtain ⟨record, rfl, sorted⟩ := cut seen block rest split
    exact decide_eq_true
      ((List.pairwise_cons.mp (List.pairwise_append.mp sorted).2.1).1 other inside)
  · intro seen block rest split other inside
    obtain ⟨record, rfl, _⟩ := cut seen block rest split
    exact beq_iff_eq.mpr (List.mem_singleton.mp inside)
  · intro seen block rest split other inside
    obtain ⟨record, rfl, sorted⟩ := cut seen block rest split
    refine beq_eq_false_iff_ne.mpr fun same => ?_
    change other = record at same
    subst same
    rcases List.mem_append.mp inside with behind | beyond
    · exact Precedes.irrefl other
        ((List.pairwise_append.mp sorted).2.2 other behind other List.mem_cons_self)
    · exact Precedes.irrefl other
        ((List.pairwise_cons.mp (List.pairwise_append.mp sorted).2.1).1 other beyond)

/-- The values of every key are a block. -/
theorem blocks_runs (sorted : SortedBy order values records) :
    Blocks (fun a b => order.compare a.key b.key = .lt) (fun record other => other.key == record.key)
      [] (runs KeyDataPair.key records) := by
  have pairwise := Place.pairwise_runs (Direction.onward.precedes_trans order) sorted.keys
  have cut : ∀ seen block rest, runs KeyDataPair.key records = seen ++ block :: rest →
      (firstOf block ∈ block ∧ ∀ other ∈ block, other.key = (firstOf block).key) ∧
      (∀ other ∈ seen.flatten, order.compare other.key (firstOf block).key = .lt) ∧
      ∀ other ∈ rest.flatten, order.compare (firstOf block).key other.key = .lt := by
    intro seen block rest split
    have member : block ∈ runs KeyDataPair.key records := by simp [split]
    obtain ⟨record, others, rfl, same⟩ := Place.key_of_mem_runs member
    rw [split] at pairwise
    obtain ⟨_, onward, across⟩ := List.pairwise_append.mp pairwise
    refine ⟨⟨List.mem_cons_self, same⟩, fun other inside => ?_, fun other inside => ?_⟩
    · obtain ⟨run, inSeen, inRun⟩ := List.mem_flatten.mp inside
      exact across run inSeen _ List.mem_cons_self other inRun record List.mem_cons_self
    · obtain ⟨run, inRest, inRun⟩ := List.mem_flatten.mp inside
      exact (List.pairwise_cons.mp onward).1 run inRest record List.mem_cons_self other inRun
  refine ⟨?_, ?_, ?_, ?_, ?_⟩
  · intro block member
    obtain ⟨record, rest, rfl, _⟩ := Place.key_of_mem_runs member
    exact ⟨record, rest, rfl⟩
  · intro seen block rest split other inside
    obtain ⟨⟨_, same⟩, behind, _⟩ := cut seen block rest split
    rw [List.nil_append] at inside
    refine decide_eq_false fun greater => ?_
    rcases List.mem_append.mp inside with before | here
    · exact Direction.onward.not_precedes_self order _
        (Std.TransCmp.lt_trans (behind other before) greater)
    · exact KeyOrder.ne_of_lt greater (same other here).symm
  · intro seen block rest split other inside
    exact decide_eq_true ((cut seen block rest split).2.2 other inside)
  · intro seen block rest split other inside
    exact beq_iff_eq.mpr ((cut seen block rest split).1.2 other inside)
  · intro seen block rest split other inside
    obtain ⟨_, behind, beyond⟩ := cut seen block rest split
    rw [List.nil_append] at inside
    refine beq_eq_false_iff_ne.mpr ?_
    rcases List.mem_append.mp inside with before | after
    · exact KeyOrder.ne_of_lt (behind other before)
    · exact (KeyOrder.ne_of_lt (beyond other after)).symm

private theorem goesBeyond_next :
    GoesBeyond order values (fun a b => Precedes order values a b) .next := by
  intro content record mark either
  rcases List.mem_pair.mp either with rfl | rfl
  · exact ⟨_, rfl, reached_next_around, fun _ => rfl⟩
  · exact ⟨_, rfl, reached_next_around, fun _ => rfl⟩

private theorem goesBeyond_nextNoDup :
    GoesBeyond order values (fun a b => order.compare a.key b.key = .lt) .nextNoDup := by
  intro content record mark either
  rcases List.mem_pair.mp either with rfl | rfl
  · exact ⟨_, rfl, reached_nextRun_around, fun _ => rfl⟩
  · exact ⟨_, rfl, reached_nextRun_around, fun _ => rfl⟩

/-- Left are the records that no deletion of a chosen one took away. -/
theorem leftOf_blocks {side removed : KeyDataPair → KeyDataPair → Bool}
    {blocks : List (List KeyDataPair)} (isBlocks : Blocks side removed lower blocks)
    (chosen : KeyDataPair → Bool) :
    leftOf chosen blocks = blocks.flatten.filter fun record =>
      !(blocks.map firstOf).any fun first => chosen first && removed first record := by
  have alone : ∀ block ∈ blocks, ∀ record ∈ block,
      ((blocks.map firstOf).any fun first => chosen first && removed first record) =
        chosen (firstOf block) := by
    intro block member record inside
    obtain ⟨seen, rest, rfl⟩ := List.append_of_mem member
    have own := isBlocks.own seen block rest rfl record inside
    have others : ∀ other ∈ seen ++ rest, removed (firstOf other) record = false := by
      intro other elsewhere
      rcases List.mem_append.mp elsewhere with before | after
      · obtain ⟨first, last, rfl⟩ := List.append_of_mem before
        refine isBlocks.foreign first other (last ++ block :: rest) (by simp) record ?_
        simp [inside]
      · obtain ⟨first, last, rfl⟩ := List.append_of_mem after
        refine isBlocks.foreign (seen ++ block :: first) other last (by simp) record ?_
        simp [inside]
    have behind : (seen.any fun other => chosen (firstOf other) && removed (firstOf other) record) =
        false :=
      List.any_eq_false.mpr fun other there => by simp [others other (by simp [there])]
    have ahead : (rest.any fun other => chosen (firstOf other) && removed (firstOf other) record) =
        false :=
      List.any_eq_false.mpr fun other there => by simp [others other (by simp [there])]
    simp only [List.any_map, List.any_append, List.any_cons, Function.comp_def, behind, ahead, own,
      Bool.and_true, Bool.false_or, Bool.or_false]
  have split : ∀ part : List (List KeyDataPair), (∀ block ∈ part, block ∈ blocks) →
      leftOf chosen part = part.flatten.filter fun record =>
        !(blocks.map firstOf).any fun first => chosen first && removed first record := by
    intro part within
    induction part with
    | nil => rfl
    | cons block part ih =>
        have rest := ih fun other inside => within other (List.mem_cons_of_mem _ inside)
        have here : block.filter (fun record =>
            !(blocks.map firstOf).any fun first => chosen first && removed first record) =
            if chosen (firstOf block) then [] else block := by
          have same := alone block (within block List.mem_cons_self)
          by_cases picked : chosen (firstOf block) = true
          · rw [if_pos picked]
            refine List.filter_eq_nil_iff.mpr fun record inside => ?_
            simp [same record inside, picked]
          · rw [if_neg picked]
            refine List.filter_eq_self.mpr fun record inside => ?_
            simp [same record inside, picked]
        rw [List.flatten_cons, List.filter_append, here, ← rest, leftOf, leftOf]
        by_cases picked : chosen (firstOf block) = true
        · simp [picked]
        · simp [picked]
  exact split blocks fun _ inside => inside

end Records

section Loops

variable {c : CursorRef} {chosen : KeyDataPair → Bool} {fuel : Nat}
  {before : Editing runtime order values}

/-- A cursor that is on a record is on one that is stored. -/
def Marked.Stored (marked : Marked) : Prop :=
  ∀ record, marked.mark = .on record → record ∈ marked.records

/-- A record that a move gets is stored. -/
theorem Marked.mem_of_sees {marked : Marked} (stored : marked.Stored) {op : DbCursorOp}
    {record : KeyDataPair} (sees : marked.sees order values op = some (.ok (some record))) :
    record ∈ marked.records := by
  have nearest : ∀ side records mark, (∀ other ∈ records, other ∈ marked.records) →
      Marked.nearest side records mark = some record → record ∈ marked.records := by
    intro side records mark within found
    cases mark with
    | on current | among current | gap current =>
        exact within _ (List.mem_of_find?_eq_some found)
    | unset | lost => exact within _ (List.mem_of_mem_head? found)
  have whole : ∀ other ∈ marked.records, other ∈ marked.records := fun _ inside => inside
  have turned : ∀ other ∈ marked.records.reverse, other ∈ marked.records :=
    fun _ inside => List.mem_reverse.mp inside
  cases op with
  | getCurrent =>
      rw [Marked.sees] at sees
      split at sees
      · cases sees
      · rename_i current here
        cases sees
        exact stored _ here
      · cases sees
  | next =>
      rw [Marked.sees] at sees
      split at sees
      all_goals first
        | exact nearest _ _ _ whole (Except.ok.inj (Option.some.inj sees))
        | cases sees
  | nextNoDup =>
      rw [Marked.sees] at sees
      split at sees
      · cases sees
      · exact nearest _ _ _ whole (Except.ok.inj (Option.some.inj sees))
  | prev | prevNoDup =>
      rw [Marked.sees] at sees
      split at sees
      all_goals first
        | exact nearest _ _ _ turned (Except.ok.inj (Option.some.inj sees))
        | cases sees
  | first | firstDup | last | lastDup | nextDup | prevDup => cases sees

/-- No call leads a cursor to a record that is not stored. -/
theorem Marked.stored_call {marked after : Marked} (stored : marked.Stored) {call : CursorCall}
    {told : Except DbRetCode CursorReply}
    (described : marked.call order values call = some (told, after)) : after.Stored := by
  have missed : Marked.Stored ⟨marked.records, marked.mark.missed⟩ := by
    intro other on
    rcases mark : marked.mark with _ | _ | _ | _ | _ <;> (rw [mark] at on; cases on)
  have keyed : ∀ {record : KeyDataPair}, Marked.Stored ⟨marked.records, .among record⟩ :=
    fun _ on => by cases on
  have get : ∀ op reply, marked.get order values op .on reply = some (told, after) →
      after.Stored := by
    intro op reply described
    obtain ⟨seen, sees, equal⟩ := Option.map_eq_some_iff.mp described
    match seen with
    | .error _ | .ok none =>
        cases equal
        exact missed
    | .ok (some record) =>
        cases equal
        rintro other ⟨⟩
        exact Marked.mem_of_sees stored sees
  have getKey : ∀ op reply, marked.get order values op .among reply = some (told, after) →
      after.Stored := by
    intro op reply described
    obtain ⟨seen, sees, equal⟩ := Option.map_eq_some_iff.mp described
    match seen with
    | .error _ | .ok none =>
        cases equal
        exact missed
    | .ok (some record) =>
        cases equal
        exact keyed
  have find : ∀ accepts reply, marked.find accepts .on reply = some (told, after) →
      after.Stored := by
    intro accepts reply described
    rw [Marked.find] at described
    split at described
    · rename_i record found
      cases described
      rintro other ⟨⟩
      exact List.mem_of_find?_eq_some found
    · cases described
      exact fun _ on => by cases on
  have delete : ∀ removed, marked.delete removed = some (told, after) → after.Stored := by
    intro removed described
    rw [Marked.delete] at described
    split at described
    · cases described
      exact stored
    · cases described
      exact fun _ on => by cases on
    · cases described
  cases call with
  | getCurrent | getNext | getPrevious | getNextByKey | getPreviousByKey => exact get _ _ described
  | getNextKey | getPreviousKey =>
      rw [Marked.call] at described
      exact getKey _ _ described
  | getCurrentKey =>
      rw [Marked.call, Marked.currentKey] at described
      split at described
      all_goals cases described
      all_goals exact stored
  | moveToKey key =>
      rw [Marked.call, Marked.find] at described
      split at described
      · cases described
        exact keyed
      · cases described
        exact fun _ on => by cases on
  | getAt | getNearest | getPairAt | getPairNearest =>
      rw [Marked.call] at described
      exact find _ _ described
  | delete | deleteKey => exact delete _ described
  | count =>
      rw [Marked.call] at described
      split at described
      · cases described
        exact stored
      · cases described
        exact stored
      · cases described

/-- So a loop may follow any calls: its condition on the cursor holds after them. -/
theorem Marked.stored_session {marked after : Marked} (stored : marked.Stored)
    {calls : List CursorCall} {replies : List (Except DbRetCode CursorReply)}
    (described : marked.session order values calls = some (replies, after)) : after.Stored := by
  induction calls generalizing marked replies with
  | nil =>
      cases described
      exact stored
  | cons first calls ih =>
      obtain ⟨⟨reply, middle⟩, told, rest⟩ := Option.bind_eq_some_iff.mp described
      obtain ⟨⟨later, left⟩, further, equal⟩ := Option.bind_eq_some_iff.mp rest
      cases equal
      exact ih (Marked.stored_call stored told) further

/-- `MDB_FIRST` gets the first record from wherever the cursor is. -/
theorem answers_first {content : Records order values} {mark : Mark}
    (stored : (Marked.mk content.records mark).Stored) :
    Answers .first (mark.leads order values content.records .first)
      (.ok content.records.head?) := by
  cases mark with
  | unset | among _ | gap _ | lost => exact ⟨_, rfl, reached_first _, fun _ => rfl⟩
  | on record =>
      obtain ⟨behind, ahead, split⟩ := List.append_of_mem (stored record rfl)
      have sorted := content.sorted
      dsimp only at split
      rw [split, ← behind.reverse_reverse] at sorted
      have place := around_of_split sorted
      rw [List.reverse_reverse, ← split] at place
      refine ⟨_, rfl, ?_, fun _ => rfl⟩
      change reached (Place.first (around order values content.records record)) = _
      rw [place, split]
      have same := reached_first (behind ++ record :: ahead)
      rw [Place.first] at same ⊢
      rw [show (Place.on behind.reverse record ahead).records = behind ++ record :: ahead by
        rw [Place.records, List.reverse_reverse]]
      exact same

/-- A loop over blocks that begins with `MDB_FIRST`. -/
theorem deletingWhere_blocks (c : CursorRef) (chosen : KeyDataPair → Bool)
    (live : before.world.cur c ≠ 0)
    (writable : before.world.native.canWrite (before.cursorPlace (before.world.cur c)).1 = true)
    {side removed : KeyDataPair → KeyDataPair → Bool} {lower : List KeyDataPair}
    {blocks : List (List KeyDataPair)} (isBlocks : Blocks side removed lower blocks)
    {remove : Method (Editing runtime order values) Exception Unit}
    (deletes : Deletes c removed remove) {iterator : CursorIterator}
    (beyond : GoesBeyond order values side iterator.opNext)
    (start : BlocksStart before c iterator.opFirst lower blocks blocks before)
    (enough : blocks.length < fuel) :
    ∃ after, deletingWhere c iterator chosen remove fuel before =
        some (.ok (blocks.map firstOf), after) ∧
      Onward c before after ∧ (after.markedAt c).records = lower ++ leftOf chosen blocks := by
  obtain ⟨after, looped, done⟩ := @foreach_of_exhausts _ _ _ _ _ _ _ invalidPosition _ _ _ _ _ _
    (blocks_exhausts isBlocks deletes beyond live writable) _ _ enough Enumerator.start before start
  rw [← List.map_eq_flatMap] at looped
  exact ⟨after, looped, done⟩

private theorem threeStored_stored (world : World .ascii) :
    ((threeStored world).markedAt 0).Stored := by
  intro record on
  have unset : Mark.unset = .on record := on
  cases unset

/-- From the first record on. -/
theorem blocksStart_first (stored : (before.markedAt c).Stored) {blocks : List (List KeyDataPair)}
    (records : (before.markedAt c).records = blocks.flatten)
    (heads : blocks.flatten.head? = blocks.head?.map firstOf) :
    BlocksStart before c .first [] blocks blocks before := by
  refine ⟨rfl, .refl c before, records, ?_⟩
  rw [← heads, ← records]
  exact @answers_first _ _ (before.contentAt (before.world.cur c)) _ stored

/-- A loop over `ForwardByKey` whose body deletes all values of any of its keys yields the
first record of every key, in order, and leaves the values of the keys that it did not
choose. -/
theorem deleting_keys (c : CursorRef) (chosen : KeyDataPair → Bool)
    (live : before.world.cur c ≠ 0)
    (writable : before.world.native.canWrite (before.cursorPlace (before.world.cur c)).1 = true)
    (stored : (before.markedAt c).Stored) (enough : (before.markedAt c).records.length < fuel) :
    ∃ yielded after,
      deletingWhere c MultiValueCursor.forwardByKey chosen (Editing.deleteKey c .none) fuel before =
        some (.ok yielded, after) ∧
      FirstOfEachKey order values (before.markedAt c).records yielded ∧
      (after.markedAt c).records = (before.markedAt c).records.filter (fun record =>
        !yielded.any fun entry => chosen entry && record.key == entry.key) ∧
      ∀ txn dbi, (txn, dbi) ≠ before.cursorPlace (before.world.cur c) →
        after.contents txn dbi = before.contents txn dbi := by
  have sorted := (before.contentAt (before.world.cur c)).sorted
  have whole : (before.markedAt c).records =
      (runs KeyDataPair.key (before.markedAt c).records).flatten := (Place.flatten_runs _).symm
  have heads : (before.markedAt c).records.head? =
      (runs KeyDataPair.key (before.markedAt c).records).head?.map firstOf := by
    rcases (before.markedAt c).records with _ | ⟨_, _⟩
    · rw [runs]
      rfl
    · rw [runs]
      rfl
  have isBlocks := @blocks_runs order values (before.markedAt c).records sorted
  have bounded := @Place.length_runs_le _ _ _ KeyDataPair.key (before.markedAt c).records
  have removes : Editing.removes (0 ||| DbLibConstants.mdbNoDupData) =
      fun record other => other.key == record.key := by
    funext record other
    rfl
  obtain ⟨after, looped, onward, left⟩ := @deletingWhere_blocks _ _ _ _ _ c chosen live writable
    _ _ [] _ isBlocks _ (removes ▸ deletes_deleteWith c (0 ||| DbLibConstants.mdbNoDupData))
    MultiValueCursor.forwardByKey goesBeyond_nextNoDup
    (blocksStart_first stored whole (by rw [← whole]; exact heads))
    (Nat.lt_of_le_of_lt bounded enough)
  refine ⟨_, after, looped, firstOfEachKey_of_sorted sorted, ?_, onward.others⟩
  rw [left, List.nil_append, leftOf_blocks isBlocks chosen, ← whole]

/-- Deleting a key of three records while the loop runs. -/
theorem deleting_keys_three : ∃ world : World .ascii,
    History Always .none 0 multiValueCursor world ∧
    ∃ yielded after, deletingWhere 0 MultiValueCursor.forwardByKey (fun entry => entry.key == [1])
        (Editing.deleteKey 0 .none) 4 (threeStored world) = some (.ok yielded, after) ∧
      FirstOfEachKey bytewise bytewise [⟨[1], [5]⟩, ⟨[1], [6]⟩, ⟨[2], [7]⟩] yielded := by
  obtain ⟨world, history, live, writable⟩ := threeStored_writable
  obtain ⟨yielded, after, ran, firsts, _⟩ := @deleting_keys _ _ _ 4 (threeStored world) 0
    (fun entry => entry.key == [1]) live writable (threeStored_stored world) (Nat.lt_succ_self 3)
  exact ⟨world, history, yielded, after, ran, firsts⟩

/-- `GetNearest(key)`, and when there is such a record a loop over `ForwardFromCurrent` whose
body calls `Delete` on what is chosen. -/
def deletingFrom (c : CursorRef) (key : Bytes) (chosen : KeyDataPair → Bool) (fuel : Nat) :
    Method (Editing runtime order values) Exception (List KeyDataPair) := do
  let (found, _) ← Editing.find c .setRange ⟨key, []⟩
  if found then
    deletingWhere c Cursor.forwardFromCurrent chosen (Editing.delete c .none) fuel
  else pure []

/-- The records from a key on are the last ones. -/
theorem split_from_key (sorted : SortedBy order values records) (key : Bytes) :
    (records.filter fun record => order.compare record.key key == .lt) ++
      (records.filter fun record => order.compare record.key key != .lt) = records := by
  have upward : records.Pairwise fun a b =>
      (order.compare a.key key != .lt) = true → (order.compare b.key key != .lt) = true := by
    refine sorted.imp fun {a b} either beyond => ?_
    rcases either with less | ⟨same, _⟩
    · refine bne_iff_ne.mpr fun below => ?_
      exact bne_iff_ne.mp beyond (Std.TransCmp.lt_trans less below)
    · exact same ▸ beyond
  have whole := Place.split_of_upward upward
  simp only [Bool.not_not, bne] at whole ⊢
  exact whole

/-- What is left when some of the records from a key on are taken away. -/
theorem left_from_key (sorted : SortedBy order values records) (key : Bytes)
    (chosen : KeyDataPair → Bool) :
    (records.filter fun record => order.compare record.key key == .lt) ++
        ((records.filter fun record => order.compare record.key key != .lt).filter
          fun record => !chosen record) =
      records.filter fun record => order.compare record.key key == .lt || !chosen record := by
  conv => rhs; rw [← split_from_key sorted key]
  rw [List.filter_append]
  refine congrArg₂ _ (List.filter_eq_self.mpr fun record inside => ?_).symm
    (List.filter_congr fun record inside => ?_)
  · rw [(List.mem_filter.mp inside).2, Bool.true_or]
  · have beyond := (List.mem_filter.mp inside).2
    rw [bne, Bool.not_eq_true'] at beyond
    rw [beyond, Bool.false_or]

end Loops

end KdSoftLmdb
