import KdSoftLmdb.Library.Pages
import KdSoftLmdb.MultiValueCursor

/-!
# Reading the values of a key in pages

`ForwardMultiple` yields the values of the current key a page at a time. LMDB
keeps pages of values only for a key that has at least two of them. For a single
value it reports success and leaves the data as it was, so the one chunk that the
loop yields is empty and the value is missing.
-/

namespace KdSoftLmdb

variable {runtime : Runtime}

/-- The members of `DbCursorOp` that are answered with a page of values. -/
inductive DbCursorMultiple where
  | getMultiple | nextMultiple
deriving DecidableEq

/-- The values of a page in contiguous memory. -/
def pageData (records : List KeyDataPair) : Bytes := records.flatMap KeyDataPair.data

namespace DbCursorMultiple

open Place

variable (lastOnPage : KeyDataPair → Bool)

/-- The page of a place; `single` is the code for a key with one value, whose data
stays untouched. -/
def pageAt (single : DbRetCode) (place : Place KeyDataPair) :
    (DbRetCode × Bytes) × Place KeyDataPair :=
  if amongDuplicates KeyDataPair.key place then
    ((.success, pageData (page KeyDataPair.key lastOnPage place)),
      pageEnd KeyDataPair.key lastOnPage place)
  else ((single, []), place)

/-- What LMDB answers, and where the cursor stands then. -/
def answer : DbCursorMultiple → Place KeyDataPair → (DbRetCode × Bytes) × Place KeyDataPair
  | .getMultiple, place => pageAt lastOnPage .success place
  | .nextMultiple, place =>
      match nextInRun KeyDataPair.key place with
      | some there => pageAt lastOnPage .notFound there
      | none => ((.notFound, []), place)

end DbCursorMultiple

/-- `mdb_cursor_get(cursor, key, data, op)` for such an operation. -/
def Browsing.mdbCursorGetMultiple (lastOnPage : KeyDataPair → Bool) (cursor : IntPtr)
    (op : DbCursorMultiple) (browsing : Browsing runtime) :
    (DbRetCode × Bytes) × Browsing runtime :=
  ((op.answer lastOnPage (browsing.places cursor)).1,
    browsing.goTo cursor (op.answer lastOnPage (browsing.places cursor)).2)

namespace FixedMultiValueCursor

section Members

variable (lastOnPage : KeyDataPair → Bool) (c : CursorRef)

/-- `GetData(out data, op)` with an operation that is answered with a page. -/
def getPage (op : DbCursorMultiple) : Method (Browsing runtime) Exception (Bool × Bytes) := do
  let handle ← Browsing.onWorld (Cursor.checkDisposed c)
  let (ret, data) ← .call (Browsing.mdbCursorGetMultiple lastOnPage handle op)
  if ret = .notFound then pure (false, data)
  else do
    Browsing.onWorld (checkRetCode ret)
    pure (true, data)

/-- `GetMultiple(out data)` -/
def getMultiple : Method (Browsing runtime) Exception (Bool × Bytes) :=
  getPage lastOnPage c .getMultiple

/-- `GetNextMultiple(out data)` -/
def getNextMultiple : Method (Browsing runtime) Exception (Bool × Bytes) :=
  getPage lastOnPage c .nextMultiple

/-- The chunks of one loop over `ForwardMultiple`. -/
def forwardMultiple (fuel : Nat) : Method (Browsing runtime) Exception (List Bytes) :=
  foreach (getMultiple lastOnPage c) (getNextMultiple lastOnPage c) invalidPosition
    (fun data => pure [data]) fuel none .start

end Members

section Pages

variable {lastOnPage : KeyDataPair → Bool} {c : CursorRef} {browsing : Browsing runtime}

open Place

/-- Success hands out the data; a page that is not found ends the loop. -/
theorem getPage_of_answer (op : DbCursorMultiple) {place there : Place KeyDataPair}
    {ret : DbRetCode} {data : Bytes} (stands : Stands .onward c place browsing)
    (answered : op.answer lastOnPage place = ((ret, data), there))
    (expected : ret = .success ∨ ret = .notFound) :
    ∃ later, getPage lastOnPage c op browsing = some (.ok (ret = .success, data), later) ∧
      Stands .onward c there later := by
  obtain ⟨live, rfl⟩ := stands
  have got : Browsing.mdbCursorGetMultiple lastOnPage (browsing.world.cur c) op browsing =
      ((ret, data), browsing.goTo (browsing.world.cur c) there) := by
    have seen : op.answer lastOnPage (browsing.places (browsing.world.cur c)) =
        ((ret, data), there) := answered
    rw [Browsing.mdbCursorGetMultiple, seen]
  have here : (browsing.goTo (browsing.world.cur c) there).places (browsing.world.cur c) = there :=
    if_pos rfl
  refine ⟨browsing.goTo (browsing.world.cur c) there, ?_, live, here⟩
  rw [getPage, Method.bind_of_ok (browse_of_some (Cursor.checkDisposed_of_live live)),
    Method.call_bind, got]
  rcases expected with rfl | rfl
  · rfl
  · rfl

/-- The pages that the loop yields from the first value of a key on; `items` are
its other values. -/
def pagesOf (lastOnPage : KeyDataPair → Bool) (record : KeyDataPair) (items : List KeyDataPair) :
    List (List KeyDataPair) :=
  if items = [] then [[]] else (record :: items).splitBy (joined KeyDataPair.key lastOnPage)

/-- The cursor is on the last record of a page of the key, before these values. -/
def AtPageEnd (lastOnPage : KeyDataPair → Bool) (c : CursorRef) (key : Bytes)
    (beyond items : List KeyDataPair) (browsing : Browsing runtime) : Prop :=
  ∃ before record, Stands .onward c (.on before record (items ++ beyond)) browsing ∧
    record.key = key ∧ (∀ item ∈ items, item.key = key) ∧
    ∀ first ∈ items.head?, joined KeyDataPair.key lastOnPage record first = false

/-- What lies ahead of a loop over the pages of a key. -/
def PagesAhead (lastOnPage : KeyDataPair → Bool) (c : CursorRef) (key : Bytes)
    (beyond : List KeyDataPair) (started : Bool) (ahead : List (List KeyDataPair))
    (browsing : Browsing runtime) : Prop :=
  if started then ∃ items, AtPageEnd lastOnPage c key beyond items browsing ∧
    ahead = items.splitBy (joined KeyDataPair.key lastOnPage)
  else ∃ before record items, Stands .onward c (.on before record (items ++ beyond)) browsing ∧
    (∀ earlier ∈ before.head?, earlier.key ≠ record.key) ∧ record.key = key ∧
    (∀ item ∈ items, item.key = key) ∧ ahead = pagesOf lastOnPage record items

/-- At the first record of a page of a key with several values the answer is that
page, and the cursor moves to its end. -/
theorem pageAt_of_start (single : DbRetCode) {before items beyond : List KeyDataPair}
    {record : KeyDataPair} (same : ∀ item ∈ items, item.key = record.key)
    (foreign : ∀ other ∈ beyond.head?, other.key ≠ record.key)
    (start : ∀ earlier ∈ before.head?, joined KeyDataPair.key lastOnPage earlier record = false)
    (several : amongDuplicates KeyDataPair.key (.on before record (items ++ beyond)) = true) :
    ∃ left last, DbCursorMultiple.pageAt lastOnPage single (.on before record (items ++ beyond)) =
        ((.success, pageData (record :: pageTail KeyDataPair.key lastOnPage record items)),
          .on left last (beyondPage KeyDataPair.key lastOnPage record items ++ beyond)) ∧
      last.key = record.key ∧
      ∀ first ∈ (beyondPage KeyDataPair.key lastOnPage record items).head?,
        joined KeyDataPair.key lastOnPage last first = false := by
  obtain ⟨left, last, moved, atLast, apart⟩ := toPageEnd_append lastOnPage before same foreign
  refine ⟨left, last, ?_, atLast, apart⟩
  rw [DbCursorMultiple.pageAt, if_pos several, page, pageHead_of_apart start,
    pageTail_append same foreign, pageEnd, moved]
  rfl

/-- A single value has no page. -/
theorem not_amongDuplicates {before beyond : List KeyDataPair} {record : KeyDataPair}
    (start : ∀ earlier ∈ before.head?, earlier.key ≠ record.key)
    (foreign : ∀ other ∈ beyond.head?, other.key ≠ record.key) :
    amongDuplicates KeyDataPair.key (.on before record beyond) = false := by
  refine Bool.eq_false_iff.mpr fun several => ?_
  rcases (amongDuplicates_iff beyond).mp several with ⟨earlier, near, same⟩ | ⟨other, near, same⟩
  · exact start earlier near same
  · exact foreign other near same

/-- Behind the last page of the key there is none. -/
theorem AtPageEnd.done {key : Bytes} {beyond : List KeyDataPair}
    (foreign : ∀ record ∈ beyond.head?, record.key ≠ key)
    (atEnd : AtPageEnd lastOnPage c key beyond [] browsing) :
    ∃ after, getNextMultiple lastOnPage c browsing = some (.ok (false, []), after) := by
  obtain ⟨before, record, stands, here, _, _⟩ := atEnd
  have last : nextInRun KeyDataPair.key (.on before record ([] ++ beyond)) = none := by
    cases beyond with
    | nil => rfl
    | cons other beyond =>
        have different : other.key ≠ record.key := here ▸ foreign other rfl
        exact if_neg different
  have answered : DbCursorMultiple.nextMultiple.answer lastOnPage
      (.on before record ([] ++ beyond)) = ((.notFound, []), .on before record ([] ++ beyond)) := by
    rw [DbCursorMultiple.answer, last]
  obtain ⟨after, got, _⟩ := getPage_of_answer .nextMultiple stands answered (.inr rfl)
  exact ⟨after, got⟩

/-- The next page of the key begins behind the one that was seen. -/
theorem AtPageEnd.moves {key : Bytes} {beyond items : List KeyDataPair} {other : KeyDataPair}
    (foreign : ∀ record ∈ beyond.head?, record.key ≠ key)
    (atEnd : AtPageEnd lastOnPage c key beyond (other :: items) browsing) :
    ∃ after, getNextMultiple lastOnPage c browsing =
        some (.ok (true, pageData (other :: pageTail KeyDataPair.key lastOnPage other items)),
          after) ∧
      AtPageEnd lastOnPage c key beyond (beyondPage KeyDataPair.key lastOnPage other items)
        after := by
  obtain ⟨before, record, stands, here, same, apart⟩ := atEnd
  have hereOther : other.key = key := same other List.mem_cons_self
  have sameOther : ∀ item ∈ items, item.key = other.key := fun item inside =>
    (same item (List.mem_cons_of_mem _ inside)).trans hereOther.symm
  have start : ∀ earlier ∈ (record :: before).head?,
      joined KeyDataPair.key lastOnPage earlier other = false := by
    intro earlier near
    cases near
    exact apart other rfl
  have several : amongDuplicates KeyDataPair.key
      (.on (record :: before) other (items ++ beyond)) = true :=
    (amongDuplicates_iff _).mpr (.inl ⟨record, rfl, here.trans hereOther.symm⟩)
  obtain ⟨left, last, answer, atLast, apart⟩ := pageAt_of_start .notFound sameOther
    (fun o near => hereOther ▸ foreign o near) start several
  have next : nextInRun KeyDataPair.key (.on before record (other :: items ++ beyond)) =
      some (.on (record :: before) other (items ++ beyond)) :=
    if_pos (hereOther.trans here.symm)
  have answered : DbCursorMultiple.nextMultiple.answer lastOnPage
      (.on before record (other :: items ++ beyond)) =
        DbCursorMultiple.pageAt lastOnPage .notFound
          (.on (record :: before) other (items ++ beyond)) := by
    rw [DbCursorMultiple.answer, next]
  obtain ⟨after, got, stands⟩ := getPage_of_answer .nextMultiple stands (answered.trans answer)
    (.inl rfl)
  refine ⟨after, got, left, last, stands, atLast.trans hereOther, ?_, apart⟩
  exact fun item inside => (sameOther item (beyondPage_subset _ _ inside)).trans hereOther

/-- From the first value of a key `GetMultiple` gets its first page: an empty one if
it is the only value. -/
theorem getMultiple_of_start {before beyond items : List KeyDataPair} {record : KeyDataPair}
    (stands : Stands .onward c (.on before record (items ++ beyond)) browsing)
    (start : ∀ earlier ∈ before.head?, earlier.key ≠ record.key)
    (foreign : ∀ other ∈ beyond.head?, other.key ≠ record.key)
    (same : ∀ item ∈ items, item.key = record.key) {first : List KeyDataPair}
    {rest : List (List KeyDataPair)} (split : first :: rest = pagesOf lastOnPage record items) :
    ∃ after, getMultiple lastOnPage c browsing = some (.ok (true, pageData first), after) ∧
      ∃ left, AtPageEnd lastOnPage c record.key beyond left after ∧
        rest = left.splitBy (joined KeyDataPair.key lastOnPage) := by
  rw [pagesOf] at split
  split at split
  · rename_i single
    subst single
    cases split
    have answered : DbCursorMultiple.getMultiple.answer lastOnPage
        (.on before record ([] ++ beyond)) = ((.success, []), .on before record ([] ++ beyond)) :=
      if_neg (Bool.eq_false_iff.mp (not_amongDuplicates start foreign))
    obtain ⟨after, got, stands⟩ := getPage_of_answer .getMultiple stands answered (.inl rfl)
    exact ⟨after, got, [], ⟨before, record, stands, rfl, same, fun _ none => by cases none⟩, rfl⟩
  · rename_i nonempty
    obtain ⟨other, items, rfl⟩ := List.exists_cons_of_ne_nil nonempty
    have several : amongDuplicates KeyDataPair.key
        (.on before record (other :: items ++ beyond)) = true :=
      (amongDuplicates_iff _).mpr (.inr ⟨other, rfl, same other List.mem_cons_self⟩)
    obtain ⟨left, last, answer, atLast, apart⟩ := pageAt_of_start .success same foreign
      (fun earlier near => joined_of_foreign (start earlier near)) several
    obtain ⟨after, got, stands⟩ := getPage_of_answer .getMultiple stands answer (.inl rfl)
    rw [splitBy_joined] at split
    cases split
    exact ⟨after, got, _, ⟨left, last, stands, atLast,
      fun item inside => same item (beyondPage_subset _ _ inside), apart⟩, rfl⟩

private theorem pages_enumerates (lastOnPage : KeyDataPair → Bool) (c : CursorRef) {key : Bytes}
    {beyond : List KeyDataPair} (foreign : ∀ record ∈ beyond.head?, record.key ≠ key) :
    Enumerates (@getMultiple runtime lastOnPage c) (getNextMultiple lastOnPage c)
      (fun data => pure [data]) pageData (fun page => [pageData page])
      (PagesAhead lastOnPage c key beyond)
      (fun _ rest browsing => ∃ items, AtPageEnd lastOnPage c key beyond items browsing ∧
        rest = items.splitBy (joined KeyDataPair.key lastOnPage))
      (fun _ => True) where
  left _ _ _ _ := trivial
  done started browsing ahead := by
    cases started with
    | true =>
        obtain ⟨items, atEnd, none⟩ := ahead
        have empty : items = [] := List.splitBy_eq_nil.mp none.symm
        subst empty
        obtain ⟨after, got⟩ := atEnd.done foreign
        exact ⟨_, after, got, trivial⟩
    | false =>
        obtain ⟨before, record, items, _, _, _, _, none⟩ := ahead
        rw [pagesOf] at none
        split at none
        · cases none
        · exact absurd (List.splitBy_eq_nil.mp none.symm) (List.cons_ne_nil _ _)
  moves started first rest browsing ahead := by
    cases started with
    | true =>
        obtain ⟨items, atEnd, split⟩ := ahead
        cases items with
        | nil => cases split
        | cons other items =>
            rw [splitBy_joined] at split
            cases split
            obtain ⟨after, got, atEnd⟩ := atEnd.moves foreign
            exact ⟨after, got, _, atEnd, rfl⟩
    | false =>
        obtain ⟨before, record, items, stands, start, rfl, same, split⟩ := ahead
        exact getMultiple_of_start stands start foreign same split
  runs page rest browsing here := ⟨browsing, rfl, here⟩

/-- From the first value of a key the loop yields its pages. -/
theorem forwardMultiple_yields (lastOnPage : KeyDataPair → Bool)
    {before after : List KeyDataPair} {record : KeyDataPair} {fuel : Nat}
    (stands : Stands .onward c (.on before record after) browsing)
    (start : ∀ earlier ∈ before.head?, earlier.key ≠ record.key)
    (enough : (record :: after).length < fuel) :
    outcome (forwardMultiple lastOnPage c fuel) browsing =
      some (.ok ((pagesOf lastOnPage record
        (after.takeWhile fun other => other.key = record.key)).map pageData)) := by
  have split : (after.takeWhile fun other => other.key = record.key) ++
      (after.dropWhile fun other => other.key = record.key) = after :=
    List.takeWhile_append_dropWhile
  have same : ∀ item ∈ after.takeWhile fun other => other.key = record.key,
      item.key = record.key := by
    intro item inside
    simpa using List.mem_takeWhile_imp inside
  have foreign : ∀ other ∈ (after.dropWhile fun other => other.key = record.key).head?,
      other.key ≠ record.key := fun _ => key_ne_of_head_dropWhile
  have ahead : PagesAhead lastOnPage c record.key
      (after.dropWhile fun other => other.key = record.key) false
      (pagesOf lastOnPage record (after.takeWhile fun other => other.key = record.key))
      browsing :=
    ⟨before, record, _, split.symm ▸ stands, start, rfl, same, rfl⟩
  have bounded : (pagesOf lastOnPage record
      (after.takeWhile fun other => other.key = record.key)).length < fuel := by
    have shorter := (List.takeWhile_prefix (l := after) fun other =>
      decide (other.key = record.key)).length_le
    have pages := length_splitBy_le (joined KeyDataPair.key lastOnPage)
      (record :: after.takeWhile fun other => other.key = record.key)
    simp only [List.length_cons] at enough pages
    rw [pagesOf]
    split
    · simp only [List.length_cons, List.length_nil]
      omega
    · omega
  obtain ⟨later, looped, _⟩ := @foreach_of_enumerates _ _ _ _ _ _ _ invalidPosition _ _ _ _ _ _
    (pages_enumerates lastOnPage c foreign) _ fuel bounded none Enumerator.start browsing ahead
  rw [outcome, forwardMultiple, looped, List.map_eq_flatMap]
  rfl

end Pages

section Results

open Place

/-- The values of a key. -/
def valuesOf (records : List KeyDataPair) (key : Bytes) : List Bytes :=
  (records.filter fun item => item.key = key).map KeyDataPair.data

/-- Before the first record of a key in sorted records no other has the key. -/
theorem key_ne_of_mem_before {order values : KeyOrder} {before after : List KeyDataPair}
    {record item : KeyDataPair} (sorted : SortedBy order values (before.reverse ++ record :: after))
    (start : ∀ earlier ∈ before.head?, earlier.key ≠ record.key) (inside : item ∈ before) :
    item.key ≠ record.key := by
  obtain ⟨ahead, _, across⟩ := List.pairwise_append.mp sorted
  cases before with
  | nil => cases inside
  | cons nearest before =>
      have nearestBefore : order.compare nearest.key record.key = .lt :=
        (across nearest (by simp) record List.mem_cons_self).resolve_right
          fun same => start nearest rfl same.1
      have itemBefore : order.compare item.key record.key = .lt := by
        rcases List.mem_cons.mp inside with rfl | further
        · exact nearestBefore
        · rw [List.reverse_cons] at ahead
          have order := (List.pairwise_append.mp ahead).2.2 item (List.mem_reverse.mpr further)
            nearest List.mem_cons_self
          rcases order with smaller | same
          · exact Std.TransCmp.lt_trans smaller nearestBefore
          · rw [same.1]
            exact nearestBefore
      intro same
      exact Direction.onward.not_precedes_self order _ (same ▸ itemBefore)

/-- In sorted records the values of a key are those of the run that begins with it. -/
theorem valuesOf_of_start {order values : KeyOrder} {before after : List KeyDataPair}
    {record : KeyDataPair} (sorted : SortedBy order values (before.reverse ++ record :: after))
    (start : ∀ earlier ∈ before.head?, earlier.key ≠ record.key) :
    valuesOf (before.reverse ++ record :: after) record.key =
      (record :: after.takeWhile fun other => other.key = record.key).map KeyDataPair.data := by
  have behind : before.reverse.filter (fun item => item.key = record.key) = [] := by
    refine List.filter_eq_nil_iff.mpr fun item inside => ?_
    exact mt of_decide_eq_true
      (key_ne_of_mem_before sorted start (List.mem_reverse.mp inside))
  have ahead : after.filter (fun item => item.key = record.key) =
      after.takeWhile fun other => other.key = record.key := by
    have whole : after = (after.takeWhile fun other => other.key = record.key) ++
        after.dropWhile fun other => other.key = record.key :=
      List.takeWhile_append_dropWhile.symm
    have beyond : (after.dropWhile fun other => other.key = record.key).filter
        (fun item => item.key = record.key) = [] := by
      refine List.filter_eq_nil_iff.mpr fun item inside => ?_
      have onward := Direction.onward.sorted_ordered (List.pairwise_append.mp sorted).2.1
      have larger := Place.before_of_mem_dropWhile (Direction.onward.precedes_trans order) onward
        inside
      intro same
      exact Direction.onward.not_precedes_self order _ (of_decide_eq_true same ▸ larger)
    have inside : (after.takeWhile fun other => other.key = record.key).filter
        (fun item => item.key = record.key) =
          after.takeWhile fun other => other.key = record.key :=
      List.filter_eq_self.mpr fun _ => List.mem_takeWhile_imp
    calc after.filter (fun item => item.key = record.key)
        = ((after.takeWhile fun other => other.key = record.key) ++
            after.dropWhile fun other => other.key = record.key).filter
              fun item => item.key = record.key := by rw [← whole]
      _ = after.takeWhile fun other => other.key = record.key := by
        rw [List.filter_append, inside, beyond, List.append_nil]
  rw [valuesOf, List.filter_append, behind, List.nil_append,
    List.filter_cons_of_pos (by simp), ahead]

/-- The chunks of a key with several values hold exactly these. -/
theorem cut_pagesOf {lastOnPage : KeyDataPair → Bool} {record : KeyDataPair}
    {items : List KeyDataPair} {dataSize : Nat} (several : items ≠ []) (positive : 0 < dataSize)
    (fixed : ∀ item ∈ record :: items, item.data.length = dataSize) :
    cut dataSize ((pagesOf lastOnPage record items).map pageData).flatten =
      (record :: items).map KeyDataPair.data := by
  have whole : ((pagesOf lastOnPage record items).map pageData).flatten =
      ((record :: items).map KeyDataPair.data).flatten := by
    rw [pagesOf, if_neg several]
    calc (((record :: items).splitBy (joined KeyDataPair.key lastOnPage)).map pageData).flatten
        = ((((record :: items).splitBy (joined KeyDataPair.key lastOnPage)).map
            (List.map KeyDataPair.data)).map List.flatten).flatten := by
          rw [List.map_map]
          rfl
      _ = ((record :: items).map KeyDataPair.data).flatten := by
          rw [← List.flatten_flatten, ← List.map_flatten, List.flatten_splitBy]
  rw [whole]
  refine cut_flatten positive fun piece inside => ?_
  obtain ⟨item, member, rfl⟩ := List.mem_map.mp inside
  exact fixed item member

/-- Two values of a key are different, so they are not empty. -/
theorem dataSize_pos {order values : KeyOrder} {record other : KeyDataPair}
    {rest : List KeyDataPair} {dataSize : Nat}
    (sorted : SortedBy order values (record :: other :: rest)) (same : other.key = record.key)
    (fixed : ∀ item ∈ record :: other :: rest, item.data.length = dataSize) : 0 < dataSize := by
  refine Nat.pos_of_ne_zero fun zero => ?_
  subst zero
  have first : record.data = [] := List.length_eq_zero_iff.mp (fixed record List.mem_cons_self)
  have second : other.data = [] :=
    List.length_eq_zero_iff.mp (fixed other (List.mem_cons_of_mem _ List.mem_cons_self))
  rcases (List.pairwise_cons.mp sorted).1 other List.mem_cons_self with smaller | ⟨_, smaller⟩
  · exact Direction.onward.not_precedes_self order _ (same ▸ smaller)
  · rw [first, second] at smaller
    exact Direction.onward.not_precedes_self values _ smaller

/-- What `ForwardMultiple` yields, taken apart every `dataSize` bytes, is the values of
the key, which is what `ValuesForward` yields. -/
def ReadsValues (lastOnPage : KeyDataPair → Bool) (c : CursorRef) (dataSize fuel : Nat)
    (values : List Bytes) (browsing : Browsing runtime) : Prop :=
  ∃ chunks, outcome (forwardMultiple lastOnPage c fuel) browsing = some (.ok chunks) ∧
    cut dataSize chunks.flatten = values ∧
    outcome (foreachValue c MultiValueCursor.valuesForward none fuel fun value => pure [value])
      browsing = some (.ok values)

/-- From the first value of a key, however its values are split into pages, the chunks
of `ForwardMultiple` hold the values of the key exactly when it has more than one. -/
theorem forwardMultiple_reads_iff (lastOnPage : KeyDataPair → Bool) (c : CursorRef)
    {order values : KeyOrder} {browsing : Browsing runtime} {before after : List KeyDataPair}
    {record : KeyDataPair} {dataSize fuel : Nat} (live : browsing.world.cur c ≠ 0)
    (here : browsing.places (browsing.world.cur c) = .on before record after)
    (start : ∀ earlier ∈ before.head?, earlier.key ≠ record.key)
    (sorted : SortedBy order values (browsing.records c))
    (fixed : ∀ item ∈ browsing.records c, item.data.length = dataSize)
    (enough : (browsing.records c).length < fuel) :
    ReadsValues lastOnPage c dataSize fuel (valuesOf (browsing.records c) record.key) browsing ↔
      2 ≤ (valuesOf (browsing.records c) record.key).length := by
  have stands : Stands .onward c (.on before record after) browsing := ⟨live, here⟩
  have records : browsing.records c = before.reverse ++ record :: after := by
    rw [Browsing.records, here]
    rfl
  rw [records] at sorted fixed enough ⊢
  have bounded : (record :: after).length < fuel := by
    rw [List.length_append] at enough
    omega
  have chunks := forwardMultiple_yields lastOnPage stands start bounded
  obtain ⟨_, later, looped, _⟩ := @values_of_run _ _ _ _ none _ _ _ _ stands start bounded
  have single : outcome (foreachValue c MultiValueCursor.valuesForward none fuel
      fun value => pure [value]) browsing = some (.ok ((record ::
        after.takeWhile fun other => other.key = record.key).map KeyDataPair.data)) :=
    congrArg (Option.map Prod.fst) looped
  have part : (record :: after.takeWhile fun other => other.key = record.key).Sublist
      (before.reverse ++ record :: after) :=
    ((List.takeWhile_sublist _).cons_cons record).trans (List.sublist_append_right _ _)
  have run : ∀ item ∈ after.takeWhile fun other => other.key = record.key,
      item.key = record.key := by
    intro item inside
    simpa using List.mem_takeWhile_imp inside
  rw [valuesOf_of_start sorted start]
  obtain ⟨items, taken⟩ : ∃ items, (after.takeWhile fun other => other.key = record.key) = items :=
    ⟨_, rfl⟩
  rw [taken] at chunks single part run ⊢
  cases items with
  | nil =>
      refine ⟨?_, fun several => absurd several (by simp)⟩
      rintro ⟨other, yields, pieces, _⟩
      cases chunks.symm.trans yields
      rw [pagesOf, if_pos rfl] at pieces
      exact absurd ((cut_nil dataSize).symm.trans pieces) (List.cons_ne_nil _ _).symm
  | cons other rest =>
      have sized : ∀ item ∈ record :: other :: rest, item.data.length = dataSize :=
        fun item inside => fixed item (part.subset inside)
      have positive : 0 < dataSize :=
        dataSize_pos (sorted.sublist part) (run other List.mem_cons_self) sized
      refine ⟨fun _ => by simp, fun _ => ⟨_, chunks, ?_, single⟩⟩
      exact cut_pagesOf (List.cons_ne_nil _ _) positive sized

end Results

/-- One key with a single value and one with two. -/
def singleAndDouble : List KeyDataPair := [⟨[1], [5]⟩, ⟨[2], [6]⟩, ⟨[2], [7]⟩]

/-- The cursor is on the first value of the key that has two. -/
def onDouble (world : World .ascii) : Browsing .ascii :=
  ⟨world, fun _ => .on [⟨[1], [5]⟩] ⟨[2], [6]⟩ [⟨[2], [7]⟩]⟩

/-- The cursor is on the value of the key that has one. -/
def onSingle (world : World .ascii) : Browsing .ascii :=
  ⟨world, fun _ => .on [] ⟨[1], [5]⟩ [⟨[2], [6]⟩, ⟨[2], [7]⟩]⟩

/-- A key with two values, read in one chunk. -/
theorem forwardMultiple_reads_two : ∃ world : World .ascii,
    History Always .none 0 multiValueCursor world ∧
    ReadsValues (fun item => item.data = [6]) 0 1 4 [[6], [7]] (onDouble world) := by
  obtain ⟨world, history, live⟩ := history_of_replay Always .none 0 multiValueCursor
    (fun world : World .ascii => world.cur 0 ≠ 0) (by decide +kernel)
  have records : (onDouble world).records 0 = singleAndDouble := rfl
  have sorted : SortedBy bytewise bytewise ((onDouble world).records 0) := by
    rw [records]
    unfold SortedBy
    decide
  have fixed : ∀ item ∈ (onDouble world).records 0, item.data.length = 1 := by
    rw [records]
    decide
  have values : valuesOf ((onDouble world).records 0) [2] = [[6], [7]] := by
    rw [records]
    decide
  have enough : ((onDouble world).records 0).length < 4 := by
    rw [records]
    decide
  have start : ∀ earlier ∈ [(⟨[1], [5]⟩ : KeyDataPair)].head?, earlier.key ≠ [2] := by decide
  have reads := forwardMultiple_reads_iff (fun item => item.data = [6]) 0 live rfl start sorted
    fixed enough
  rw [values] at reads
  exact ⟨world, history, reads.mpr (by decide)⟩

/-- The value of a key that has no other is not read. -/
theorem forwardMultiple_misses_single : ∃ world : World .ascii,
    History Always .none 0 multiValueCursor world ∧
    valuesOf ((onSingle world).records 0) [1] = [[5]] ∧
    outcome (forwardMultiple (fun _ => false) 0 4) (onSingle world) = some (.ok [[]]) ∧
    ¬ReadsValues (fun _ => false) 0 1 4 [[5]] (onSingle world) := by
  obtain ⟨world, history, observed⟩ := history_of_replay Always .none 0 multiValueCursor
    (fun world : World .ascii => outcome (forwardMultiple (fun _ => false) 0 4) (onSingle world) =
      some (.ok [[]]))
    (by decide +kernel)
  refine ⟨world, history, rfl, observed, ?_⟩
  rintro ⟨chunks, yields, pieces, _⟩
  cases observed.symm.trans yields
  exact absurd ((cut_nil 1).symm.trans pieces) (by decide)

end FixedMultiValueCursor

end KdSoftLmdb
