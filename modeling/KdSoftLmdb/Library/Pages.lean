import KdSoftLmdb.Library.Places

/-!
# Reading a run page by page

The records of a run lie on pages, and `lastOnPage` says which of them is the last
of its page. A reader that takes whole pages sees the page of the record it is on
and goes on behind the last record of that page: what it sees is the run, split
where the pages end.

`cut` takes what it saw apart again, into pieces of one size.
-/

namespace KdSoftLmdb

/-- The pieces of this size of a sequence; there are none of size zero. -/
def cut {α : Type} (size : Nat) (items : List α) : List (List α) :=
  if items = [] ∨ size = 0 then [] else items.take size :: cut size (items.drop size)
termination_by items.length
decreasing_by
  rename_i more
  obtain ⟨nonempty, positive⟩ := not_or.mp more
  have some := List.length_pos_iff.mpr nonempty
  rw [List.length_drop]
  omega

/-- Nothing is cut into no chunks. -/
theorem cut_nil {α : Type} (size : Nat) : cut size ([] : List α) = [] := by
  rw [cut, if_pos (Or.inl rfl)]

/-- Pieces of one size are found again in the whole. -/
theorem cut_flatten {α : Type} {size : Nat} (positive : 0 < size) {pieces : List (List α)}
    (sized : ∀ piece ∈ pieces, piece.length = size) : cut size pieces.flatten = pieces := by
  induction pieces with
  | nil => exact cut_nil size
  | cons piece rest ih =>
      have length : piece.length = size := sized piece List.mem_cons_self
      have nonempty : piece ++ rest.flatten ≠ [] := by
        intro empty
        rw [(List.append_eq_nil_iff.mp empty).1] at length
        exact Nat.ne_of_gt positive length.symm
      rw [List.flatten_cons, cut, if_neg (not_or.mpr ⟨nonempty, Nat.ne_of_gt positive⟩),
        ← length, List.take_left, List.drop_left, length,
        ih fun later inside => sized later (List.mem_cons_of_mem _ inside)]

/-- A sequence of several sizes is cut into as many pieces. -/
theorem cut_mul {α : Type} {size count : Nat} (positive : 0 < size) {items : List α}
    (whole : items.length = size * count) :
    (cut size items).length = count ∧ ∀ piece ∈ cut size items, piece.length = size := by
  induction count generalizing items with
  | zero =>
      obtain rfl : items = [] := List.length_eq_zero_iff.mp whole
      simp [cut_nil]
  | succ count ih =>
      have nonempty : items ≠ [] := by
        rintro rfl
        simp only [List.length_nil, Nat.mul_succ] at whole
        omega
      have rest : (items.drop size).length = size * count := by
        rw [List.length_drop, whole, Nat.mul_succ, Nat.add_sub_cancel]
      have first : (items.take size).length = size := by
        rw [List.length_take, whole, Nat.mul_succ]
        omega
      obtain ⟨many, sized⟩ := ih rest
      rw [cut, if_neg (not_or.mpr ⟨nonempty, Nat.ne_of_gt positive⟩)]
      refine ⟨by rw [List.length_cons, many], ?_⟩
      intro piece inside
      rcases List.mem_cons.mp inside with rfl | later
      · exact first
      · exact sized piece later

namespace Place

section Pages

variable {α κ : Type} [DecidableEq κ] (key : α → κ) (lastOnPage : α → Bool)

/-- Neighbours that are on the same page. -/
def joined (earlier later : α) : Bool :=
  decide (key earlier = key later) && !lastOnPage earlier

/-- The records before this one on its page, the nearest first. -/
def pageHead : α → List α → List α
  | _, [] => []
  | record, earlier :: before =>
      if joined key lastOnPage earlier record then earlier :: pageHead earlier before else []

/-- The records after this one on its page. -/
def pageTail : α → List α → List α
  | _, [] => []
  | record, later :: after =>
      if joined key lastOnPage record later then later :: pageTail later after else []

/-- What follows the page of this record. -/
def beyondPage : α → List α → List α
  | _, [] => []
  | record, later :: after =>
      if joined key lastOnPage record later then beyondPage later after else later :: after

/-- To the last record of the page. -/
def toPageEnd : List α → α → List α → Place α
  | before, record, [] => .on before record []
  | before, record, later :: after =>
      if joined key lastOnPage record later then toPageEnd (record :: before) later after
      else .on before record (later :: after)

/-- The records on the page of the cursor. -/
def page : Place α → List α
  | .unset _ => []
  | .on before record after =>
      (pageHead key lastOnPage record before).reverse ++
        record :: pageTail key lastOnPage record after

/-- To the last record of the page of the cursor. -/
def pageEnd : Place α → Place α
  | .unset records => .unset records
  | .on before record after => toPageEnd key lastOnPage before record after

/-- The run of the cursor has more than one record. -/
def amongDuplicates : Place α → Bool
  | .unset _ => false
  | .on before record after =>
      (before.head?.any fun other => key other = key record) ||
        after.head?.any fun other => key other = key record

variable {key} {lastOnPage} {record : α} {items beyond before : List α}

private theorem pageTail_append_beyondPage (record : α) (items : List α) :
    pageTail key lastOnPage record items ++ beyondPage key lastOnPage record items = items := by
  induction items generalizing record with
  | nil => rfl
  | cons later after ih =>
      rw [pageTail, beyondPage]
      split
      · rw [List.cons_append, ih]
      · rfl

private theorem isChain_pageTail (record : α) (items : List α) :
    (record :: pageTail key lastOnPage record items).IsChain
      fun earlier later => joined key lastOnPage earlier later = true := by
  induction items generalizing record with
  | nil => exact List.isChain_singleton record
  | cons later after ih =>
      rw [pageTail]
      split
      · rename_i same
        exact List.isChain_cons_cons.mpr ⟨same, ih later⟩
      · exact List.isChain_singleton record

/-- The last record of a page and the first one beyond it are not on the same page. -/
theorem joined_getLast_pageTail (record : α) (items : List α) :
    ∀ last ∈ (record :: pageTail key lastOnPage record items).getLast?,
      ∀ first ∈ (beyondPage key lastOnPage record items).head?,
        joined key lastOnPage last first = false := by
  induction items generalizing record with
  | nil =>
      intro last _ first none
      cases none
  | cons later after ih =>
      rw [pageTail, beyondPage]
      split
      · rw [List.getLast?_cons_cons]
        exact ih later
      · rename_i apart
        intro last atEnd first atStart
        cases atEnd
        cases atStart
        exact Bool.eq_false_iff.mpr apart

/-- The first page of a run, and the pages of what follows it. -/
theorem splitBy_joined (record : α) (items : List α) :
    (record :: items).splitBy (joined key lastOnPage) =
      (record :: pageTail key lastOnPage record items) ::
        (beyondPage key lastOnPage record items).splitBy (joined key lastOnPage) := by
  have whole : record :: items = (record :: pageTail key lastOnPage record items) ++
      beyondPage key lastOnPage record items := by
    rw [List.cons_append, pageTail_append_beyondPage]
  have one : (record :: pageTail key lastOnPage record items).splitBy (joined key lastOnPage) =
      [record :: pageTail key lastOnPage record items] :=
    List.splitBy_of_isChain (List.cons_ne_nil _ _) (isChain_pageTail record items)
  rw [whole, List.splitBy_append (joined_getLast_pageTail record items), one]
  rfl

/-- There are no more pages than records. -/
theorem length_splitBy_le (joins : α → α → Bool) (records : List α) :
    (records.splitBy joins).length ≤ records.length := by
  have counted : ∀ pages : List (List α), [] ∉ pages → pages.length ≤ pages.flatten.length := by
    intro pages nonempty
    induction pages with
    | nil => exact Nat.le_refl 0
    | cons page rest ih =>
        obtain ⟨here, later⟩ := not_or.mp (mt List.mem_cons.mpr nonempty)
        have some := List.length_pos_iff.mpr (Ne.symm here)
        have onward := ih later
        simp only [List.flatten_cons, List.length_append, List.length_cons]
        omega
  have bound := counted _ (List.nil_notMem_splitBy joins records)
  rwa [List.flatten_splitBy] at bound

/-- Records of different keys do not belong to one chunk. -/
theorem joined_of_foreign {earlier later : α} (foreign : key earlier ≠ key later) :
    joined key lastOnPage earlier later = false := by
  rw [joined, decide_eq_false foreign, Bool.false_and]

private theorem not_joined_of_head {other : α}
    (foreign : ∀ first ∈ (other :: beyond).head?, key first ≠ key record) :
    ¬joined key lastOnPage record other = true :=
  Bool.eq_false_iff.mp (joined_of_foreign (foreign other rfl).symm)

/-- A page does not reach beyond the run. -/
theorem pageTail_append (same : ∀ item ∈ items, key item = key record)
    (foreign : ∀ other ∈ beyond.head?, key other ≠ key record) :
    pageTail key lastOnPage record (items ++ beyond) = pageTail key lastOnPage record items := by
  induction items generalizing record with
  | nil =>
      cases beyond with
      | nil => rfl
      | cons other beyond => exact if_neg (not_joined_of_head foreign)
  | cons later after ih =>
      have here : key later = key record := same later List.mem_cons_self
      have onward := @ih later
        (fun item inside => (same item (List.mem_cons_of_mem _ inside)).trans here.symm)
        (fun other first => here ▸ foreign other first)
      rw [List.cons_append, pageTail, pageTail, onward]

/-- The last record of a page is followed by what follows the page. -/
theorem toPageEnd_append (lastOnPage : α → Bool) (before : List α)
    (same : ∀ item ∈ items, key item = key record)
    (foreign : ∀ other ∈ beyond.head?, key other ≠ key record) :
    ∃ left last, toPageEnd key lastOnPage before record (items ++ beyond) =
        .on left last (beyondPage key lastOnPage record items ++ beyond) ∧
      key last = key record ∧
      ∀ first ∈ (beyondPage key lastOnPage record items).head?,
        joined key lastOnPage last first = false := by
  induction items generalizing before record with
  | nil =>
      refine ⟨before, record, ?_, rfl, fun first none => by cases none⟩
      cases beyond with
      | nil => rfl
      | cons other beyond => exact if_neg (not_joined_of_head foreign)
  | cons later after ih =>
      have here : key later = key record := same later List.mem_cons_self
      rw [List.cons_append, toPageEnd, beyondPage]
      split
      · obtain ⟨left, last, moved, atLast, apart⟩ := @ih later (record :: before)
          (fun item inside => (same item (List.mem_cons_of_mem _ inside)).trans here.symm)
          (fun other first => here ▸ foreign other first)
        exact ⟨left, last, moved, atLast.trans here, apart⟩
      · rename_i apart
        refine ⟨before, record, rfl, rfl, ?_⟩
        intro first atStart
        cases atStart
        exact Bool.eq_false_iff.mpr apart

/-- Nothing precedes a record that starts its chunk. -/
theorem pageHead_of_apart (apart : ∀ earlier ∈ before.head?,
    joined key lastOnPage earlier record = false) : pageHead key lastOnPage record before = [] := by
  cases before with
  | nil => rfl
  | cons earlier before => rw [pageHead, apart earlier rfl, if_neg Bool.false_ne_true]

/-- What lies beyond the page was there before. -/
theorem beyondPage_subset (record : α) (items : List α) :
    beyondPage key lastOnPage record items ⊆ items := by
  intro later inside
  have whole : pageTail key lastOnPage record items ++ beyondPage key lastOnPage record items =
      items := pageTail_append_beyondPage record items
  rw [← whole]
  exact List.mem_append_right _ inside

/-- A record that has a neighbour in its run is among duplicates. -/
theorem amongDuplicates_iff (after : List α) :
    amongDuplicates key (.on before record after) = true ↔
      (∃ other ∈ before.head?, key other = key record) ∨
        ∃ other ∈ after.head?, key other = key record := by
  simp [amongDuplicates, Option.any_eq_true]

end Pages

end Place

end KdSoftLmdb
