import Mathlib

/-!
# Moving over a sequence of keyed records

A `Place` is a cursor over a list: on no record yet, or on one with the records
before it (the nearest first) and after it. Records with the same key that stand
side by side form a run; a cursor moves by records, by runs, or within a run.
Every backward move is a forward move over the mirrored place.
-/

namespace KdSoftLmdb

/-- Where a cursor stands in a sequence of records. -/
inductive Place (α : Type) where
  | unset (records : List α)
  | on (before : List α) (record : α) (after : List α)

/-- The maximal runs of records with the same key. -/
def runs {α κ : Type} [DecidableEq κ] (key : α → κ) : List α → List (List α)
  | [] => []
  | record :: rest =>
      (record :: rest.takeWhile fun other => key other = key record) ::
        runs key (rest.dropWhile fun other => key other = key record)
termination_by records => records.length
decreasing_by exact Nat.lt_succ_of_le (List.dropWhile_suffix _).length_le

namespace Place

variable {α κ : Type} [DecidableEq κ] (key : α → κ)

/-- The whole sequence. -/
def records : Place α → List α
  | .unset records => records
  | .on before record after => before.reverse ++ record :: after

/-- The same place seen from the other end. -/
def mirror : Place α → Place α
  | .unset records => .unset records.reverse
  | .on before record after => .on after record before

/-- To the record the cursor is on. -/
def current : Place α → Option (Place α)
  | .unset _ => none
  | .on before record after => some (.on before record after)

/-- To the first record. -/
def first (place : Place α) : Option (Place α) :=
  match place.records with
  | [] => none
  | record :: rest => some (.on [] record rest)

/-- To the next record; to the first one if the cursor is on none. -/
def next : Place α → Option (Place α)
  | .unset records => first (.unset records)
  | .on _ _ [] => none
  | .on before record (other :: after) => some (.on (record :: before) other after)

/-- To the first record of the next run; to the first one if the cursor is on none. -/
def nextRun : Place α → Option (Place α)
  | .unset records => first (.unset records)
  | .on before record after =>
      match after.dropWhile fun other => key other = key record with
      | [] => none
      | other :: rest =>
          some (.on ((after.takeWhile fun other => key other = key record).reverse ++
            record :: before) other rest)

/-- To the first record of the run; there is none if the cursor is on no record. -/
def firstInRun : Place α → Option (Place α)
  | .unset _ => none
  | .on before record after =>
      match (before.takeWhile fun other => key other = key record).reverse with
      | [] => some (.on before record after)
      | other :: rest =>
          some (.on (before.dropWhile fun other => key other = key record) other
            (rest ++ record :: after))

/-- To the next record of the run; to the first record if the cursor is on none. -/
def nextInRun : Place α → Option (Place α)
  | .unset records => first (.unset records)
  | .on _ _ [] => none
  | .on before record (other :: after) =>
      if key other = key record then some (.on (record :: before) other after) else none

/-- To the first record that is accepted. -/
def seek (accepts : α → Bool) (place : Place α) : Option (Place α) :=
  match place.records.dropWhile fun record => !accepts record with
  | [] => none
  | record :: after =>
      some (.on (place.records.takeWhile fun record => !accepts record).reverse record after)

/-- The records that the cursor has not passed. -/
def following : Place α → List α
  | .unset records => records
  | .on _ _ after => after

/-- A move as it looks from the other end. -/
def mirrored (move : Place α → Option (Place α)) (place : Place α) : Option (Place α) :=
  (move place.mirror).map mirror

@[simp] theorem mirror_mirror (place : Place α) : place.mirror.mirror = place := by
  cases place with
  | unset records => simp [mirror]
  | on before record after => rfl

@[simp] theorem records_mirror (place : Place α) : place.mirror.records = place.records.reverse := by
  cases place <;> simp [mirror, records]

/-- The first place stands on the first record. -/
theorem first_of_records {place : Place α} {record : α} {rest : List α}
    (records : place.records = record :: rest) : place.first = some (.on [] record rest) := by
  rw [first, records]

/-- There is no first place among no records. -/
theorem first_of_empty {place : Place α} (empty : place.records = []) : place.first = none := by
  rw [first, empty]

/-- The current place is the same from both ends. -/
theorem mirrored_current : mirrored (current : Place α → Option (Place α)) = current := by
  funext place
  cases place <;> rfl

/-- There is no next place when nothing follows. -/
theorem next_of_empty {place : Place α} (empty : place.following = []) : place.next = none := by
  cases place with
  | unset records => exact first_of_empty empty
  | on before record after =>
      cases empty
      rfl

/-- The next place stands on the record that follows. -/
theorem next_of_following {place : Place α} {record : α} {rest : List α}
    (following : place.following = record :: rest) :
    ∃ before, place.next = some (.on before record rest) := by
  cases place with
  | unset records => exact ⟨[], first_of_records following⟩
  | on before earlier after =>
      cases following
      exact ⟨_, rfl⟩

/-- Where a search ends depends on the records only. -/
theorem seek_congr {left right : Place α} (same : left.records = right.records)
    (accepts : α → Bool) : left.seek accepts = right.seek accepts := by
  rw [seek, seek, same]

/-- A search leads to a record of the same sequence. -/
theorem records_of_seek {accepts : α → Bool} {place there : Place α}
    (found : place.seek accepts = some there) :
    ∃ before record after, there = .on before record after ∧
      place.records = before.reverse ++ record :: after ∧ accepts record = true := by
  rw [seek] at found
  split at found
  · cases found
  · rename_i record after dropped
    cases found
    have split := List.takeWhile_append_dropWhile
      (p := fun record => !accepts record) (l := place.records)
    have head := List.head?_dropWhile_not (fun record => !accepts record) place.records
    rw [dropped] at split head
    refine ⟨_, record, after, rfl, ?_, by simpa using head⟩
    rw [List.reverse_reverse, split]

/-- A condition that stays true along the records splits them into a part before and a
part behind. -/
theorem split_of_upward {accepts : α → Bool} {records : List α}
    (upward : records.Pairwise fun a b => accepts a = true → accepts b = true) :
    (records.filter fun record => !accepts record) ++ records.filter accepts = records := by
  induction records with
  | nil => rfl
  | cons record rest ih =>
      obtain ⟨ahead, behind⟩ := List.pairwise_cons.mp upward
      by_cases here : accepts record = true
      · have all : ∀ other ∈ rest, accepts other = true := fun other inside => ahead other inside here
        have none : rest.filter (fun record => !accepts record) = [] :=
          List.filter_eq_nil_iff.mpr fun other inside => by simp [all other inside]
        rw [List.filter_cons_of_neg (by simp [here]), none, List.nil_append,
          List.filter_eq_self.mpr (by simpa [here] using all)]
      · rw [List.filter_cons_of_pos (by simpa using here), List.filter_cons_of_neg here,
          List.cons_append, ih behind]

variable {key} {before after : List α} {record other : α}

/-- At the first record of a run the cursor stays. -/
theorem firstInRun_of_start (start : ∀ r ∈ before.head?, key r ≠ key record) :
    firstInRun key (.on before record after) = some (.on before record after) := by
  rw [firstInRun]
  cases before with
  | nil => rfl
  | cons earlier before =>
      have different : key earlier ≠ key record := start earlier rfl
      simp [different]

/-- From any record of a run the cursor gets to the first one, before the whole run. -/
theorem firstInRun_on (before : List α) (record : α) (after : List α) :
    ∃ left first right, firstInRun key (.on before record after) = some (.on left first right) ∧
      first :: right.takeWhile (fun other => key other = key first) =
        (before.takeWhile fun other => key other = key record).reverse ++
          record :: after.takeWhile fun other => key other = key record := by
  rw [firstInRun]
  match taken : (before.takeWhile fun other => key other = key record).reverse with
  | [] => exact ⟨before, record, after, rfl, rfl⟩
  | first :: rest =>
      have same : ∀ other ∈ first :: rest, key other = key record := by
        intro other inside
        rw [← taken, List.mem_reverse] at inside
        simpa using List.mem_takeWhile_imp inside
      have here : key first = key record := same first List.mem_cons_self
      refine ⟨_, first, rest ++ record :: after, rfl, ?_⟩
      have whole : ∀ other ∈ rest, decide (key other = key record) = true := fun other inside =>
        decide_eq_true (same other (List.mem_cons_of_mem _ inside))
      rw [here, List.takeWhile_append_of_pos whole, List.takeWhile_cons_of_pos (by simp),
        List.cons_append]

/-- A move within a run leads to where the same run is followed by the same record. -/
theorem nextRun_of_nextInRun (same : key other = key record) :
    nextRun key (.on (record :: before) other after) =
      nextRun key (.on before record (other :: after)) := by
  simp only [nextRun, List.dropWhile_cons, List.takeWhile_cons, same, decide_true, if_true,
    List.reverse_cons, List.append_assoc, List.singleton_append]

/-- The runs are the records, cut into pieces. -/
theorem flatten_runs (records : List α) : (runs key records).flatten = records := by
  induction records using runs.induct key with
  | case1 => rw [runs]; rfl
  | case2 record rest ih =>
      rw [runs, List.flatten_cons, ih, List.cons_append, List.takeWhile_append_dropWhile]

/-- There are no more runs than records. -/
theorem length_runs_le (records : List α) : (runs key records).length ≤ records.length := by
  induction records using runs.induct key with
  | case1 => simp [runs]
  | case2 record rest ih =>
      have shorter := (List.dropWhile_suffix (l := rest) fun other =>
        decide (key other = key record)).length_le
      rw [runs, List.length_cons, List.length_cons]
      omega

/-- The records of a run have one key. -/
theorem key_of_mem_runs {records run : List α} (member : run ∈ runs key records) :
    ∃ record rest, run = record :: rest ∧ ∀ other ∈ run, key other = key record := by
  induction records using runs.induct key with
  | case1 =>
      rw [runs] at member
      cases member
  | case2 record rest ih =>
      rw [runs] at member
      rcases List.mem_cons.mp member with rfl | later
      · refine ⟨record, _, rfl, ?_⟩
        intro other inside
        rcases List.mem_cons.mp inside with rfl | inside
        · rfl
        · simpa using List.mem_takeWhile_imp inside
      · exact ih later

/-- What follows a run begins with another key. -/
theorem key_ne_of_head_dropWhile
    (first : other ∈ (after.dropWhile fun other => key other = key record).head?) :
    key other ≠ key record := by
  have head := List.head?_dropWhile_not (fun o => decide (key o = key record)) after
  rw [Option.mem_def.mp first] at head
  exact of_decide_eq_false head

/-- The nearest record before the end of a run belongs to it. -/
theorem key_of_head_takeWhile {earlier : α}
    (nearest : earlier ∈ ((after.takeWhile fun other => key other = key record).reverse ++
      record :: before).head?) : key earlier = key record := by
  match taken : (after.takeWhile fun other => key other = key record).reverse with
  | [] =>
      rw [taken] at nearest
      cases nearest
      rfl
  | last :: _ =>
      rw [taken] at nearest
      cases nearest
      have member : earlier ∈ after.takeWhile fun other => key other = key record :=
        List.mem_reverse.mp (taken ▸ List.mem_cons_self)
      simpa using List.mem_takeWhile_imp member

/-- All the records of a run have its key. -/
theorem key_of_mem_run (inside : other ∈ record :: after.takeWhile fun other =>
    key other = key record) : key other = key record := by
  rcases List.mem_cons.mp inside with rfl | inside
  · rfl
  · simpa using List.mem_takeWhile_imp inside

/-- Records with one key are one run. -/
theorem splitBy_of_same {run : List α} (nonempty : run ≠ [])
    (same : ∀ other ∈ run, key other = key record) :
    run.splitBy (fun left right => key left == key right) = [run] := by
  refine List.splitBy_of_isChain nonempty (List.Pairwise.isChain ?_)
  refine List.pairwise_of_forall_mem_list fun left inLeft right inRight => ?_
  exact beq_iff_eq.mpr ((same left inLeft).trans (same right inRight).symm)

/-- The runs are where the keys of neighbours differ. -/
theorem runs_eq_splitBy (records : List α) :
    runs key records = records.splitBy fun left right => key left == key right := by
  induction records using runs.induct key with
  | case1 => rw [runs, List.splitBy_nil]
  | case2 record rest ih =>
      have split : record :: rest = (record :: rest.takeWhile fun other => key other = key record) ++
          rest.dropWhile fun other => key other = key record := by
        rw [List.cons_append, List.takeWhile_append_dropWhile]
      have apart : ∀ last ∈ (record :: rest.takeWhile fun other =>
          key other = key record).getLast?,
          ∀ first ∈ (rest.dropWhile fun other => key other = key record).head?,
          (key last == key first) = false := by
        intro last atEnd first atStart
        have same := key_of_mem_run (List.mem_of_getLast? atEnd)
        rw [same]
        exact beq_eq_false_iff_ne.mpr (key_ne_of_head_dropWhile atStart).symm
      rw [runs, ih, split, List.splitBy_append apart,
        splitBy_of_same (List.cons_ne_nil _ _) fun _ => key_of_mem_run]
      rfl

/-- The runs of the reversed sequence are the reversed runs in reverse. -/
theorem runs_reverse (records : List α) :
    runs key records.reverse = ((runs key records).map List.reverse).reverse := by
  induction records using runs.induct key with
  | case1 => rw [List.reverse_nil, runs]; rfl
  | case2 record rest ih =>
      have split : (record :: rest).reverse =
          (rest.dropWhile fun other => key other = key record).reverse ++
            (record :: rest.takeWhile fun other => key other = key record).reverse := by
        rw [← List.reverse_append, List.cons_append, List.takeWhile_append_dropWhile]
      have apart : ∀ last ∈ (rest.dropWhile fun other => key other = key record).reverse.getLast?,
          ∀ first ∈ (record :: rest.takeWhile fun other => key other = key record).reverse.head?,
          (key last == key first) = false := by
        intro last atEnd first atStart
        rw [List.getLast?_reverse] at atEnd
        rw [List.head?_reverse] at atStart
        rw [key_of_mem_run (List.mem_of_getLast? atStart)]
        exact beq_eq_false_iff_ne.mpr (key_ne_of_head_dropWhile atEnd)
      have one : (record :: rest.takeWhile fun other => key other = key record).reverse.splitBy
          (fun left right => key left == key right) =
            [(record :: rest.takeWhile fun other => key other = key record).reverse] :=
        splitBy_of_same (by simp) fun _ inside => key_of_mem_run (List.mem_reverse.mp inside)
      rw [runs_eq_splitBy, split, List.splitBy_append apart, ← runs_eq_splitBy, ih, one, runs]
      exact List.reverse_cons.symm

/-- In sorted records, what follows a run has other keys. -/
theorem before_of_mem_dropWhile {before : κ → κ → Prop}
    (trans : ∀ a b c, before a b → before b c → before a c) {record later : α} {rest : List α}
    (sorted : (record :: rest).Pairwise fun a b => before (key a) (key b) ∨ key a = key b)
    (member : later ∈ rest.dropWhile fun other => key other = key record) :
    before (key record) (key later) := by
  obtain ⟨ahead, behind⟩ := List.pairwise_cons.mp sorted
  have suffix := List.dropWhile_suffix (l := rest) fun other => decide (key other = key record)
  match dropped : rest.dropWhile fun other => key other = key record with
  | [] =>
      rw [dropped] at member
      cases member
  | other :: beyond =>
      rw [dropped] at member suffix
      have different : key other ≠ key record :=
        key_ne_of_head_dropWhile (congrArg List.head? dropped)
      have first : before (key record) (key other) :=
        (ahead other (suffix.subset List.mem_cons_self)).resolve_right different.symm
      rcases List.mem_cons.mp member with rfl | inside
      · exact first
      · have sorted := (List.pairwise_cons.mp (behind.sublist suffix.sublist)).1 later inside
        rcases sorted with further | same
        · exact trans _ _ _ first further
        · exact same ▸ first

/-- The runs of sorted records are sorted by their keys. -/
theorem pairwise_runs {before : κ → κ → Prop}
    (trans : ∀ a b c, before a b → before b c → before a c) {records : List α}
    (sorted : records.Pairwise fun a b => before (key a) (key b) ∨ key a = key b) :
    (runs key records).Pairwise fun left right =>
      ∀ a ∈ left, ∀ b ∈ right, before (key a) (key b) := by
  induction records using runs.induct key with
  | case1 =>
      rw [runs]
      exact List.Pairwise.nil
  | case2 record rest ih =>
      rw [runs]
      have suffix := List.dropWhile_suffix (l := rest) fun other => decide (key other = key record)
      refine List.pairwise_cons.mpr
        ⟨?_, ih ((List.pairwise_cons.mp sorted).2.sublist suffix.sublist)⟩
      intro run member a inLeft b inRight
      have same : key a = key record := by
        rcases List.mem_cons.mp inLeft with rfl | inside
        · rfl
        · simpa using List.mem_takeWhile_imp inside
      have dropped : b ∈ rest.dropWhile fun other => key other = key record := by
        have whole := List.mem_flatten.mpr ⟨run, member, inRight⟩
        rw [flatten_runs] at whole
        exact whole
      exact same ▸ before_of_mem_dropWhile trans sorted dropped

end Place

end KdSoftLmdb
