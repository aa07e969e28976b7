import Mathlib

/-!
# Dictionaries with a key comparer

A dictionary keeps at most one entry for each key. Two keys are the same key
when their canonical forms are equal, which is how a case-insensitive comparer
works; the plain comparer is the identity. The entry list carries the proof
that no key occurs twice, so a dictionary with a duplicate cannot be built.
-/

namespace KdSoftLmdb

/-- Entries in insertion order, no two of them under the same key. -/
structure Dictionary {κ φ : Type} (canonical : κ → φ) (ν : Type) where
  entries : List (κ × ν)
  distinct : entries.Pairwise fun left right => canonical left.1 ≠ canonical right.1

namespace Dictionary

variable {κ φ ν : Type} {canonical : κ → φ}

/-- No entries. -/
def empty : Dictionary canonical ν := ⟨[], .nil⟩

instance : Inhabited (Dictionary canonical ν) := ⟨empty⟩

/-- The values in entry order. -/
def values (dictionary : Dictionary canonical ν) : List ν := dictionary.entries.map Prod.snd

@[simp] theorem empty_entries : (empty : Dictionary canonical ν).entries = [] := rfl

/-- The values are those of the entries. -/
theorem mem_values {dictionary : Dictionary canonical ν} {value : ν} :
    value ∈ dictionary.values ↔ ∃ key, (key, value) ∈ dictionary.entries := by
  simp [values]

/-- Two entries under the same key are the same entry. -/
theorem entry_unique {dictionary : Dictionary canonical ν} {left right : κ × ν}
    (leftMember : left ∈ dictionary.entries) (rightMember : right ∈ dictionary.entries)
    (same : canonical left.1 = canonical right.1) : left = right := by
  by_contra different
  have symmetric : Std.Symm fun left right : κ × ν => canonical left.1 ≠ canonical right.1 :=
    ⟨fun _ _ keys equal => keys equal.symm⟩
  exact dictionary.distinct.forall leftMember rightMember different same

/-- The values occur once each when no value is stored under two keys. -/
theorem values_nodup {dictionary : Dictionary canonical ν}
    (single : ∀ left ∈ dictionary.entries, ∀ right ∈ dictionary.entries,
      left.2 = right.2 → canonical left.1 = canonical right.1) : dictionary.values.Nodup := by
  rw [values, List.Nodup, List.pairwise_map]
  exact dictionary.distinct.imp_of_mem fun leftMember rightMember keys equal =>
    keys (single _ leftMember _ rightMember equal)

/-- Drop the entries that fail a test. -/
def filter (dictionary : Dictionary canonical ν) (keep : κ × ν → Bool) :
    Dictionary canonical ν :=
  ⟨dictionary.entries.filter keep, dictionary.distinct.filter keep⟩

variable [DecidableEq φ]

/-- Some entry is under this key. -/
def containsKey (dictionary : Dictionary canonical ν) (key : κ) : Bool :=
  dictionary.entries.any fun entry => decide (canonical entry.1 = canonical key)

/-- The value under this key. -/
def find? (dictionary : Dictionary canonical ν) (key : κ) : Option ν :=
  (dictionary.entries.find? fun entry => decide (canonical entry.1 = canonical key)).map Prod.snd

/-- A key is contained when an entry has an equal key. -/
theorem containsKey_iff {dictionary : Dictionary canonical ν} {key : κ} :
    dictionary.containsKey key = true ↔
      ∃ entry ∈ dictionary.entries, canonical entry.1 = canonical key := by
  simp [containsKey]

/-- A key is not contained when no entry has an equal key. -/
theorem containsKey_eq_false_iff {dictionary : Dictionary canonical ν} {key : κ} :
    dictionary.containsKey key = false ↔
      ∀ entry ∈ dictionary.entries, canonical entry.1 ≠ canonical key := by
  simp [containsKey]

/-- The only value under a key is the one found there. -/
theorem find?_eq_some_of_mem {dictionary : Dictionary canonical ν} {entry : κ × ν} {key : κ}
    (member : entry ∈ dictionary.entries) (same : canonical entry.1 = canonical key) :
    dictionary.find? key = some entry.2 := by
  rw [find?]
  cases found : dictionary.entries.find? fun entry => decide (canonical entry.1 = canonical key) with
  | none =>
      have missing := List.find?_eq_none.mp found entry member
      simp [same] at missing
  | some other =>
      have otherSame : canonical other.1 = canonical key := by
        simpa using List.find?_some found
      have equal := entry_unique (List.mem_of_find?_eq_some found) member
        (otherSame.trans same.symm)
      simp [equal]

/-- A value that is found is that of an entry with an equal key. -/
theorem exists_mem_of_find?_eq_some {dictionary : Dictionary canonical ν} {key : κ} {value : ν}
    (found : dictionary.find? key = some value) :
    ∃ entry ∈ dictionary.entries, canonical entry.1 = canonical key ∧ entry.2 = value := by
  rw [find?, Option.map_eq_some_iff] at found
  obtain ⟨entry, located, equal⟩ := found
  exact ⟨entry, List.mem_of_find?_eq_some located, by simpa using List.find?_some located, equal⟩

/-- Add an entry unless its key is taken. -/
def add? (dictionary : Dictionary canonical ν) (key : κ) (value : ν) :
    Option (Dictionary canonical ν) :=
  if free : dictionary.containsKey key = false then
    some ⟨dictionary.entries ++ [(key, value)], by
      refine List.pairwise_append.mpr ⟨dictionary.distinct, List.pairwise_singleton _ _, ?_⟩
      intro entry member other otherMember
      rw [List.mem_singleton.mp otherMember]
      exact containsKey_eq_false_iff.mp free entry member⟩
  else none

/-- `TryAdd` of a concurrent dictionary: the flag says whether the entry went in. -/
def tryAdd (dictionary : Dictionary canonical ν) (key : κ) (value : ν) :
    Bool × Dictionary canonical ν :=
  match dictionary.add? key value with
  | some after => (true, after)
  | none => (false, dictionary)

/-- Remove the entry under a key, if there is one. -/
def remove (dictionary : Dictionary canonical ν) (key : κ) : Dictionary canonical ν :=
  dictionary.filter fun entry => !decide (canonical entry.1 = canonical key)

/-- `Add` throws exactly when the key is taken. -/
theorem add?_eq_none_iff {dictionary : Dictionary canonical ν} {key : κ} {value : ν} :
    dictionary.add? key value = none ↔ dictionary.containsKey key = true := by
  unfold add?
  split <;> simp_all

/-- `Add` appends the entry. -/
theorem add?_entries {dictionary after : Dictionary canonical ν} {key : κ} {value : ν}
    (added : dictionary.add? key value = some after) :
    dictionary.containsKey key = false ∧ after.entries = dictionary.entries ++ [(key, value)] := by
  unfold add? at added
  split at added
  · rename_i free
    cases added
    exact ⟨free, rfl⟩
  · cases added

@[simp] theorem tryAdd_fst (dictionary : Dictionary canonical ν) (key : κ) (value : ν) :
    (dictionary.tryAdd key value).1 = !dictionary.containsKey key := by
  unfold tryAdd
  cases added : dictionary.add? key value with
  | none => simp [add?_eq_none_iff.mp added]
  | some after => simp [(add?_entries added).1]

/-- `TryAdd` appends the entry when the key is free. -/
theorem tryAdd_entries_of_free {dictionary : Dictionary canonical ν} {key : κ} (value : ν)
    (free : dictionary.containsKey key = false) :
    (dictionary.tryAdd key value).2.entries = dictionary.entries ++ [(key, value)] := by
  unfold tryAdd
  cases added : dictionary.add? key value with
  | none => simp [add?_eq_none_iff.mp added] at free
  | some after => exact (add?_entries added).2

/-- `TryAdd` does nothing when the key is taken. -/
theorem tryAdd_of_taken {dictionary : Dictionary canonical ν} {key : κ} (value : ν)
    (taken : dictionary.containsKey key = true) :
    (dictionary.tryAdd key value).2 = dictionary := by
  unfold tryAdd
  rw [add?_eq_none_iff.mpr taken]

@[simp] theorem mem_remove {dictionary : Dictionary canonical ν} {key : κ} {entry : κ × ν} :
    entry ∈ (dictionary.remove key).entries ↔
      entry ∈ dictionary.entries ∧ canonical entry.1 ≠ canonical key := by
  simp [remove, filter]

end Dictionary

end KdSoftLmdb
