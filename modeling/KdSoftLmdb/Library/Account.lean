import Mathlib

/-!
# Resources that are released at most once

Objects hold resources, each known by a number that is handed out once; `0` is
held by an object that holds nothing. An account says that no resource has two
holders, that a held resource was not released yet, and that none was released
twice. Whatever moves resources between `handed out`, `held` and `released` in
the five ways below keeps an account.
-/

namespace KdSoftLmdb

/-- `holds` gives the resource of every object, `next` the first number that was
not handed out, and `released` counts the releases of every resource. -/
structure Account {ο : Type} (holds : ο → Nat) (next : Nat) (released : Nat → Nat) : Prop where
  bound : ∀ object, holds object ≠ 0 → holds object < next
  distinct : ∀ object other, holds object ≠ 0 → holds object = holds other → object = other
  fresh : ∀ resource, next ≤ resource → released resource = 0
  held : ∀ object, holds object ≠ 0 → released (holds object) = 0
  once : ∀ resource, released resource ≤ 1

namespace Account

variable {ο : Type} {holds holds' : ο → Nat} {next next' : Nat} {released released' : Nat → Nat}

/-- At the beginning nothing is owned and nothing released. -/
theorem empty : Account (fun _ : ο => 0) next (fun _ => 0) where
  bound _ holding := (holding rfl).elim
  distinct _ _ holding := (holding rfl).elim
  fresh _ _ := rfl
  held _ _ := rfl
  once _ := Nat.zero_le 1

/-- The resources that the new objects hold were held by old objects, each by a
different one; numbers may be handed out to nobody. -/
theorem rename {ο' : Type} {holds' : ο' → Nat} (account : Account holds next released)
    (later : next ≤ next') (origin : ο' → ο)
    (kept : ∀ object, holds' object ≠ 0 → holds' object = holds (origin object))
    (injective : ∀ object other, holds' object ≠ 0 → holds' other ≠ 0 →
      origin object = origin other → object = other) : Account holds' next' released where
  bound object holding := by
    have same := kept object holding
    rw [same] at holding ⊢
    exact Nat.lt_of_lt_of_le (account.bound _ holding) later
  distinct object other holding equal := by
    have holdingOther : holds' other ≠ 0 := equal ▸ holding
    refine injective object other holding holdingOther ?_
    rw [kept object holding, kept other holdingOther] at equal
    exact account.distinct _ _ (kept object holding ▸ holding) equal
  fresh resource beyond := account.fresh resource (Nat.le_trans later beyond)
  held object holding := by
    have same := kept object holding
    rw [same] at holding ⊢
    exact account.held _ holding
  once := account.once

/-- Objects may lose their resources, and numbers may be handed out to nobody. -/
theorem lose (account : Account holds next released) (later : next ≤ next')
    (kept : ∀ object, holds' object = holds object ∨ holds' object = 0) :
    Account holds' next' released := by
  refine account.rename later id (fun object holding => ?_) fun _ _ _ _ => id
  rcases kept object with same | lost
  · exact same
  · exact (holding lost).elim

/-- An object gets the next resource. -/
theorem acquire (account : Account holds next released) (object : ο)
    (got : holds' object = next) (others : ∀ other, other ≠ object → holds' other = holds other) :
    Account holds' (next + 1) released where
  bound other holding := by
    by_cases same : other = object
    · rw [same, got]
      exact Nat.lt_succ_self next
    · rw [others other same] at holding ⊢
      exact Nat.lt_succ_of_lt (account.bound other holding)
  distinct first second holding equal := by
    by_cases same : first = object
    · by_cases same' : second = object
      · exact same.trans same'.symm
      · rw [same, got, others second same'] at equal
        rw [same, got, equal] at holding
        exact absurd (equal ▸ account.bound second holding) (Nat.lt_irrefl _)
    · rw [others first same] at holding equal
      by_cases same' : second = object
      · rw [same', got] at equal
        exact absurd (equal ▸ account.bound first holding) (Nat.lt_irrefl _)
      · rw [others second same'] at equal
        exact account.distinct first second holding equal
  fresh resource beyond := account.fresh resource (Nat.le_of_succ_le beyond)
  held other holding := by
    by_cases same : other = object
    · rw [same, got]
      exact account.fresh next (Nat.le_refl next)
    · rw [others other same] at holding ⊢
      exact account.held other holding
  once := account.once

/-- An object hands its resource to another one. -/
theorem pass (account : Account holds next released) {object heir : ο}
    (got : holds' heir = holds object)
    (others : ∀ other, other ≠ heir →
      holds' other = holds other ∧ other ≠ object ∨ holds' other = 0) :
    Account holds' next released := by
  classical
  have origin {other : ο} (holding : holds' other ≠ 0) (different : other ≠ heir) :
      holds' other = holds other ∧ other ≠ object := by
    rcases others other different with kept | lost
    · exact kept
    · exact (holding lost).elim
  refine account.rename (Nat.le_refl next) (fun other => if other = heir then object else other)
    (fun other holding => ?_) fun first second holding holding' equal => ?_
  · split
    · rename_i same
      exact same ▸ got
    · rename_i different
      exact (origin holding different).1
  · split at equal <;> rename_i mine <;> split at equal <;> rename_i mine'
    · exact mine.trans mine'.symm
    · exact absurd equal.symm (origin holding' mine').2
    · exact absurd equal (origin holding mine).2
    · exact equal

/-- An object gives its resource up, and that resource is released. -/
theorem release (account : Account holds next released) {object : ο} (holding : holds object ≠ 0)
    (gone : holds' object = 0) (others : ∀ other, other ≠ object → holds' other = holds other)
    (count : ∀ resource, released' resource =
      released resource + if resource = holds object then 1 else 0) :
    Account holds' next released' := by
  have kept : Account holds' next released := account.lose (Nat.le_refl next) fun other => by
    by_cases same : other = object
    · exact .inr (same ▸ gone)
    · exact .inl (others other same)
  refine ⟨kept.bound, kept.distinct, fun resource beyond => ?_, fun other still => ?_,
    fun resource => ?_⟩
  · have different : resource ≠ holds object :=
      Nat.ne_of_gt (Nat.lt_of_lt_of_le (account.bound object holding) beyond)
    rw [count, if_neg different]
    exact account.fresh resource beyond
  · have different : other ≠ object := by
      rintro rfl
      exact still gone
    rw [others other different] at still ⊢
    have unequal : holds other ≠ holds object :=
      fun equal => different (account.distinct other object still equal)
    rw [count, if_neg unequal]
    exact account.held other still
  · rw [count]
    split
    · rename_i equal
      have unreleased := account.held object holding
      rw [← equal] at unreleased
      omega
    · exact account.once resource

/-- The next resource is handed out and released at once. -/
theorem burn (account : Account holds next released)
    (count : ∀ resource, released' resource =
      released resource + if resource = next then 1 else 0) :
    Account holds (next + 1) released' where
  bound object holding := Nat.lt_succ_of_lt (account.bound object holding)
  distinct := account.distinct
  fresh resource beyond := by
    rw [count, if_neg (Nat.ne_of_gt (Nat.lt_of_succ_le beyond))]
    exact account.fresh resource (Nat.le_of_succ_le beyond)
  held object holding := by
    rw [count, if_neg (Nat.ne_of_lt (account.bound object holding))]
    exact account.held object holding
  once resource := by
    rw [count]
    split
    · rename_i equal
      have unreleased := account.fresh next (Nat.le_refl next)
      rw [← equal] at unreleased
      omega
    · exact account.once resource

/-- Only the counts matter, not how they are written. -/
theorem congr (account : Account holds next released)
    (same : ∀ object, holds' object = holds object) (next_eq : next' = next)
    (count : ∀ resource, released' resource = released resource) :
    Account holds' next' released' := by
  rw [funext same, next_eq, funext count]
  exact account

end Account

end KdSoftLmdb
