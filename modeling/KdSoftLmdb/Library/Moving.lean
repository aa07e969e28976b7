import Mathlib

/-!
# Objects that a collector moves

Every object occupies its own stretch of addresses. A collector may copy an
object to any free stretch, unless the object is pinned; nobody who holds its old
address is told.
-/

namespace KdSoftLmdb

/-- Where the objects are, how many bytes each occupies and how often it is pinned. -/
structure MovingHeap where
  address : Nat → Nat
  size : Nat → Nat
  pins : Nat → Nat
  apart : ∀ object other, object ≠ other →
    address object + size object ≤ address other ∨ address other + size other ≤ address object
  bounded : ∃ limit, ∀ object, address object + size object ≤ limit

namespace MovingHeap

variable (heap : MovingHeap) (object other : Nat)

/-- No other object is in the way at `target`. -/
def Free (target : Nat) : Prop :=
  ∀ other, other ≠ object →
    target + heap.size object ≤ heap.address other ∨
      heap.address other + heap.size other ≤ target

/-- The object was copied to a free stretch. -/
def moved {target : Nat} (free : heap.Free object target) : MovingHeap where
  address other := if other = object then target else heap.address other
  size := heap.size
  pins := heap.pins
  apart first second different := by
    by_cases isFirst : first = object
    · have notSecond : second ≠ object := fun same => different (isFirst.trans same.symm)
      simp only [if_pos isFirst, if_neg notSecond]
      exact isFirst ▸ free second notSecond
    · by_cases isSecond : second = object
      · simp only [if_neg isFirst, if_pos isSecond]
        exact isSecond ▸ (free first isFirst).symm
      · simp only [if_neg isFirst, if_neg isSecond]
        exact heap.apart first second different
  bounded := by
    obtain ⟨limit, below⟩ := heap.bounded
    refine ⟨max limit (target + heap.size object), fun other => ?_⟩
    split
    · rename_i same
      exact same ▸ Nat.le_max_right _ _
    · exact Nat.le_trans (below other) (Nat.le_max_left _ _)

/-- Change how often an object is pinned. -/
def withPins (pins : Nat → Nat) : MovingHeap := { heap with pins := pins }

/-- Pin an object once more. -/
def pin : MovingHeap :=
  heap.withPins fun other => if other = object then heap.pins other + 1 else heap.pins other

/-- Take one pin away. -/
def unpin : MovingHeap :=
  heap.withPins fun other => if other = object then heap.pins other - 1 else heap.pins other

variable {heap object other}

/-- The object that was moved is at the target. -/
theorem moved_address_self {target : Nat} (free : heap.Free object target) :
    (heap.moved object free).address object = target := if_pos rfl

/-- The other objects are where they were. -/
theorem moved_address_of_ne {target : Nat} (free : heap.Free object target)
    (different : other ≠ object) : (heap.moved object free).address other = heap.address other :=
  if_neg different

private theorem pin_pins : (heap.pin object).pins other =
    if other = object then heap.pins other + 1 else heap.pins other := rfl

/-- Pinning an object pins that object and no other. -/
theorem pinned_pin : 0 < (heap.pin object).pins other ↔ 0 < heap.pins other ∨ other = object := by
  rw [pin_pins]
  by_cases same : other = object <;> simp [same]

/-- There is always room to move an object somewhere else. -/
theorem exists_free (heap : MovingHeap) (object : Nat) :
    ∃ target, heap.Free object target ∧ target ≠ heap.address object := by
  obtain ⟨limit, below⟩ := heap.bounded
  refine ⟨limit + 1, fun other _ => .inr (Nat.le_succ_of_le (below other)), fun same => ?_⟩
  have inside := below object
  omega

end MovingHeap

end KdSoftLmdb
