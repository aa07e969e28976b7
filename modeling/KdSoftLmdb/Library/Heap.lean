import Mathlib

/-!
# Objects in creation order

A heap gives every reference an object. References are handed out in increasing
order and are never handed out twice; a reference that was not handed out yet
holds the default object.
-/

namespace KdSoftLmdb

/-- Objects of one kind, indexed by reference. -/
structure Heap (α : Type) where
  next : Nat
  obj : Nat → α

namespace Heap

variable {α : Type}

/-- No object yet; the first reference handed out is `first`. -/
def empty [Inhabited α] (first : Nat) : Heap α := ⟨first, fun _ => default⟩

/-- Put an object at the next reference. -/
def alloc (heap : Heap α) (object : α) : Heap α :=
  ⟨heap.next + 1, fun reference => if reference = heap.next then object else heap.obj reference⟩

/-- Change the object at one reference. -/
def modify (heap : Heap α) (reference : Nat) (change : α → α) : Heap α :=
  ⟨heap.next, fun other => if other = reference then change (heap.obj other) else heap.obj other⟩

/-- Change every object, knowing its reference. -/
def map (heap : Heap α) (change : Nat → α → α) : Heap α :=
  ⟨heap.next, fun reference => change reference (heap.obj reference)⟩

/-- Change the objects of a list of references one after the other. -/
def modifyAll (heap : Heap α) (references : List Nat) (change : α → α) : Heap α :=
  references.foldl (fun current reference => current.modify reference change) heap

@[simp] theorem empty_obj [Inhabited α] (first reference : Nat) :
    (empty first : Heap α).obj reference = default := rfl

@[simp] theorem empty_next [Inhabited α] (first : Nat) : (empty first : Heap α).next = first := rfl

@[simp] theorem alloc_next (heap : Heap α) (object : α) :
    (heap.alloc object).next = heap.next + 1 := rfl

/-- Every object after an allocation. -/
theorem alloc_obj (heap : Heap α) (object : α) (reference : Nat) :
    (heap.alloc object).obj reference =
      if reference = heap.next then object else heap.obj reference := rfl

@[simp] theorem alloc_obj_next (heap : Heap α) (object : α) :
    (heap.alloc object).obj heap.next = object := if_pos rfl

/-- The objects that were there before are the same. -/
theorem alloc_obj_of_ne (heap : Heap α) (object : α) {reference : Nat}
    (other : reference ≠ heap.next) : (heap.alloc object).obj reference = heap.obj reference :=
  if_neg other

@[simp] theorem modify_next (heap : Heap α) (reference : Nat) (change : α → α) :
    (heap.modify reference change).next = heap.next := rfl

/-- Every object after a change. -/
theorem modify_obj (heap : Heap α) (reference other : Nat) (change : α → α) :
    (heap.modify reference change).obj other =
      if other = reference then change (heap.obj other) else heap.obj other := rfl

@[simp] theorem modify_obj_self (heap : Heap α) (reference : Nat) (change : α → α) :
    (heap.modify reference change).obj reference = change (heap.obj reference) := if_pos rfl

/-- The other objects are as they were. -/
theorem modify_obj_of_ne (heap : Heap α) {reference other : Nat} (change : α → α)
    (different : other ≠ reference) :
    (heap.modify reference change).obj other = heap.obj other := if_neg different

/-- Two changes of one object are one change. -/
@[simp] theorem modify_modify (heap : Heap α) (reference : Nat) (first second : α → α) :
    (heap.modify reference first).modify reference second =
      heap.modify reference fun object => second (first object) := by
  simp only [modify, mk.injEq, true_and]
  funext other
  by_cases same : other = reference <;> simp [same]

/-- Only what a change does to the object at the reference matters. -/
theorem modify_congr {heap : Heap α} {reference : Nat} {first second : α → α}
    (agree : first (heap.obj reference) = second (heap.obj reference)) :
    heap.modify reference first = heap.modify reference second := by
  simp only [modify, mk.injEq, true_and]
  funext other
  by_cases same : other = reference
  · rw [if_pos same, if_pos same, same, agree]
  · rw [if_neg same, if_neg same]

/-- A change that leaves the object as it is leaves the heap as it is. -/
theorem modify_eq_self {heap : Heap α} {reference : Nat} {change : α → α}
    (unchanged : change (heap.obj reference) = heap.obj reference) :
    heap.modify reference change = heap := by
  have kept : heap.modify reference id = heap := by simp [modify]
  rw [← kept, modify_modify]
  exact modify_congr unchanged

/-- A change of the newest object could have been made before it was put there. -/
theorem alloc_modify_next (heap : Heap α) (object : α) (change : α → α) :
    (heap.alloc object).modify heap.next change = heap.alloc (change object) := by
  simp only [modify, alloc, mk.injEq, true_and]
  funext other
  by_cases same : other = heap.next <;> simp [same]

@[simp] theorem modifyAll_nil (heap : Heap α) (change : α → α) :
    heap.modifyAll [] change = heap := rfl

@[simp] theorem map_next (heap : Heap α) (change : Nat → α → α) :
    (heap.map change).next = heap.next := rfl

@[simp] theorem map_obj (heap : Heap α) (change : Nat → α → α) (reference : Nat) :
    (heap.map change).obj reference = change reference (heap.obj reference) := rfl

@[simp] theorem modifyAll_next (heap : Heap α) (references : List Nat) (change : α → α) :
    (heap.modifyAll references change).next = heap.next := by
  induction references generalizing heap with
  | nil => rfl
  | cons reference rest ih => exact ih _

/-- A change that is idempotent may meet a reference twice without harm. -/
theorem modifyAll_obj (heap : Heap α) (references : List Nat) {change : α → α}
    (idempotent : ∀ object, change (change object) = change object) (other : Nat) :
    (heap.modifyAll references change).obj other =
      if other ∈ references then change (heap.obj other) else heap.obj other := by
  induction references generalizing heap with
  | nil => simp [modifyAll]
  | cons reference rest ih =>
      have step := ih (heap.modify reference change)
      rw [modifyAll, List.foldl_cons]
      rw [modifyAll] at step
      rw [step]
      by_cases same : other = reference
      · subst same
        simp [idempotent]
      · simp [modify_obj_of_ne _ _ same, same]

end Heap

end KdSoftLmdb
