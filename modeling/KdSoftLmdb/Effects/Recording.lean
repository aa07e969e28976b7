import KdSoftLmdb.Calls

/-!
# Calls that a step records

A method hands LMDB only handles that the objects of the wrapper hold.
`CallsFrom world native` says this of all calls that were recorded on the way
from `world` to `native`: one that was given freed memory was given a handle
that some object held in `world` although LMDB had freed it by then.
-/

namespace KdSoftLmdb

variable {runtime : Runtime}

/-- Some object of the wrapper holds this handle and may hand it to LMDB. -/
def World.Holds (world : World runtime) : NativeHandle → Prop
  | .txn handle => ∃ t, world.handle t = handle
  | .cursor handle => ∃ c, world.cur c = handle
  | .env _ => True
  | .dbi _ => True

/-- Two states of the native library that differ in the recorded calls only. -/
def Native.Unchanged (before after : Native) : Prop := after = { before with calls := after.calls }

/-- The calls made since `world` were only given handles that `world` holds. -/
def CallsFrom (world : World runtime) (native : Native) : Prop :=
  ∃ calls, native.calls = calls ++ world.native.calls ∧
    ∀ call ∈ calls, call.dangling = true → ∃ handle, world.Holds handle ∧
      world.native.freed handle = true

/-- Nothing changed, and no call was made. -/
theorem Native.Unchanged.refl (native : Native) : native.Unchanged native := rfl

/-- A call that only reads is all that changed. -/
theorem Native.unchanged_record (native : Native) (function : LibFunc)
    (handles : List NativeHandle) : native.Unchanged (native.record function handles) := rfl

/-- One more call that only reads. -/
theorem Native.Unchanged.record {before after : Native} (unchanged : before.Unchanged after)
    (function : LibFunc) (handles : List NativeHandle) :
    before.Unchanged (after.record function handles) := by
  have same := congrArg
    (fun native : Native => { native with calls := (after.record function handles).calls }) unchanged
  exact same

section Unchanged

variable {before after : Native}

/-- The transactions are as they were. -/
theorem Native.Unchanged.txns (unchanged : before.Unchanged after) :
    after.txns = before.txns := by rw [unchanged]

/-- The databases are as they were. -/
theorem Native.Unchanged.dbis (unchanged : before.Unchanged after) :
    after.dbis = before.dbis := by rw [unchanged]

/-- The cursors are as they were. -/
theorem Native.Unchanged.cursors (unchanged : before.Unchanged after) :
    after.cursors = before.cursors := by rw [unchanged]

/-- The environment is as open as it was. -/
theorem Native.Unchanged.closed (unchanged : before.Unchanged after) :
    after.closed = before.closed := by rw [unchanged]

end Unchanged

namespace CallsFrom

variable {world : World runtime} {native after : Native}

/-- No call was made yet. -/
theorem refl (world : World runtime) : CallsFrom world world.native := ⟨[], rfl, by simp⟩

/-- Only the calls count. -/
theorem congr (prior : CallsFrom world native) (same : after.calls = native.calls) :
    CallsFrom world after := by
  obtain ⟨calls, recorded, held⟩ := prior
  exact ⟨calls, same.trans recorded, held⟩

/-- One more call, whose handles are held if they are freed. -/
theorem record (prior : CallsFrom world native) (function : LibFunc)
    {handles : List NativeHandle} (held : ∀ handle ∈ handles, native.freed handle = true →
      world.Holds handle ∧ world.native.freed handle = true) :
    CallsFrom world (native.record function handles) := by
  obtain ⟨calls, recorded, earlier⟩ := prior
  refine ⟨⟨function, handles, handles.any native.freed⟩ :: calls, ?_, ?_⟩
  · simp [Native.record, recorded]
  · intro call member dangling
    rcases List.mem_cons.mp member with rfl | old
    · obtain ⟨handle, given, freed⟩ := List.any_eq_true.mp dangling
      exact ⟨handle, held handle given freed⟩
    · exact earlier call old dangling

/-- One more call while nothing has been freed since `world`. -/
theorem recordHeld (prior : CallsFrom world native) (function : LibFunc)
    {handles : List NativeHandle} (unfreed : ∀ handle, native.freed handle = world.native.freed handle)
    (held : ∀ handle ∈ handles, world.Holds handle) :
    CallsFrom world (native.record function handles) :=
  prior.record function fun handle given freed => ⟨held handle given, unfreed handle ▸ freed⟩

/-- The first call after `world`. -/
theorem first (function : LibFunc) {handles : List NativeHandle}
    (held : ∀ handle ∈ handles, world.Holds handle) :
    CallsFrom world (world.native.record function handles) :=
  (refl world).recordHeld function (fun _ => rfl) held

end CallsFrom

/-- A step that changed nothing but the recorded calls. -/
def Recorded (world after : World runtime) : Prop :=
  ∃ native, after = { world with native := native } ∧ world.native.Unchanged native ∧
    CallsFrom world native

/-- Nothing was called. -/
theorem Recorded.refl (world : World runtime) : Recorded world world :=
  ⟨world.native, rfl, .refl _, .refl _⟩

/-- One call with handles that objects hold. -/
theorem Recorded.call (world : World runtime) (function : LibFunc) {handles : List NativeHandle}
    (held : ∀ handle ∈ handles, world.Holds handle) :
    Recorded world { world with native := world.native.record function handles } :=
  ⟨_, rfl, Native.unchanged_record _ _ _, .first function held⟩

/-- Checking a code changes nothing. -/
theorem checkRetCode_after {world after : World runtime} {ret : DbRetCode}
    {result : Except Exception Unit} (checked : checkRetCode ret world = some (result, after)) :
    after = world := by
  by_cases succeeded : ret = .success
  · rw [succeeded, checkRetCode_success] at checked
    cases checked
    rfl
  · obtain ⟨message, threw⟩ := checkRetCode_failed succeeded world
    cases checked.symm.trans threw
    rfl

end KdSoftLmdb
