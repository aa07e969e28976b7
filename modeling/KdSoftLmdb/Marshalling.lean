import KdSoftLmdb.FixedMultiValueCursor
import KdSoftLmdb.Library.Moving
import KdSoftLmdb.Library.Runs

/-!
# Addresses of managed arrays in native calls

`DbValue.From` takes the address of the first byte of a span and pins nothing.
The collector may move the array behind the span before LMDB has read it; only
the data of `PutMultiple` is taken in a `fixed` block. An argument is read from
where it is exactly when its array is pinned, by the caller or by that block.
-/

namespace KdSoftLmdb

/-- A span over a part of a managed array. -/
structure ArraySpan extends ReadOnlySpan where
  array : Nat
  start : Nat

/-- The address of the first byte of a span. -/
def ArraySpan.place (span : ArraySpan) (heap : MovingHeap) : Nat :=
  heap.address span.array + span.start

/-- A span without a byte: there is nothing to read, and `fixed` pins nothing. -/
def ArraySpan.isEmpty (span : ArraySpan) : Bool := span.bytes.isEmpty

/-- The span parameters of the methods. -/
inductive Argument where
  | key | data | x | y
deriving DecidableEq

/-- The steps of a method up to the return of its native call: a check that may
throw, the start of a `fixed` block, a `DbValue.From`, the native call, and the
end of a `fixed` block. -/
inductive Instr where
  | check (passes : Bool)
  | fixed (argument : Argument)
  | dbValue (argument : Argument)
  | native (function : LibFunc)
  | release (argument : Argument)
deriving DecidableEq

/-- Check the handle, make a `DbValue` of each argument, call LMDB. -/
def marshal (function : LibFunc) (arguments : List Argument) (disposed : Bool) : List Instr :=
  .check (!disposed) :: (arguments.map .dbValue ++ [.native function])

namespace Database

def getSteps : Bool → List Instr := marshal .mdbGet [.key]
def putInternalSteps : Bool → List Instr := marshal .mdbPut [.key, .data]
def deleteSteps : Bool → List Instr := marshal .mdbDel [.key]
def compareSteps : Bool → List Instr := marshal .mdbCmp [.x, .y]

end Database

namespace MultiValueDatabase

def deleteSteps : Bool → List Instr := marshal .mdbDel [.key, .data]
def dupCompareSteps : Bool → List Instr := marshal .mdbDcmp [.x, .y]

end MultiValueDatabase

namespace Cursor

/-- `Get` by key, and `Get` by key and data. -/
def getSteps : Bool → List Instr := marshal .mdbCursorGet [.key]
def getBothSteps : Bool → List Instr := marshal .mdbCursorGet [.key, .data]
def moveToKeySteps : Bool → List Instr := marshal .mdbCursorGet [.key]
def putInternalSteps : Bool → List Instr := marshal .mdbCursorPut [.key, .data]

end Cursor

/-- `PutMultiple` compares the count first and pins the data, but not the key. -/
def FixedMultiValueCursor.putMultipleSteps (dataSize itemCount : Int32) (data : ReadOnlySpan)
    (disposed : Bool) : List Instr :=
  [.check (!decide (data.length < dataSize * itemCount)), .check (!disposed), .fixed .data,
    .dbValue .key, .native .mdbCursorPut, .release .data]

/-- The methods that hand spans to LMDB. `databasePut` and `cursorPut` stand for
all public `Put` methods of their classes and subclasses, `cursorGet` and
`cursorGetBoth` for the `GetAt` and `GetNearest` methods. -/
inductive Operation where
  | databaseGet | databasePut | databaseDelete | databaseCompare
  | multiValueDelete | dupCompare
  | cursorGet | cursorGetBoth | moveToKey | cursorPut
  | putMultiple (dataSize itemCount : Int32)

/-- A call with its arguments; `disposed` says that `CheckDisposed` finds no handle. -/
structure Invocation where
  operation : Operation
  span : Argument → ArraySpan
  disposed : Bool

namespace Invocation

/-- The arguments of which the method makes a `DbValue` with `From`. -/
def marshalled (call : Invocation) : List Argument :=
  match call.operation with
  | .databaseGet | .databaseDelete | .cursorGet | .moveToKey | .putMultiple .. => [.key]
  | .databasePut | .multiValueDelete | .cursorGetBoth | .cursorPut => [.key, .data]
  | .databaseCompare | .dupCompare => [.x, .y]

def steps (call : Invocation) : List Instr :=
  match call.operation with
  | .databaseGet => Database.getSteps call.disposed
  | .databasePut => Database.putInternalSteps call.disposed
  | .databaseDelete => Database.deleteSteps call.disposed
  | .databaseCompare => Database.compareSteps call.disposed
  | .multiValueDelete => MultiValueDatabase.deleteSteps call.disposed
  | .dupCompare => MultiValueDatabase.dupCompareSteps call.disposed
  | .cursorGet => Cursor.getSteps call.disposed
  | .cursorGetBoth => Cursor.getBothSteps call.disposed
  | .moveToKey => Cursor.moveToKeySteps call.disposed
  | .cursorPut => Cursor.putInternalSteps call.disposed
  | .putMultiple dataSize itemCount =>
      FixedMultiValueCursor.putMultipleSteps dataSize itemCount (call.span .data).toReadOnlySpan
        call.disposed

/-- The call throws before it reaches LMDB. -/
def Throws (call : Invocation) : Prop :=
  call.disposed = true ∨ ∃ dataSize itemCount, call.operation = .putMultiple dataSize itemCount ∧
    (call.span .data).length < dataSize * itemCount

end Invocation

/-- LMDB read an argument at `pointer` while its first byte was at `place`. -/
structure ArgumentRead where
  argument : Argument
  pointer : Nat
  place : Nat

/-- A call in progress. `pointer` is the `Data` of the `DbValue` of an argument,
`reads` what LMDB has read so far. The first step in `rest` is the current one. -/
structure Marshalling where
  heap : MovingHeap
  rest : List Instr
  pointer : Argument → Option Nat
  reads : List ArgumentRead

namespace Marshalling

/-- The `DbValue` of an argument is assigned. -/
def assign (state : Marshalling) (argument : Argument) (pointer : Option Nat) : Marshalling :=
  { state with pointer := fun other => if other = argument then pointer else state.pointer other }

end Marshalling

/-- One event of a schedule. -/
inductive Event where
  | run
  | relocate (array target : Nat)
  | read (argument : Argument)

/-- The program takes a step, the collector moves an array that is not pinned, or
LMDB reads an argument within the native call. -/
inductive Marshalling.Step (span : Argument → ArraySpan) :
    Marshalling → Event → Marshalling → Prop where
  | checked {state rest} (next : state.rest = .check true :: rest) :
      Step span state .run { state with rest := rest }
  | threw {state rest} (next : state.rest = .check false :: rest) :
      Step span state .run { state with rest := [] }
  | fixed {state argument rest} (next : state.rest = .fixed argument :: rest)
      (some' : (span argument).isEmpty = false) :
      Step span state .run ({ state with
        heap := state.heap.pin (span argument).array
        rest := rest }.assign argument (some ((span argument).place state.heap)))
  | fixedEmpty {state argument rest} (next : state.rest = .fixed argument :: rest)
      (none' : (span argument).isEmpty = true) :
      Step span state .run ({ state with rest := rest }.assign argument none)
  | dbValue {state argument rest} (next : state.rest = .dbValue argument :: rest) :
      Step span state .run ({ state with rest := rest }.assign argument
        (some ((span argument).place state.heap)))
  | returned {state function rest} (next : state.rest = .native function :: rest) :
      Step span state .run { state with rest := rest }
  | released {state argument rest} (next : state.rest = .release argument :: rest)
      (some' : (span argument).isEmpty = false) :
      Step span state .run { state with
        heap := state.heap.unpin (span argument).array
        rest := rest }
  | releasedEmpty {state argument rest} (next : state.rest = .release argument :: rest)
      (none' : (span argument).isEmpty = true) :
      Step span state .run { state with rest := rest }
  | relocated {state array target} (unpinned : state.heap.pins array = 0)
      (free : state.heap.Free array target) :
      Step span state (.relocate array target) { state with heap := state.heap.moved array free }
  | read {state function rest argument pointer} (calling : state.rest = .native function :: rest)
      (given : state.pointer argument = some pointer)
      (some' : (span argument).isEmpty = false) :
      Step span state (.read argument) { state with
        reads := ⟨argument, pointer, (span argument).place state.heap⟩ :: state.reads }

namespace Invocation

/-- The call before its first step. -/
def start (call : Invocation) (heap : MovingHeap) : Marshalling :=
  ⟨heap, call.steps, fun _ => none, []⟩

/-- Whatever the collector does, LMDB reads every argument where it is. -/
def ReadsInPlace (call : Invocation) (heap : MovingHeap) : Prop :=
  ∀ events after, Run (Marshalling.Step call.span) Always (call.start heap) events after →
    ∀ read ∈ after.reads, read.pointer = read.place

/-- The array behind an argument stays pinned: the caller has pinned it, or it is
the array that the `fixed` block of `PutMultiple` pins. -/
def Pinned (call : Invocation) (heap : MovingHeap) (argument : Argument) : Prop :=
  0 < heap.pins (call.span argument).array ∨
  (∃ dataSize itemCount, call.operation = .putMultiple dataSize itemCount) ∧
    (call.span .data).isEmpty = false ∧ (call.span argument).array = (call.span .data).array

end Invocation

section Steps

variable {span : Argument → ArraySpan} {state after : Marshalling} {event : Event}

/-- At every `DbValue.From` of the program the array is pinned, given what is
pinned before the program, and the `fixed` block ends last. -/
def Covered (span : Argument → ArraySpan) : List Instr → (Nat → Prop) → Prop
  | [], _ => True
  | .check passes :: rest, pinned => passes = true → Covered span rest pinned
  | .fixed argument :: rest, pinned => Covered span rest fun array =>
      pinned array ∨ (span argument).isEmpty = false ∧ array = (span argument).array
  | .dbValue argument :: rest, pinned =>
      ((span argument).isEmpty = false → pinned (span argument).array) ∧ Covered span rest pinned
  | .native _ :: rest, pinned => Covered span rest pinned
  | .release _ :: rest, _ => rest = []

private theorem Covered.mono {steps : List Instr} {pinned more : Nat → Prop}
    (covered : Covered span steps pinned) (weaker : ∀ array, pinned array → more array) :
    Covered span steps more := by
  induction steps generalizing pinned more with
  | nil => trivial
  | cons instr rest ih =>
      cases instr with
      | check passes => exact fun passed => ih (covered passed) weaker
      | fixed argument => exact ih covered fun array => Or.imp_left (weaker array)
      | dbValue argument => exact ⟨fun some' => weaker _ (covered.1 some'), ih covered.2 weaker⟩
      | native function => exact ih covered weaker
      | release argument => exact covered

/-- Until LMDB has returned, the pointers are those of pinned arrays. -/
structure InPlace (span : Argument → ArraySpan) (state : Marshalling) : Prop where
  covered : Covered span state.rest fun array => 0 < state.heap.pins array
  given : (∃ function, .native function ∈ state.rest) → ∀ argument pointer,
    state.pointer argument = some pointer → (span argument).isEmpty = false →
      pointer = (span argument).place state.heap ∧ 0 < state.heap.pins (span argument).array
  reads : ∀ read ∈ state.reads, read.pointer = read.place

/-- A step of the program that leaves the heap and the pointers alone. -/
theorem InPlace.next (inPlace : InPlace span state) {rest : List Instr}
    (covered : Covered span rest fun array => 0 < state.heap.pins array)
    (fewer : rest ⊆ state.rest) : InPlace span { state with rest := rest } where
  covered := covered
  given ahead := inPlace.given (ahead.imp fun _ member => fewer member)
  reads := inPlace.reads

private theorem InPlace.step (inPlace : InPlace span state)
    (step : Marshalling.Step span state event after) : InPlace span after := by
  obtain ⟨covered, given, reads⟩ := inPlace
  cases step with
  | checked next =>
      rw [next] at covered
      exact InPlace.next ⟨next ▸ covered, given, reads⟩ (covered rfl)
        (next ▸ List.subset_cons_self _ _)
  | threw next => exact ⟨trivial, fun ⟨_, member⟩ => (nomatch member), reads⟩
  | @fixed argument rest next some' =>
      rw [next] at covered given
      refine ⟨?_, fun ⟨function, member⟩ other pointer assigned nonempty => ?_, reads⟩
      · refine Covered.mono covered fun array => ?_
        rintro (pinned | ⟨_, same⟩)
        · exact MovingHeap.pinned_pin.mpr (.inl pinned)
        · exact MovingHeap.pinned_pin.mpr (.inr same)
      · dsimp only [Marshalling.assign] at assigned
        split at assigned
        · rename_i same
          cases assigned
          exact same ▸ ⟨rfl, MovingHeap.pinned_pin.mpr (.inr rfl)⟩
        · obtain ⟨place, pinned⟩ :=
            given ⟨function, List.mem_cons_of_mem _ member⟩ other pointer assigned nonempty
          exact ⟨place, MovingHeap.pinned_pin.mpr (.inl pinned)⟩
  | @fixedEmpty argument rest next none' =>
      rw [next] at covered given
      refine ⟨?_, fun ⟨function, member⟩ other pointer assigned => ?_, reads⟩
      · refine Covered.mono covered fun array => ?_
        rintro (pinned | ⟨some', _⟩)
        · exact pinned
        · cases none'.symm.trans some'
      · dsimp only [Marshalling.assign] at assigned
        split at assigned
        · cases assigned
        · exact given ⟨function, List.mem_cons_of_mem _ member⟩ other pointer assigned
  | @dbValue argument rest next =>
      rw [next] at covered given
      refine ⟨covered.2, fun ⟨function, member⟩ other pointer assigned nonempty => ?_, reads⟩
      dsimp only [Marshalling.assign] at assigned
      split at assigned
      · rename_i same
        cases assigned
        subst same
        exact ⟨rfl, covered.1 nonempty⟩
      · exact given ⟨function, List.mem_cons_of_mem _ member⟩ other pointer assigned nonempty
  | returned next =>
      rw [next] at covered
      exact InPlace.next ⟨next ▸ covered, given, reads⟩ covered (next ▸ List.subset_cons_self _ _)
  | released next =>
      rw [next] at covered
      cases covered
      exact ⟨trivial, fun ⟨_, member⟩ => (nomatch member), reads⟩
  | releasedEmpty next =>
      rw [next] at covered
      cases covered
      exact ⟨trivial, fun ⟨_, member⟩ => (nomatch member), reads⟩
  | @relocated array target unpinned free =>
      refine ⟨covered, fun ahead argument pointer assigned nonempty => ?_, reads⟩
      obtain ⟨place, pinned⟩ := given ahead argument pointer assigned nonempty
      have different : (span argument).array ≠ array := fun same =>
        Nat.ne_of_gt pinned (same ▸ unpinned)
      refine ⟨?_, pinned⟩
      rw [place, ArraySpan.place, ArraySpan.place, MovingHeap.moved_address_of_ne free different]
  | @read function rest argument pointer calling assigned nonempty =>
      refine ⟨covered, given, fun read member => ?_⟩
      rcases List.mem_cons.mp member with rfl | earlier
      · exact (given ⟨function, calling ▸ List.mem_cons_self⟩ argument pointer assigned nonempty).1
      · exact reads read earlier

private theorem InPlace.run {events : List Event} (inPlace : InPlace span state)
    (run : Run (Marshalling.Step span) Always state events after) : InPlace span after :=
  run.invariant (InPlace span) inPlace fun held _ step => held.step step

/-- The program makes its `DbValue`s while the collector rests. -/
theorem run_dbValues (arguments : List Argument) {rest : List Instr}
    (next : state.rest = arguments.map .dbValue ++ rest) :
    ∃ events, Run (Marshalling.Step span) Always state events { state with
      rest := rest
      pointer := fun argument => if argument ∈ arguments
        then some ((span argument).place state.heap) else state.pointer argument } := by
  induction arguments generalizing state with
  | nil =>
      obtain ⟨heap, _, pointer, reads⟩ := state
      cases next
      exact ⟨[], .nil⟩
  | cons first more ih =>
      let place (argument : Argument) := some ((span argument).place state.heap)
      have taken : Run (Marshalling.Step span) Always state _ _ := .single trivial (.dbValue next)
      obtain ⟨events, remaining⟩ := @ih
        ({ state with rest := more.map Instr.dbValue ++ rest }.assign first (place first)) rfl
      have same (argument : Argument) : (if argument ∈ more then place argument
          else if argument = first then place first else state.pointer argument) =
          if argument ∈ first :: more then place argument else state.pointer argument := by
        by_cases later : argument ∈ more
        · rw [if_pos later, if_pos (List.mem_cons_of_mem _ later)]
        · rw [if_neg later]
          by_cases now : argument = first
          · rw [if_pos now, if_pos (now ▸ List.mem_cons_self), now]
          · rw [if_neg now, if_neg (by simp [now, later])]
      exact ⟨[.run] ++ events, (congrArg (fun pointer => Run (Marshalling.Step span) Always state
        ([.run] ++ events) { state with rest := rest, pointer := pointer }) (funext same)).mp
          (taken.trans remaining)⟩

/-- In the native call, an argument whose array is not pinned can be moved away. -/
theorem run_misread {function : LibFunc} {rest : List Instr} {argument : Argument}
    (calling : state.rest = .native function :: rest)
    (assigned : state.pointer argument = some ((span argument).place state.heap))
    (nonempty : (span argument).isEmpty = false)
    (unpinned : state.heap.pins (span argument).array = 0) :
    ∃ events after, Run (Marshalling.Step span) Always state events after ∧
      ∃ read ∈ after.reads, read.pointer ≠ read.place := by
  obtain ⟨target, free, elsewhere⟩ := state.heap.exists_free (span argument).array
  have moved : Run (Marshalling.Step span) Always state _ _ :=
    .single trivial (.relocated unpinned free)
  refine ⟨_, _, .snoc moved trivial (.read calling assigned nonempty), _, List.mem_cons_self,
    fun same => elsewhere ?_⟩
  simp only [ArraySpan.place, MovingHeap.moved_address_self] at same
  omega

private theorem covered_dbValues {arguments : List Argument} {rest : List Instr}
    {pinned : Nat → Prop}
    (all : ∀ argument ∈ arguments, (span argument).isEmpty = false → pinned (span argument).array)
    (covered : Covered span rest pinned) :
    Covered span (arguments.map .dbValue ++ rest) pinned := by
  induction arguments with
  | nil => exact covered
  | cons first more ih =>
      exact ⟨all first List.mem_cons_self,
        ih fun argument member => all argument (List.mem_cons_of_mem _ member)⟩

/-- The `DbValue`s are made and LMDB is called; then an array that is not pinned moves. -/
theorem run_unpinned {arguments : List Argument} {function : LibFunc} {rest : List Instr}
    {argument : Argument} (next : state.rest = arguments.map .dbValue ++ .native function :: rest)
    (member : argument ∈ arguments) (nonempty : (span argument).isEmpty = false)
    (unpinned : state.heap.pins (span argument).array = 0) :
    ∃ events after, Run (Marshalling.Step span) Always state events after ∧
      ∃ read ∈ after.reads, read.pointer ≠ read.place := by
  obtain ⟨events, ready⟩ := run_dbValues arguments next
  obtain ⟨later, after, misread, wrong⟩ := @run_misread span { state with
    rest := .native function :: rest
    pointer := fun argument => if argument ∈ arguments
      then some ((span argument).place state.heap) else state.pointer argument } _ _ argument
    rfl (if_pos member) nonempty unpinned
  exact ⟨_, after, ready.trans misread, wrong⟩

end Steps

namespace Invocation

variable {call : Invocation} {heap : MovingHeap}

/-- All methods but `PutMultiple` do the same with their arguments. -/
theorem steps_cases (call : Invocation) :
    (∃ function, call.steps = marshal function call.marshalled call.disposed ∧
      ∀ dataSize itemCount, call.operation ≠ .putMultiple dataSize itemCount) ∨
    ∃ dataSize itemCount, call.operation = .putMultiple dataSize itemCount ∧
      call.marshalled = [.key] ∧ call.steps = FixedMultiValueCursor.putMultipleSteps dataSize
        itemCount (call.span .data).toReadOnlySpan call.disposed := by
  obtain ⟨operation, span, disposed⟩ := call
  cases operation with
  | putMultiple dataSize itemCount => exact .inr ⟨dataSize, itemCount, rfl, rfl, rfl⟩
  | _ => exact .inl ⟨_, rfl, nofun⟩

private theorem covered (fine : call.Throws ∨ ∀ argument ∈ call.marshalled,
      (call.span argument).isEmpty = false → call.Pinned heap argument) :
    Covered call.span call.steps fun array => 0 < heap.pins array := by
  rcases call.steps_cases with
    ⟨function, steps, other⟩ | ⟨dataSize, itemCount, multiple, marshalled, steps⟩
  · rw [steps, marshal]
    intro passes
    rcases fine with (disposed | ⟨_, _, multiple, _⟩) | pinned
    · simp [disposed] at passes
    · exact absurd multiple (other _ _)
    · refine covered_dbValues (fun argument member nonempty => ?_) trivial
      rcases pinned argument member nonempty with pinned | ⟨⟨_, _, multiple⟩, _⟩
      · exact pinned
      · exact absurd multiple (other _ _)
  · rw [steps, FixedMultiValueCursor.putMultipleSteps]
    intro counted live
    refine ⟨fun nonempty => ?_, rfl⟩
    rcases fine with (disposed | ⟨_, _, same, many⟩) | pinned
    · simp [disposed] at live
    · cases multiple.symm.trans same
      simp [many] at counted
    · rcases pinned .key (by simp [marshalled]) nonempty with pinned | ⟨_, some', same⟩
      · exact .inl pinned
      · exact .inr ⟨some', same⟩

/-- A call that does not throw and one of whose arrays is not pinned can go wrong. -/
theorem misread (reaches : ¬call.Throws) {argument : Argument}
    (member : argument ∈ call.marshalled) (nonempty : (call.span argument).isEmpty = false)
    (unpinned : ¬call.Pinned heap argument) : ¬call.ReadsInPlace heap := by
  have live : call.disposed = false := Bool.eq_false_iff.mpr fun disposed => reaches (.inl disposed)
  have alone : heap.pins (call.span argument).array = 0 :=
    Nat.eq_zero_of_not_pos fun pinned => unpinned (.inl pinned)
  suffices ∃ events after, Run (Marshalling.Step call.span) Always (call.start heap) events after ∧
      ∃ read ∈ after.reads, read.pointer ≠ read.place by
    obtain ⟨events, after, run, read, listed, wrong⟩ := this
    exact fun inPlace => wrong (inPlace events after run read listed)
  rcases call.steps_cases with ⟨function, steps, _⟩ | ⟨dataSize, itemCount, multiple, marshalled, steps⟩
  · have first : (call.start heap).rest =
        .check true :: (call.marshalled.map .dbValue ++ [.native function]) := by
      rw [start, steps, marshal, live]
      rfl
    have checked : Run (Marshalling.Step call.span) Always (call.start heap) _ _ :=
      .single trivial (.checked first)
    obtain ⟨events, after, later, wrong⟩ := @run_unpinned _ { call.start heap with
      rest := call.marshalled.map .dbValue ++ [.native function] } _ _ _ _ rfl member nonempty alone
    exact ⟨_, after, checked.trans later, wrong⟩
  · have counted : ¬(call.span .data).length < dataSize * itemCount := fun many =>
      reaches (.inr ⟨dataSize, itemCount, multiple, many⟩)
    have first : (call.start heap).rest = .check true :: .check true :: .fixed .data ::
        ([Argument.key].map .dbValue ++ .native .mdbCursorPut :: [.release .data]) := by
      rw [start, steps, FixedMultiValueCursor.putMultipleSteps, live, decide_eq_false counted]
      rfl
    have checked : Run (Marshalling.Step call.span) Always (call.start heap) _ _ :=
      .snoc (.single trivial (.checked first)) trivial (.checked rfl)
    rw [marshalled] at member
    cases List.mem_singleton.mp member
    let rest : List Instr := [Argument.key].map .dbValue ++ [.native .mdbCursorPut, .release .data]
    cases empty : (call.span .data).isEmpty with
    | true =>
        have entered := checked.snoc trivial (.fixedEmpty rfl empty)
        obtain ⟨events, after, later, wrong⟩ := @run_unpinned _ (Marshalling.assign
          { call.start heap with rest := rest } .data none) _ _ _ _ rfl member nonempty alone
        exact ⟨_, after, entered.trans later, wrong⟩
    | false =>
        have entered := checked.snoc trivial (.fixed rfl empty)
        have different : (call.span .key).array ≠ (call.span .data).array := fun same =>
          unpinned (.inr ⟨⟨dataSize, itemCount, multiple⟩, empty, same⟩)
        obtain ⟨events, after, later, wrong⟩ := @run_unpinned _ (Marshalling.assign
          { call.start heap with heap := heap.pin (call.span .data).array, rest := rest } .data
          (some ((call.span .data).place heap))) _ _ _ _ rfl member nonempty
          ((if_neg different).trans alone)
        exact ⟨_, after, entered.trans later, wrong⟩

end Invocation

/-- Whatever the collector does, LMDB reads the arguments of a call in place,
exactly when the call throws before it reaches LMDB, or the array behind every
argument that is not empty is pinned: by the caller, or, in `PutMultiple`, because
the data is in the same array. -/
theorem readsInPlace_iff (call : Invocation) (heap : MovingHeap) :
    call.ReadsInPlace heap ↔ call.Throws ∨ ∀ argument ∈ call.marshalled,
      (call.span argument).isEmpty = false → call.Pinned heap argument := by
  constructor
  · intro inPlace
    by_contra broken
    obtain ⟨reaches, unpinned⟩ := not_or.mp broken
    refine unpinned fun argument member nonempty => ?_
    by_contra loose
    exact Invocation.misread reaches member nonempty loose inPlace
  · intro fine events after run
    have initial : InPlace call.span (call.start heap) :=
      ⟨Invocation.covered fine, fun _ _ _ assigned => (nomatch assigned), nofun⟩
    exact (initial.run run).reads

/-- Two arrays of four bytes, at 1000 and at 2000, neither of them pinned. -/
def twoArrays : MovingHeap where
  address array := if array = 0 then 1000 else if array = 1 then 2000 else 0
  size array := if array ≤ 1 then 4 else 0
  pins _ := 0
  apart array other different := by grind
  bounded := ⟨2004, fun array => by grind⟩

/-- `Put` of a key in the first array and data in the second one. -/
def putOfTwo : Invocation where
  operation := .databasePut
  span
    | .key => ⟨⟨[1, 2, 3, 4], by decide⟩, 0, 0⟩
    | _ => ⟨⟨[5, 6, 7, 8], by decide⟩, 1, 0⟩
  disposed := false

/-- The collector moves the key to 4096 after both `DbValue`s are made: LMDB reads
it at 1000. -/
theorem put_reads_elsewhere : ¬putOfTwo.ReadsInPlace twoArrays ∧
    ∃ after, Run (Marshalling.Step putOfTwo.span) Always (putOfTwo.start twoArrays)
      [.run, .run, .run, .relocate 0 4096, .read .key] after ∧
      after.reads = [⟨.key, 1000, 4096⟩] := by
  have free : twoArrays.Free 0 4096 := fun other different => by
    simp only [twoArrays]
    grind
  have checked : Run (Marshalling.Step putOfTwo.span) Always (putOfTwo.start twoArrays) _ _ :=
    .single trivial (.checked rfl)
  have ready := (checked.snoc trivial (.dbValue rfl)).snoc trivial (.dbValue rfl)
  have moved := ready.snoc trivial (.relocated rfl free)
  have misread := moved.snoc trivial (@Marshalling.Step.read _ _ _ _ .key _ rfl rfl rfl)
  refine ⟨fun inPlace => ?_, _, misread, rfl⟩
  cases inPlace _ _ misread _ List.mem_cons_self

end KdSoftLmdb
