import KdSoftLmdb.Interop.Spans
import KdSoftLmdb.Invariants.Reachable

/-!
# FixedMultiValueCursor.PutMultiple

`PutMultiple` compares a 32-bit product with the length of the buffer and then
hands both factors to LMDB as sizes of their own. The product wraps, and a
negative factor becomes a huge one, so the comparison bounds what LMDB reads
only while the product is in range and no factor is negative.
-/

namespace KdSoftLmdb

variable {runtime : Runtime}

def DbRetCode.tooManyFixedItems : DbRetCode := ⟨ErrorUtil.dotNetLowError.code + 1⟩

/-- What `mdb_cursor_put` is given with `MDB_MULTIPLE`, apart from the bytes. -/
structure MultiplePut where
  cursor : IntPtr
  keySize : BitVec 64
  itemSize : BitVec 64
  itemCount : BitVec 64

/-- The bytes that LMDB reads from the start of the data: consecutive items. -/
def MultiplePut.reads (put : MultiplePut) : Nat := put.itemSize.toNat * put.itemCount.toNat

/-- What a call of `PutMultiple` can change: the objects, the caller's variable
that is passed by reference, and the native calls made so far, the latest first. -/
structure PutState (runtime : Runtime) where
  world : World runtime
  itemCount : Int32
  puts : List MultiplePut

/-- LMDB's answer: the code, and the number of stored items that it leaves in the
second `MDB_val`. -/
structure MultipleAnswer where
  ret : DbRetCode
  stored : BitVec 64

namespace FixedMultiValueCursor

/-- Run a method that knows nothing of the variable. -/
def onWorld {α : Type} (body : Call runtime α) : Method (PutState runtime) Exception α :=
  fun state => (body state.world).map fun outcome =>
    (outcome.1, { state with world := outcome.2 })

/-- `DataSize`, which is the one of the configuration that the database was opened with. -/
def dataSize (world : World runtime) (c : CursorRef) : Int32 :=
  match (world.cursors.obj c).kind with
  | .fixedMultiValueDatabase fixedDataSize => fixedDataSize
  | _ => 0

/-- `(int)dbMultiData[1].Size`: the conversion throws when the size is no `int`. -/
def storedCount (stored : BitVec 64) : Except Exception Int32 :=
  (Interop.DbValue.mk (.ofBitVec stored) 0).sizeAsInt.mapError fun _ => .overflow

/-- `itemCount = (int)dbMultiData[1].Size` -/
def assignCount (stored : BitVec 64) : Method (PutState runtime) Exception Unit :=
  match storedCount stored with
  | .ok count => .modify fun state => { state with itemCount := count }
  | .error exception => .throw exception

/-- `FixedMultiValueCursor.PutMultiple` -/
def putMultiple (c : CursorRef) (key data : ReadOnlySpan) (answer : MultipleAnswer) :
    Method (PutState runtime) Exception Bool := do
  let state ← .get
  let size := dataSize state.world c
  if data.length < size * state.itemCount then
    onWorld (checkRetCode .tooManyFixedItems)
  let handle ← onWorld (Cursor.checkDisposed c)
  .modify fun state => { state with
    world := state.world.onNative fun native => native.record .mdbCursorPut [.cursor handle]
    puts := ⟨handle, DbValue.size key.length, DbValue.size size,
      DbValue.size state.itemCount⟩ :: state.puts }
  assignCount answer.stored
  if answer.ret = .keyExist then pure false
  else do
    onWorld (checkRetCode answer.ret)
    pure true

/-- The count that reached LMDB stays within the caller's buffer. -/
structure WithinBuffer (size itemCount : Int32) (data : ReadOnlySpan) (put : MultiplePut) :
    Prop where
  count : 0 ≤ itemCount.toInt
  product : size.toInt * itemCount.toInt ≤ data.bytes.length
  reads : put.reads ≤ data.bytes.length

/-- The call made one native call within the buffer, or it threw before any and
changed nothing. -/
def Bounded (size : Int32) (data : ReadOnlySpan) (state : PutState runtime)
    (result : Except Exception Bool) (after : PutState runtime) : Prop :=
  (∃ exception, result = .error exception) ∧ after = state ∨
    ∃ put, after.puts = put :: state.puts ∧ WithinBuffer size state.itemCount data put

/-- The factors are not negative and their product is an `int`, or there is
nothing to store. -/
def InRange (size itemCount : Int32) : Prop :=
  itemCount.toInt = 0 ∨
    0 < itemCount.toInt ∧ 0 ≤ size.toInt ∧ size.toInt * itemCount.toInt < 2 ^ 31

section PutMultiple

variable {size itemCount : Int32} {data : ReadOnlySpan}

/-- A product in range is compared as what it is. -/
theorem InRange.within (inRange : InRange size itemCount)
    (passed : ¬data.length < size * itemCount) {put : MultiplePut}
    (sized : put.itemSize = DbValue.size size) (counted : put.itemCount = DbValue.size itemCount) :
    WithinBuffer size itemCount data put := by
  rw [Int32.lt_iff_toInt_lt, ReadOnlySpan.toInt_length] at passed
  rcases inRange with zero | ⟨positive, nonneg, upper⟩
  · have none : (DbValue.size itemCount).toNat = 0 := by
      have same := DbValue.toNat_size_of_nonneg (Int.le_of_eq zero.symm)
      omega
    refine ⟨Int.le_of_eq zero.symm, ?_, ?_⟩
    · rw [zero, Int.mul_zero]
      exact Int.natCast_nonneg _
    · rw [MultiplePut.reads, counted, none, Nat.mul_zero]
      exact Nat.zero_le _
  · have product : 0 ≤ size.toInt * itemCount.toInt :=
      Int.mul_nonneg nonneg (Int.le_of_lt positive)
    rw [toInt_mul_of_lt (by omega) upper] at passed
    refine ⟨Int.le_of_lt positive, by omega, ?_⟩
    have same : (put.reads : Int) = size.toInt * itemCount.toInt := by
      rw [MultiplePut.reads, sized, counted, Int.natCast_mul, DbValue.toNat_size_of_nonneg nonneg,
        DbValue.toNat_size_of_nonneg (Int.le_of_lt positive)]
    omega

/-- What LMDB reads lies within the buffer only if the factors are in range. -/
theorem WithinBuffer.inRange {put : MultiplePut} (within : WithinBuffer size itemCount data put)
    (sized : put.itemSize = DbValue.size size) (counted : put.itemCount = DbValue.size itemCount) :
    InRange size itemCount := by
  have short := data.short
  have product := within.product
  have nonneg := within.count
  by_cases zero : itemCount.toInt = 0
  · exact .inl zero
  · refine .inr ⟨by omega, ?_, by omega⟩
    by_contra negative
    have huge := DbValue.le_toNat_size_of_neg (Int.not_le.mp negative)
    have items := DbValue.toNat_size_of_nonneg nonneg
    have reads := within.reads
    rw [MultiplePut.reads, sized, counted] at reads
    have atLeast : (DbValue.size size).toNat * 1 ≤
        (DbValue.size size).toNat * (DbValue.size itemCount).toNat :=
      Nat.mul_le_mul_left _ (by omega)
    omega

variable {state : PutState runtime} {c : CursorRef} {key : ReadOnlySpan} {answer : MultipleAnswer}

private theorem onWorld_checkRetCode_failed {ret : DbRetCode} (failed : ret ≠ .success)
    (state : PutState runtime) :
    ∃ exception, onWorld (checkRetCode ret) state = some (.error exception, state) := by
  obtain ⟨message, threw⟩ := checkRetCode_failed failed state.world
  exact ⟨_, by rw [onWorld, threw]; rfl⟩

/-- A count that the guard rejects makes no native call. -/
theorem putMultiple_of_rejected
    (rejected : data.length < dataSize state.world c * state.itemCount) :
    ∃ exception, putMultiple c key data answer state = some (.error exception, state) := by
  have failed : DbRetCode.tooManyFixedItems ≠ .success := by decide
  obtain ⟨exception, threw⟩ := onWorld_checkRetCode_failed failed state
  refine ⟨exception, ?_⟩
  rw [putMultiple, Method.get_bind]
  dsimp only
  rw [if_pos rejected, Method.bind_of_error threw]

/-- Neither does a disposed cursor. -/
theorem putMultiple_of_disposed
    (passed : ¬data.length < dataSize state.world c * state.itemCount)
    (disposed : state.world.cur c = 0) :
    ∃ exception, putMultiple c key data answer state = some (.error exception, state) := by
  obtain ⟨name, threw⟩ := Cursor.checkDisposed_of_disposed disposed
  have check : onWorld (Cursor.checkDisposed c) state =
      some (.error (.objectDisposed name), state) := by
    rw [onWorld, threw]
    rfl
  refine ⟨.objectDisposed name, ?_⟩
  rw [putMultiple, Method.get_bind]
  dsimp only
  rw [if_neg passed, Method.bind_of_error check]

/-- Otherwise there is one native call, with both factors as sizes. -/
theorem putMultiple_of_passed (passed : ¬data.length < dataSize state.world c * state.itemCount)
    (live : state.world.cur c ≠ 0) :
    ∃ result after put, putMultiple c key data answer state = some (result, after) ∧
      after.puts = put :: state.puts ∧ put.itemSize = DbValue.size (dataSize state.world c) ∧
      put.itemCount = DbValue.size state.itemCount := by
  have check : onWorld (Cursor.checkDisposed c) state = some (.ok (state.world.cur c), state) := by
    rw [onWorld, Cursor.checkDisposed_of_live live]
    rfl
  rw [putMultiple, Method.get_bind]
  dsimp only
  rw [if_neg passed, Method.bind_of_ok check, Method.modify_bind]
  cases counted : storedCount answer.stored with
  | error exception =>
      have threw (state : PutState runtime) :
          assignCount answer.stored state = some (.error exception, state) := by
        rw [assignCount, counted]
        rfl
      rw [Method.bind_of_error (threw _)]
      exact ⟨_, _, _, rfl, rfl, rfl, rfl⟩
  | ok count =>
      have assigned (state : PutState runtime) :
          assignCount answer.stored state = some (.ok (), { state with itemCount := count }) := by
        rw [assignCount, counted]
        rfl
      rw [Method.bind_of_ok (assigned _)]
      by_cases exists' : answer.ret = .keyExist
      · rw [if_pos exists']
        exact ⟨_, _, _, rfl, rfl, rfl, rfl⟩
      · rw [if_neg exists']
        by_cases succeeded : answer.ret = .success
        · rw [succeeded]
          exact ⟨_, _, _, rfl, rfl, rfl, rfl⟩
        · obtain ⟨exception, threw⟩ := onWorld_checkRetCode_failed succeeded _
          rw [Method.bind_of_error threw]
          exact ⟨_, _, _, rfl, rfl, rfl, rfl⟩

/-- A call of `PutMultiple` hands LMDB nothing beyond the buffer exactly when it
makes no native call at all or the count and the item size are in range. -/
theorem putMultiple_bounded_iff (c : CursorRef) (key data : ReadOnlySpan)
    (answer : MultipleAnswer) (state : PutState runtime) :
    ∃ result after, putMultiple c key data answer state = some (result, after) ∧
      (Bounded (dataSize state.world c) data state result after ↔ state.world.cur c = 0 ∨
        data.length < dataSize state.world c * state.itemCount ∨
        InRange (dataSize state.world c) state.itemCount) := by
  by_cases rejected : data.length < dataSize state.world c * state.itemCount
  · obtain ⟨exception, threw⟩ := putMultiple_of_rejected rejected
    exact ⟨_, _, threw, fun _ => .inr (.inl rejected), fun _ => .inl ⟨⟨_, rfl⟩, rfl⟩⟩
  by_cases disposed : state.world.cur c = 0
  · obtain ⟨exception, threw⟩ := putMultiple_of_disposed rejected disposed
    exact ⟨_, _, threw, fun _ => .inl disposed, fun _ => .inl ⟨⟨_, rfl⟩, rfl⟩⟩
  obtain ⟨result, after, put, returned, made, sized, counted⟩ :=
    @putMultiple_of_passed runtime data state c key answer rejected disposed
  refine ⟨result, after, returned, ?_, ?_⟩
  · rintro (⟨_, rfl⟩ | ⟨other, made', within⟩)
    · exact absurd made.symm (List.cons_ne_self _ _)
    · cases made.symm.trans made'
      exact .inr (.inr (within.inRange sized counted))
  · rintro (absurd' | absurd' | inRange)
    · exact absurd absurd' disposed
    · exact absurd absurd' rejected
    · exact .inr ⟨put, made, inRange.within rejected sized counted⟩

end PutMultiple

/-- A cursor of a database whose values have this size. -/
def fixedCursor (size : Int32) : List Op :=
  [.beginDatabaseTransaction .none none .success,
    .openFixedMultiValueDatabase 0 (some "fixed")
      (some ⟨⟨⟨0x40000, none, none⟩, 0, none, none⟩, size⟩) ⟨.success, 2, .success, .success⟩,
    .openCursor 0 0 .success]

/-- `65536` items of `65536` bytes pass the guard of an empty buffer: the product
wraps to `0`, and LMDB reads four gibibytes. -/
theorem putMultiple_reads_beyond : ∃ (world : World .ascii) (after : PutState .ascii),
    History Always .none 0 (fixedCursor 65536) world ∧
    putMultiple 0 ⟨[1], by decide⟩ ⟨[], by decide⟩ ⟨.success, 65536⟩ ⟨world, 65536, []⟩ =
      some (.ok true, after) ∧
    after.puts.map MultiplePut.reads = [4294967296] ∧
    ¬Bounded (dataSize world 0) ⟨[], by decide⟩ ⟨world, 65536, []⟩ (.ok true) after := by
  obtain ⟨world, history, observed⟩ := history_of_replay Always .none 0 (fixedCursor 65536)
    (fun world : World .ascii =>
      ((putMultiple 0 ⟨[1], by decide⟩ ⟨[], by decide⟩ ⟨.success, 65536⟩
        ⟨world, 65536, []⟩).any fun
          | (.ok true, after) => after.puts.map MultiplePut.reads = [4294967296]
          | _ => false) = true) (by decide +kernel)
  obtain ⟨⟨result, after⟩, returned, reads⟩ := (Option.any_eq_true _ _).mp observed
  split at reads
  · rename_i same
    cases same
    have reads' := of_decide_eq_true reads
    refine ⟨world, after, history, returned, reads', ?_⟩
    rintro (⟨⟨_, failed⟩, _⟩ | ⟨put, made, within⟩)
    · cases failed
    · have reads : put.reads = 4294967296 := by simpa [made] using reads'
      have bound := within.reads
      simp [reads] at bound
  · cases reads

end FixedMultiValueCursor

end KdSoftLmdb
