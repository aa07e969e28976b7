import KdSoftLmdb.Interop.Duplicates
import KdSoftLmdb.MultiValueCursor
import KdSoftLmdb.Storing

/-!
# What a put reports

The four `Put` methods translate `KEYEXIST` to `false`, which stands for a key or a
pair that was there before. LMDB gives the same code for an append that is not in
order, so a value that is not stored for this reason is not reported by an
exception.
-/

namespace KdSoftLmdb

variable {runtime : Runtime} {order values : KeyOrder}

open DbLibConstants

/-- The C# flags enumeration `MultiValuePutOptions`: any combination of its members. -/
structure MultiValuePutOptions where
  bits : BitVec 32
  declared : bits &&& ~~~(mdbNoDupData ||| mdbAppendDup) = 0

/-- The C# enumeration `MultiValueCursorPutOption`. -/
inductive MultiValueCursorPutOption where
  | noDuplicateData | appendDuplicateData
deriving DecidableEq

/-- The value of a member. -/
def MultiValueCursorPutOption.bits : MultiValueCursorPutOption → BitVec 32
  | .noDuplicateData => mdbNoDupData
  | .appendDuplicateData => mdbAppendDup

/-- The objects and the contents of databases of either kind. -/
abbrev Keeping (runtime : Runtime) (order values : KeyOrder) := Holding runtime (Kept order values)

/-- `Database.Put` -/
def Database.putPair (d : DbRef) (t : TxnRef) (key data : Bytes) (options : PutOptions)
    (answer : PairAnswer) : Method (Keeping runtime order values) Exception Bool :=
  putInternal d t (Kept.request options.bits key data answer)

/-- `MultiValueDatabase.Put` -/
def MultiValueDatabase.putPair (d : DbRef) (t : TxnRef) (key data : Bytes) (options : PutOptions)
    (mvOptions : MultiValuePutOptions) (answer : PairAnswer) :
    Method (Keeping runtime order values) Exception Bool :=
  Database.putInternal d t (Kept.request (options.bits ||| mvOptions.bits) key data answer)

/-- `Cursor.Put` -/
def Cursor.putPair (c : CursorRef) (key data : Bytes) (option : CursorPutOption)
    (answer : PairAnswer) : Method (Keeping runtime order values) Exception Bool :=
  putInternal c (Kept.request option.bits key data answer)

/-- `MultiValueCursor.Put` with its own options. -/
def MultiValueCursor.putPair (c : CursorRef) (key data : Bytes)
    (option : MultiValueCursorPutOption) (answer : PairAnswer) :
    Method (Keeping runtime order values) Exception Bool :=
  Cursor.putInternal c (Kept.request option.bits key data answer)

/-- A `Put` with its options. -/
inductive Putter where
  | database (d : DbRef) (t : TxnRef) (options : PutOptions)
  | multiValueDatabase (d : DbRef) (t : TxnRef) (options : PutOptions)
      (mvOptions : MultiValuePutOptions)
  | cursor (c : CursorRef) (option : CursorPutOption)
  | multiValueCursor (c : CursorRef) (option : MultiValueCursorPutOption)

namespace Putter

/-- Put the pair. -/
def put (key data : Bytes) (answer : PairAnswer) :
    Putter → Method (Keeping runtime order values) Exception Bool
  | .database d t options => Database.putPair d t key data options answer
  | .multiValueDatabase d t options mvOptions =>
      MultiValueDatabase.putPair d t key data options mvOptions answer
  | .cursor c option => Cursor.putPair c key data option answer
  | .multiValueCursor c option => MultiValueCursor.putPair c key data option answer

/-- The options as LMDB gets them. -/
def flags : Putter → BitVec 32
  | .database _ _ options => options.bits
  | .multiValueDatabase _ _ options mvOptions => options.bits ||| mvOptions.bits
  | .cursor _ option => option.bits
  | .multiValueCursor _ option => option.bits

/-- The handle that the put checks. -/
def handle (world : World runtime) : Putter → Nat
  | .database d _ _ | .multiValueDatabase d _ _ _ => world.dbi d
  | .cursor c _ | .multiValueCursor c _ => world.cur c

/-- The handles under which the put stores. -/
def place (keeping : Keeping runtime order values) : Putter → IntPtr × Nat
  | .database d t _ | .multiValueDatabase d t _ _ =>
      (keeping.world.handle t, keeping.world.dbi d)
  | .cursor c _ | .multiValueCursor c _ => keeping.cursorPlace (keeping.world.cur c)

end Putter

/-- `NoOverwrite` was given and the key exists, or `NoDuplicateData` and the pair does. -/
def Kept.Excuses (content : Kept order values) (flags : BitVec 32) (key data : Bytes) : Prop :=
  hasBit flags mdbNoOverwrite = true ∧ content.hasKey key = true ∨
    hasBit flags mdbNoDupData = true ∧ content.hasPair key data = true

/-- What a put tells: `false` is excused by its options, after `true` the pair is
there, and every exception is an `LmdbException`. -/
structure PutTells (flags : BitVec 32) (key data : Bytes) (before : Kept order values)
    (result : Except Exception Bool) (after : Kept order values) : Prop where
  refused : result = .ok false → before.Excuses flags key data
  stored : result = .ok true → after.hasPair key data = true
  reported : ∀ exception, result = .error exception → exception.isLmdb = true

/-- The put does what it tells: it fails for a reason of its own; with `Current` the
key is the one the cursor is on; without it, what the append options promise is
true or the put is excused anyway, and reserved space already holds the data. -/
def Putter.Honest (flags : BitVec 32) (key data : Bytes) (answer : PairAnswer)
    (content : Kept order values) : Prop :=
  answer.failure ≠ none ∨
    if hasBit flags mdbCurrent then
      order.compare answer.current key = .eq ∨ content.hasPair key data = true
    else
      (content.inOrder flags key data = true ∨ content.Excuses flags key data) ∧
        (hasBit flags mdbReserve = true → content.inOrder flags key data = true →
          content.forbids flags key data = true ∨ content.Covers key data answer.reserved)

section Put

variable {flags : BitVec 32} {key data : Bytes} {answer : PairAnswer}
  {keeping after : Keeping runtime order values} {result : Except Exception Bool}

private theorem hasBit_or_of_off {left right flag : BitVec 32} (first : hasBit left flag = false)
    (second : hasBit right flag = false) : hasBit (left ||| right) flag = false := by
  have spread : (left ||| right) &&& flag = left &&& flag ||| right &&& flag := by
    ext index
    simp only [BitVec.getElem_and, BitVec.getElem_or]
    cases left[index] <;> cases right[index] <;> simp
  rw [hasBit, bne_eq_false_iff_eq] at first second ⊢
  rw [spread, first, second]
  rfl

private theorem MultiValuePutOptions.not_current (options : MultiValuePutOptions) :
    hasBit options.bits mdbCurrent = false := by
  have declared := options.declared
  have inside : ~~~(mdbNoDupData ||| mdbAppendDup) &&& mdbCurrent = mdbCurrent := by decide
  rw [hasBit, bne_eq_false_iff_eq, ← inside, ← BitVec.and_assoc, declared]
  exact BitVec.zero_and

/-- Only a cursor replaces its record, and it asks for no space then. -/
theorem Putter.reserve_of_current {putter : Putter}
    (current : hasBit putter.flags mdbCurrent = true) :
    hasBit putter.flags mdbReserve = false := by
  cases putter with
  | database d t options =>
      have current : hasBit options.bits mdbCurrent = true := current
      exact absurd current (Bool.eq_false_iff.mp options.not_current)
  | multiValueDatabase d t options mvOptions =>
      have current : hasBit (options.bits ||| mvOptions.bits) mdbCurrent = true := current
      exact absurd current
        (Bool.eq_false_iff.mp (hasBit_or_of_off options.not_current mvOptions.not_current))
  | cursor c option =>
      have current : hasBit option.bits mdbCurrent = true := current
      have only : option = .current := by
        by_contra different
        exact absurd current (Bool.eq_false_iff.mp (CursorPutOption.not_current different))
      subst only
      exact (by decide : hasBit CursorPutOption.current.bits mdbReserve = false)
  | multiValueCursor c option =>
      have current : hasBit option.bits mdbCurrent = true := current
      cases option with
      | noDuplicateData => exact absurd current (by decide)
      | appendDuplicateData => exact absurd current (by decide)

/-- Every put stores in one way and translates the code. -/
theorem Putter.put_eq (key data : Bytes) (answer : PairAnswer) {putter : Putter}
    (live : putter.handle keeping.world ≠ 0) :
    ∃ function handles, putter.put key data answer keeping =
      ((keeping.record function handles).storeAt (putter.place keeping).1 (putter.place keeping).2
        (Kept.request putter.flags key data answer)).bind
          fun outcome => Holding.putResult outcome.1 outcome.2 := by
  cases putter with
  | database d t options | multiValueDatabase d t options mvOptions =>
      exact ⟨_, _, Database.putInternal_eq _ t live⟩
  | cursor c option | multiValueCursor c option => exact ⟨_, _, Cursor.putInternal_eq _ live⟩

/-- How a put ends: it throws because LMDB fails, or LMDB answers from the content. -/
theorem put_ends {putter : Putter} (live : putter.handle keeping.world ≠ 0)
    (ran : putter.put key data answer keeping = some (result, after)) :
    (answer.failure ≠ none ∧ ∃ code message, result = .error (.lmdb code message)) ∨
    answer.failure = none ∧
      let place := putter.place keeping
      let stored := (keeping.contents place.1 place.2).store putter.flags key data answer
      after.contents place.1 place.2 = stored.2 ∧
        (stored.1 = .success ∧ result = .ok true ∨ stored.1 = .keyExist ∧ result = .ok false) := by
  obtain ⟨function, handles, same⟩ := Putter.put_eq key data answer live
  rw [same] at ran
  obtain ⟨⟨ret, middle⟩, stored, told⟩ := Option.bind_eq_some_iff.mp ran
  rcases Holding.storeAt_cases stored with ⟨failure, rfl⟩ | ⟨succeeds, _, rfl, rfl⟩
  · have failure : answer.failure = some ret := failure
    have failed : ret ≠ .success := fun success => answer.failing (failure.trans (success ▸ rfl))
    have other : ret ≠ .keyExist := fun exist => answer.other (failure.trans (exist ▸ rfl))
    obtain ⟨message, threw⟩ := Holding.putResult_of_failed _ failed other
    cases told.symm.trans threw
    exact .inl ⟨by simp [failure], ret, message, rfl⟩
  · refine .inr ⟨succeeds, ?_⟩
    rw [Kept.store_request] at told
    rcases (keeping.contents (putter.place keeping).1 (putter.place keeping).2).store_code
      putter.flags key data answer with success | exist
    · cases told.symm.trans (success ▸ Holding.putResult_of_success)
      exact ⟨Holding.withContent_self _, .inl ⟨success, rfl⟩⟩
    · cases told.symm.trans (exist ▸ Holding.putResult_of_keyExist)
      exact ⟨Holding.withContent_self _, .inr ⟨exist, rfl⟩⟩

section Tells

variable {before stored : Kept order values}

private theorem tells_of_error {code : DbRetCode} {message : String} :
    PutTells flags key data before (.error (.lmdb code message)) stored := by
  refine ⟨fun other => ?_, fun other => ?_, fun exception thrown => ?_⟩
  · cases other
  · cases other
  · cases thrown
    rfl

private theorem tells_of_false :
    PutTells flags key data before (.ok false) stored ↔ before.Excuses flags key data := by
  refine ⟨fun tells => tells.refused rfl, fun excused => ⟨fun _ => excused, fun other => ?_,
    fun exception thrown => ?_⟩⟩
  · cases other
  · cases thrown

private theorem tells_of_true :
    PutTells flags key data before (.ok true) stored ↔ stored.hasPair key data = true := by
  refine ⟨fun tells => tells.stored rfl, fun there => ⟨fun other => ?_, fun _ => there,
    fun exception thrown => ?_⟩⟩
  · cases other
  · cases thrown

/-- What an option forbids, it excuses. -/
theorem excuses_of_forbids (forbidden : before.forbids flags key data = true) :
    before.Excuses flags key data := by
  cases before with
  | single content =>
      obtain ⟨given, exists'⟩ := Bool.and_eq_true_iff.mp forbidden
      exact .inl ⟨given, exists'⟩
  | multi content =>
      rcases Bool.or_eq_true_iff.mp forbidden with noOverwrite | noDupData
      · exact .inl (Bool.and_eq_true_iff.mp noOverwrite)
      · exact .inr (Bool.and_eq_true_iff.mp noDupData)

end Tells

end Put

/-- Every database holds the value `5` under the key `1`. -/
def oneValue (world : World .ascii) : Keeping .ascii bytewise bytewise :=
  ⟨world, fun _ _ => .multi {([1], [5])}⟩

/-- LMDB carries the put out; it has no space to reserve. -/
def carriedOut : PairAnswer := ⟨⟨none, [], [1], nofun⟩, [5], nofun⟩

end KdSoftLmdb
