import KdSoftLmdb.Interop.Content
import KdSoftLmdb.Session

/-!
# Storing and retrieving

`Put` hands its bytes and its options to LMDB and translates the code; nothing
is written into the space that `ReserveSpace` asks LMDB for. `Get` and `GetAt`
read what LMDB holds.
-/

namespace KdSoftLmdb

variable {runtime : Runtime} {order : KeyOrder}

open DbLibConstants

/-- The C# flags enumeration `PutOptions`: any combination of its members. -/
structure PutOptions where
  bits : BitVec 32
  declared : bits &&& ~~~(mdbNoOverwrite ||| mdbReserve ||| mdbAppend) = 0

namespace PutOptions

def none : PutOptions := ⟨0, by decide⟩
def reserveSpace : PutOptions := ⟨mdbReserve, by decide⟩

end PutOptions

/-- The C# enumeration `CursorPutOption`. -/
inductive CursorPutOption where
  | none | current | noOverwrite | reserveSpace | appendData
deriving DecidableEq

/-- The value of a member. -/
def CursorPutOption.bits : CursorPutOption → BitVec 32
  | .none => 0
  | .current => mdbCurrent
  | .noOverwrite => mdbNoOverwrite
  | .reserveSpace => mdbReserve
  | .appendData => mdbAppend

/-- Neither `Put` lets LMDB overwrite the record at a cursor. -/
theorem PutOptions.not_current (options : PutOptions) : hasBit options.bits mdbCurrent = false := by
  have declared := options.declared
  rw [hasBit, bne_eq_false_iff_eq]
  have inside : ~~~(mdbNoOverwrite ||| mdbReserve ||| mdbAppend) &&& mdbCurrent = mdbCurrent := by
    decide
  rw [← inside, ← BitVec.and_assoc, declared]
  exact BitVec.zero_and

/-- No other option has the bit of `MDB_CURRENT`. -/
theorem CursorPutOption.not_current {option : CursorPutOption} (different : option ≠ .current) :
    hasBit option.bits mdbCurrent = false := by
  cases option
  case current => exact absurd rfl different
  all_goals decide

/-- The code of a put: `KEYEXIST` stands for `false`, another failure throws. -/
def Holding.putResult {κ : Type} (ret : DbRetCode) : Method (Holding runtime κ) Exception Bool :=
  if ret = .keyExist then pure false
  else do
    onWorld (checkRetCode ret)
    pure true

namespace Database

/-- `Database.PutInternal` -/
def putInternal {κ : Type} (d : DbRef) (t : TxnRef) (request : PutRequest κ) :
    Method (Holding runtime κ) Exception Bool := do
  let handle ← Holding.onWorld (checkDisposed d)
  let holding ← .get
  let ret ← .await (Holding.mdbPut (holding.world.handle t) handle request)
  Holding.putResult ret

/-- `Database.Put` with its data. -/
def putData (d : DbRef) (t : TxnRef) (key data : Bytes) (options : PutOptions)
    (answer : PutAnswer) : Method (Storage runtime order) Exception Bool :=
  putInternal d t (Content.request options.bits key data answer)

/-- `Database.Get`; `data` is empty when there is no such key. -/
def getData (d : DbRef) (t : TxnRef) (key : Bytes) :
    Method (Storage runtime order) Exception (Bool × Bytes) := do
  let handle ← Holding.onWorld (checkDisposed d)
  let storage ← .get
  let (ret, data) ← .await (Storage.mdbGet (storage.world.handle t) handle key)
  if ret = .notFound then pure (false, data)
  else do
    Holding.onWorld (checkRetCode ret)
    pure (true, data)

end Database

namespace Cursor

/-- `Cursor.PutInternal` -/
def putInternal {κ : Type} (c : CursorRef) (request : PutRequest κ) :
    Method (Holding runtime κ) Exception Bool := do
  let handle ← Holding.onWorld (checkDisposed c)
  let ret ← .await (Holding.mdbCursorPut handle request)
  Holding.putResult ret

/-- `Cursor.Put` with its data. -/
def putData (c : CursorRef) (key data : Bytes) (option : CursorPutOption) (answer : PutAnswer) :
    Method (Storage runtime order) Exception Bool :=
  putInternal c (Content.request option.bits key data answer)

/-- `Cursor.GetAt`: the entry's key and data. -/
def getAt (c : CursorRef) (key : Bytes) :
    Method (Storage runtime order) Exception (Bool × Bytes × Bytes) := do
  let handle ← Holding.onWorld (checkDisposed c)
  let (ret, entry) ← .await (Storage.mdbCursorGetKey handle key)
  if ret = .notFound then pure (false, entry)
  else do
    Holding.onWorld (checkRetCode ret)
    pure (true, entry)

end Cursor

/-- The two ways to read the data of a key. -/
inductive Reader where
  | get (d : DbRef) (t : TxnRef)
  | getAt (c : CursorRef)

namespace Reader

/-- Read the data of a key. -/
def read (key : Bytes) : Reader → Method (Storage runtime order) Exception (Bool × Bytes)
  | .get d t => Database.getData d t key
  | .getAt c => do
      let (found, _, data) ← Cursor.getAt c key
      pure (found, data)

/-- What a read returns. -/
def result (reader : Reader) (key : Bytes) (storage : Storage runtime order) :
    Option (Except Exception (Bool × Bytes)) :=
  (reader.read key storage).map Prod.fst

/-- The reader is not disposed and reads under these handles. -/
def At (storage : Storage runtime order) (txn : IntPtr) (dbi : Nat) : Reader → Prop
  | .get d t => storage.world.dbi d ≠ 0 ∧ storage.world.dbi d = dbi ∧ storage.world.handle t = txn
  | .getAt c => storage.world.cur c ≠ 0 ∧ storage.cursorPlace (storage.world.cur c) = (txn, dbi)

end Reader

/-- What a put promises: after `true` the key has exactly the given data and the
other keys have what they had, after `false` nothing has changed. -/
structure StoresAsGiven (txn : IntPtr) (dbi : Nat) (key data : Bytes)
    (before : Storage runtime order) (result : Except Exception Bool)
    (after : Storage runtime order) : Prop where
  stored : result = .ok true → ∀ reader : Reader, reader.At after txn dbi →
    reader.result key after = some (.ok (true, data))
  others : result = .ok true → ∀ (reader : Reader) other, reader.At after txn dbi →
    order.compare key other ≠ .eq → reader.result other after = reader.result other before
  kept : result = .ok false → after.contents = before.contents

namespace Holding

variable {κ : Type} {holding middle : Holding runtime κ} {txn : IntPtr} {dbi : Nat}
  {request : PutRequest κ} {ret : DbRetCode}

private theorem onWorld_of_some {α : Type} {body : Call runtime α} {result : Except Exception α}
    (ran : body holding.world = some (result, holding.world)) :
    onWorld body holding = some (result, holding) :=
  Method.zoom_of_some ran

private theorem readable_of_writable (writable : holding.writable txn dbi = true) :
    holding.readable txn dbi = true := by
  rw [Holding.writable, Bool.and_eq_true, Native.canWrite_iff] at writable
  rw [Holding.readable, Bool.and_eq_true]
  exact ⟨writable.1.1, writable.2⟩

/-- The content that was put in place is there. -/
theorem withContent_self (content : κ) :
    (holding.withContent txn dbi content).contents txn dbi = content :=
  if_pos ⟨rfl, rfl⟩

private theorem withContent_same :
    holding.withContent txn dbi (holding.contents txn dbi) = holding := by
  have same : (holding.withContent txn dbi (holding.contents txn dbi)).contents =
      holding.contents := by
    funext otherTxn otherDbi
    simp only [withContent]
    split
    · rename_i equal
      rw [equal.1, equal.2]
    · rfl
  cases holding
  exact congrArg (mk _) same

/-- A success is `true`. -/
theorem putResult_of_success : putResult .success holding = some (.ok true, holding) := by
  rw [putResult, if_neg (by decide), Method.bind_of_ok (onWorld_of_some (checkRetCode_success _))]
  rfl

/-- `KEYEXIST` is `false`. -/
theorem putResult_of_keyExist : putResult .keyExist holding = some (.ok false, holding) := rfl

/-- Every other code throws. -/
theorem putResult_of_failed (holding : Holding runtime κ) (failed : ret ≠ .success)
    (other : ret ≠ .keyExist) :
    ∃ message, putResult ret holding = some (.error (.lmdb ret message), holding) := by
  obtain ⟨message, threw⟩ := checkRetCode_failed failed holding.world
  refine ⟨message, ?_⟩
  rw [putResult, if_neg other, Method.bind_of_error (onWorld_of_some threw)]

/-- LMDB fails for a reason of its own, or does what was asked for with the content. -/
theorem storeAt_cases (stored : holding.storeAt txn dbi request = some (ret, middle)) :
    request.failure = some ret ∧ middle = holding ∨
    request.failure = none ∧ holding.writable txn dbi = true ∧
      ret = (request.store (holding.contents txn dbi)).1 ∧
      middle = holding.withContent txn dbi (request.store (holding.contents txn dbi)).2 := by
  rw [storeAt] at stored
  split at stored
  · rename_i code failure
    cases stored
    exact .inl ⟨failure, rfl⟩
  · rename_i succeeds
    split at stored
    · rename_i writable
      cases stored
      exact .inr ⟨succeeds, writable, rfl, rfl⟩
    · cases stored

private theorem storeAt_world (stored : holding.storeAt txn dbi request = some (ret, middle)) :
    middle.world = holding.world := by
  rcases storeAt_cases stored with ⟨_, rfl⟩ | ⟨_, _, _, rfl⟩ <;> rfl

end Holding

section Internal

open Holding

variable {κ : Type} {holding : Holding runtime κ} (request : PutRequest κ)

/-- A put into a database that is not disposed. -/
theorem Database.putInternal_eq {d : DbRef} (t : TxnRef) (live : holding.world.dbi d ≠ 0) :
    Database.putInternal d t request holding =
      ((holding.record .mdbPut [.txn (holding.world.handle t), .dbi (holding.world.dbi d)]).storeAt
        (holding.world.handle t) (holding.world.dbi d) request).bind
          fun outcome => putResult outcome.1 outcome.2 := by
  rw [putInternal, Method.bind_of_ok (onWorld_of_some (checkDisposed_of_live live)),
    Method.get_bind, Method.await_bind]
  rfl

/-- A put by a cursor that is not disposed. -/
theorem Cursor.putInternal_eq {c : CursorRef} (live : holding.world.cur c ≠ 0) :
    Cursor.putInternal c request holding =
      ((holding.record .mdbCursorPut [.cursor (holding.world.cur c)]).storeAt
        (holding.cursorPlace (holding.world.cur c)).1 (holding.cursorPlace (holding.world.cur c)).2
        request).bind fun outcome => putResult outcome.1 outcome.2 := by
  rw [putInternal, Method.bind_of_ok (onWorld_of_some (checkDisposed_of_live live)),
    Method.await_bind]
  rfl

/-- What a put with its bytes does to the objects is what `Database.put` does with
the code that LMDB answers. -/
theorem database_putInternal_refines {d : DbRef} {t : TxnRef} {result : Except Exception Bool}
    {after : Holding runtime κ}
    (returned : Database.putInternal d t request holding = some (result, after)) :
    ∃ ret, Database.put d t ret holding.world = some (result, after.world) := by
  by_cases live : holding.world.dbi d = 0
  · obtain ⟨name, check⟩ := Database.checkDisposed_of_disposed live
    rw [Database.putInternal, Method.bind_of_error (onWorld_of_some check)] at returned
    cases returned
    exact ⟨.success, Method.bind_of_error check⟩
  · rw [Database.putInternal_eq request t live] at returned
    obtain ⟨⟨ret, middle⟩, stored, translated⟩ := Option.bind_eq_some_iff.mp returned
    have world := storeAt_world stored
    refine ⟨ret, ?_⟩
    rw [Database.put, Database.access, Method.bind_of_ok (Database.checkDisposed_of_live live),
      Method.get_bind, Method.modify_bind]
    by_cases exists' : ret = .keyExist
    · subst exists'
      cases translated
      rw [world]
      rfl
    · rw [if_neg fun same => exists' (Option.some.inj same).symm]
      by_cases succeeded : ret = .success
      · subst succeeded
        cases putResult_of_success.symm.trans translated
        rw [world]
        rfl
      · obtain ⟨message, threw⟩ := checkRetCode_failed succeeded middle.world
        rw [putResult, if_neg exists', Method.bind_of_error (onWorld_of_some threw)] at translated
        cases translated
        rw [world] at threw ⊢
        exact Method.bind_of_error threw

end Internal

section Read

open Holding

variable {storage after : Storage runtime order} {txn : IntPtr} {dbi : Nat} {key : Bytes}

/-- The code of a read, which finds the key or does not. -/
theorem find_code (content : Content order) (key : Bytes) :
    (content.find key).1 = .success ∨ (content.find key).1 = .notFound := by
  rw [Content.find]
  cases content[key]? with
  | some => exact .inl rfl
  | none => exact .inr rfl

private theorem translated {α : Type} {ret : DbRetCode} (known : ret = .success ∨ ret = .notFound)
    (value : α) :
    ((if ret = .notFound then pure (false, value)
      else do
        Holding.onWorld (checkRetCode ret)
        pure (true, value) : Method (Storage runtime order) Exception (Bool × α)) storage) =
      some (.ok (decide (ret ≠ .notFound), value), storage) := by
  rcases known with rfl | rfl
  · rw [if_neg (by decide), Method.bind_of_ok (onWorld_of_some (checkRetCode_success _))]
    rfl
  · rfl

private theorem getData_eq {d : DbRef} {t : TxnRef} (live : storage.world.dbi d ≠ 0)
    (readable : storage.readable (storage.world.handle t) (storage.world.dbi d) = true) :
    ∃ after, Database.getData d t key storage = some (.ok
      (decide (((storage.contents (storage.world.handle t) (storage.world.dbi d)).find key).1 ≠
          .notFound),
        ((storage.contents (storage.world.handle t) (storage.world.dbi d)).find key).2), after) := by
  have read : Storage.mdbGet (storage.world.handle t) (storage.world.dbi d) key storage =
      some ((storage.contents (storage.world.handle t) (storage.world.dbi d)).find key,
        storage.record .mdbGet [.txn (storage.world.handle t), .dbi (storage.world.dbi d)]) :=
    if_pos readable
  refine ⟨storage.record .mdbGet [.txn (storage.world.handle t), .dbi (storage.world.dbi d)], ?_⟩
  rw [Database.getData, Method.bind_of_ok (onWorld_of_some (Database.checkDisposed_of_live live)),
    Method.get_bind, Method.bind_apply, Method.await_apply, read]
  exact translated (find_code _ key) _

private theorem getAt_eq {c : CursorRef} (live : storage.world.cur c ≠ 0)
    (place : storage.cursorPlace (storage.world.cur c) = (txn, dbi))
    (readable : storage.readable txn dbi = true) :
    ∃ after, Cursor.getAt c key storage = some (.ok
      (decide (((storage.contents txn dbi).find key).1 ≠ .notFound),
        ((storage.contents txn dbi).getKey? key).getD key,
        ((storage.contents txn dbi).find key).2), after) := by
  have read : Storage.mdbCursorGetKey (storage.world.cur c) key storage =
      some ((((storage.contents txn dbi).find key).1,
        ((storage.contents txn dbi).getKey? key).getD key,
        ((storage.contents txn dbi).find key).2),
        storage.record .mdbCursorGet [.cursor (storage.world.cur c)]) := by
    rw [Storage.mdbCursorGetKey, place]
    exact if_pos readable
  refine ⟨storage.record .mdbCursorGet [.cursor (storage.world.cur c)], ?_⟩
  rw [Cursor.getAt, Method.bind_of_ok (onWorld_of_some (Cursor.checkDisposed_of_live live)),
    Method.bind_apply, Method.await_apply, read]
  exact translated (find_code _ key) _

/-- A reader that is not disposed returns what LMDB finds. -/
theorem Reader.result_eq {reader : Reader} (placed : reader.At storage txn dbi)
    (readable : storage.readable txn dbi = true) :
    reader.result key storage = some (.ok
      (decide (((storage.contents txn dbi).find key).1 ≠ .notFound),
        ((storage.contents txn dbi).find key).2)) := by
  cases reader with
  | get d t =>
      obtain ⟨live, rfl, rfl⟩ := placed
      obtain ⟨after, ran⟩ := getData_eq live readable
      rw [Reader.result, Reader.read, ran]
      rfl
  | getAt c =>
      obtain ⟨live, place⟩ := placed
      obtain ⟨after, ran⟩ := getAt_eq live place readable
      rw [Reader.result, Reader.read, Method.bind_of_ok ran]
      rfl

end Read

section Put

open Holding

variable {storage middle after : Storage runtime order} {txn : IntPtr} {dbi : Nat}
  {flags : BitVec 32} {key data : Bytes} {answer : PutAnswer} {ret : DbRetCode}
  {result : Except Exception Bool}

private theorem store_of_refused (content : Content order) (other : hasBit flags mdbCurrent = false)
    (refused : content.refuses flags key = true) :
    content.store flags key data answer = (.keyExist, content) := by
  rw [Content.store, other, refused]
  rfl

private theorem store_of_taken (content : Content order) (other : hasBit flags mdbCurrent = false)
    (taken : content.refuses flags key = false) :
    content.store flags key data answer = (.success, content.insert key
      (if hasBit flags mdbReserve then answer.reserved else data)) := by
  rw [Content.store, other, taken]
  rfl

/-- The storage after a native call that stored something. -/
theorem result_of_insert {reader : Reader} {function : LibFunc} {handles : List NativeHandle}
    (writable : storage.writable txn dbi = true) (placed : reader.At storage txn dbi)
    (other stored : Bytes) :
    reader.result other ((storage.record function handles).withContent txn dbi
      ((storage.contents txn dbi).insert key stored)) = some (.ok
        (decide ((Content.find ((storage.contents txn dbi).insert key stored) other).1 ≠ .notFound),
          (Content.find ((storage.contents txn dbi).insert key stored) other).2)) := by
  have after : reader.At ((storage.record function handles).withContent txn dbi
      ((storage.contents txn dbi).insert key stored)) txn dbi := by
    cases reader <;> exact placed
  rw [Reader.result_eq after (readable_of_writable writable), withContent_self]

/-- A put that stores the given bytes keeps its promise. -/
theorem StoresAsGiven.of_insert {function : LibFunc} {handles : List NativeHandle}
    (writable : storage.writable txn dbi = true) :
    StoresAsGiven txn dbi key data storage (.ok true)
      ((storage.record function handles).withContent txn dbi
        ((storage.contents txn dbi).insert key data)) := by
  have readable := readable_of_writable writable
  have before {reader : Reader} (placed : reader.At ((storage.record function handles).withContent
      txn dbi ((storage.contents txn dbi).insert key data)) txn dbi) :
      reader.At storage txn dbi := by
    cases reader <;> exact placed
  refine ⟨fun _ reader placed => ?_, fun _ reader other placed different => ?_, nofun⟩
  · rw [result_of_insert writable (before placed), Content.find_insert_self]
    rfl
  · rw [result_of_insert writable (before placed), Reader.result_eq (before placed) readable,
      Content.find_insert_of_ne _ _ different]

/-- A put that stores nothing keeps its promise. -/
theorem StoresAsGiven.of_unchanged (unsuccessful : result ≠ .ok true)
    (contents : after.contents = storage.contents) :
    StoresAsGiven txn dbi key data storage result after :=
  ⟨fun stored => absurd stored unsuccessful, fun stored => absurd stored unsuccessful,
    fun _ => contents⟩

/-- What LMDB and the wrapper make of a put between them. -/
theorem put_cases (other : hasBit flags mdbCurrent = false)
    (stored : storage.storeAt txn dbi (Content.request flags key data answer) = some (ret, middle))
    (returned : putResult ret middle = some (result, after)) :
    result ≠ .ok true ∧ after = storage ∧ (answer.failure ≠ none ∨
      (storage.contents txn dbi).refuses flags key = true) ∨
    result = .ok true ∧ after = storage.withContent txn dbi ((storage.contents txn dbi).insert key
        (if hasBit flags mdbReserve then answer.reserved else data)) ∧
      answer.failure = none ∧ storage.writable txn dbi = true ∧
      (storage.contents txn dbi).refuses flags key = false := by
  rcases storeAt_cases stored with ⟨failure, rfl⟩ | ⟨succeeds, writable, rfl, rfl⟩
  · have failure : answer.failure = some ret := failure
    have failed : ret ≠ .success := fun success => answer.failing (failure.trans (success ▸ rfl))
    by_cases exists' : ret = .keyExist
    · rw [exists', putResult_of_keyExist] at returned
      cases returned
      exact .inl ⟨by simp, rfl, .inl (by simp [failure])⟩
    · obtain ⟨message, threw⟩ := middle.putResult_of_failed failed exists'
      cases returned.symm.trans threw
      exact .inl ⟨by simp, rfl, .inl (by simp [failure])⟩
  · rw [Content.store_request] at returned
    cases refused : (storage.contents txn dbi).refuses flags key with
    | true =>
        rw [store_of_refused _ other refused, withContent_same] at returned
        cases returned
        exact .inl ⟨by simp, rfl, .inr rfl⟩
    | false =>
        rw [store_of_taken _ other refused] at returned
        cases returned.symm.trans putResult_of_success
        exact .inr ⟨rfl, rfl, succeeds, writable, rfl⟩

/-- LMDB does not carry the put out: it fails, or the options refuse the key. -/
def Storage.Declines (storage : Storage runtime order) (txn : IntPtr) (dbi : Nat)
    (flags : BitVec 32) (key : Bytes) (failure : Option DbRetCode) : Prop :=
  failure ≠ none ∨ storage.writable txn dbi = false ∨
    (storage.contents txn dbi).refuses flags key = true

/-- A put that LMDB carries out. -/
theorem put_of_carried {failure : Option DbRetCode} (other : hasBit flags mdbCurrent = false)
    (same : answer.failure = failure) (carried : ¬storage.Declines txn dbi flags key failure) :
    (storage.storeAt txn dbi (Content.request flags key data answer)).bind
        (fun outcome => putResult outcome.1 outcome.2) =
      some (.ok true, storage.withContent txn dbi ((storage.contents txn dbi).insert key
        (if hasBit flags mdbReserve then answer.reserved else data))) := by
  obtain ⟨succeeds, writable, taken⟩ := not_or.mp carried |>.imp_right not_or.mp
  rw [not_not] at succeeds
  rw [Bool.not_eq_false] at writable
  rw [Bool.not_eq_true] at taken
  rw [storeAt, Content.request, same, succeeds]
  simp only [writable, if_true, store_of_taken _ other taken, Option.bind_some]
  exact putResult_of_success

/-- A put by either function keeps its promise, whatever stands in reserved space,
exactly when it asks for no space, or for none at all, or stores nothing. -/
theorem put_iff (function : LibFunc) (handles : List NativeHandle) {failure : Option DbRetCode}
    (other : hasBit flags mdbCurrent = false) (failing : failure ≠ some .success)
    {reader : Reader} (placed : reader.At storage txn dbi) :
    (∀ answer : PutAnswer, answer.failure = failure → answer.reserved.length = data.length →
      ∀ result after, ((storage.record function handles).storeAt txn dbi
          (Content.request flags key data answer)).bind
          (fun outcome => putResult outcome.1 outcome.2) = some (result, after) →
        StoresAsGiven txn dbi key data storage result after) ↔
      hasBit flags mdbReserve = false ∨ data = [] ∨ storage.Declines txn dbi flags key failure := by
  constructor
  · intro promised
    by_contra otherwise
    obtain ⟨reserved, nonempty, carried⟩ := not_or.mp otherwise |>.imp_right not_or.mp
    rw [Bool.not_eq_false] at reserved
    -- every reserved byte differs from the byte that was passed
    let answer : PutAnswer := ⟨failure, data.map (· + 1), [], failing⟩
    have ran : ((storage.record function handles).storeAt txn dbi
        (Content.request flags key data answer)).bind
        (fun outcome => putResult outcome.1 outcome.2) = some (.ok true, _) :=
      put_of_carried other rfl carried
    have law := promised _ rfl (List.length_map _) _ _ ran
    have writable : storage.writable txn dbi = true := by
      by_contra unwritable
      exact carried (.inr (.inl (by simpa using unwritable)))
    have after : reader.At ((storage.record function handles).withContent txn dbi
        ((storage.contents txn dbi).insert key
          (if hasBit flags mdbReserve then data.map (· + 1) else data))) txn dbi := by
      cases reader <;> exact placed
    have read : reader.result key ((storage.record function handles).withContent txn dbi
        ((storage.contents txn dbi).insert key
          (if hasBit flags mdbReserve then data.map (· + 1) else data))) = some (.ok (true, data)) :=
      law.stored rfl reader after
    rw [reserved, if_pos rfl, result_of_insert writable placed, Content.find_insert_self] at read
    simp only [Option.some.injEq, Except.ok.injEq, Prod.mk.injEq] at read
    cases data with
    | nil => exact nonempty rfl
    | cons first rest =>
        have same : first + 1 = first := (List.cons.inj read.2).1
        simp at same
  · intro condition answer same length result after ran
    obtain ⟨⟨ret, middle⟩, stored, returned⟩ := Option.bind_eq_some_iff.mp ran
    rcases put_cases other stored returned with
      ⟨unsuccessful, rfl, _⟩ | ⟨rfl, rfl, succeeds, writable, taken⟩
    · exact .of_unchanged unsuccessful rfl
    · have bytes : (if hasBit flags mdbReserve then answer.reserved else data) = data := by
        rcases condition with unreserved | empty | declined
        · rw [unreserved]
          rfl
        · have none : answer.reserved = [] :=
            List.length_eq_zero_iff.mp (length.trans (by rw [empty]; rfl))
          rw [none, empty, ite_self]
        · rcases declined with failed | unwritable | refused
          · exact absurd (same ▸ succeeds) failed
          · cases unwritable.symm.trans writable
          · cases refused.symm.trans taken
      rw [bytes]
      exact .of_insert writable

end Put

section Members

open Holding

variable {storage : Storage runtime order} {key data : Bytes} {failure : Option DbRetCode}

/-- The promise of a put under these handles, whatever stands in reserved space. -/
def Promised (body : PutAnswer → Method (Storage runtime order) Exception Bool) (txn : IntPtr)
    (dbi : Nat) (key data : Bytes) (failure : Option DbRetCode) (storage : Storage runtime order) :
    Prop :=
  ∀ answer : PutAnswer, answer.failure = failure → answer.reserved.length = data.length →
    ∀ result after, body answer storage = some (result, after) →
      StoresAsGiven txn dbi key data storage result after

/-- A put on a disposed object throws. -/
theorem promised_of_threw {body : PutAnswer → Method (Storage runtime order) Exception Bool}
    {txn : IntPtr} {dbi : Nat}
    (threw : ∀ answer, ∃ exception, body answer storage = some (.error exception, storage)) :
    Promised body txn dbi key data failure storage := by
  intro answer _ _ result after ran
  obtain ⟨exception, failed⟩ := threw answer
  cases ran.symm.trans failed
  exact .of_unchanged (by simp) rfl

private theorem database_promised_iff {d : DbRef} {t : TxnRef} (options : PutOptions)
    (failing : failure ≠ some .success) :
    Promised (Database.putData d t key data options) (storage.world.handle t)
        (storage.world.dbi d) key data failure storage ↔
      hasBit options.bits mdbReserve = false ∨ data = [] ∨ storage.world.dbi d = 0 ∨
        storage.Declines (storage.world.handle t) (storage.world.dbi d) options.bits key failure := by
  by_cases live : storage.world.dbi d = 0
  · obtain ⟨name, check⟩ := Database.checkDisposed_of_disposed live
    refine ⟨fun _ => .inr (.inr (.inl live)), fun _ => promised_of_threw fun answer =>
      ⟨.objectDisposed name, ?_⟩⟩
    rw [Database.putData, Database.putInternal, Method.bind_of_error (onWorld_of_some check)]
  · have placed : Reader.At storage (storage.world.handle t) (storage.world.dbi d) (.get d t) :=
      ⟨live, rfl, rfl⟩
    simp only [Promised, Database.putData, Database.putInternal_eq _ t live,
      put_iff .mdbPut _ options.not_current failing placed, live, false_or]

private theorem cursor_promised_iff {c : CursorRef} {option : CursorPutOption}
    (different : option ≠ .current) (failing : failure ≠ some .success) :
    Promised (Cursor.putData c key data option) (storage.cursorPlace (storage.world.cur c)).1
        (storage.cursorPlace (storage.world.cur c)).2 key data failure storage ↔
      hasBit option.bits mdbReserve = false ∨ data = [] ∨ storage.world.cur c = 0 ∨
        storage.Declines (storage.cursorPlace (storage.world.cur c)).1
          (storage.cursorPlace (storage.world.cur c)).2 option.bits key failure := by
  by_cases live : storage.world.cur c = 0
  · obtain ⟨name, check⟩ := Cursor.checkDisposed_of_disposed live
    refine ⟨fun _ => .inr (.inr (.inl live)), fun _ => promised_of_threw fun answer =>
      ⟨.objectDisposed name, ?_⟩⟩
    rw [Cursor.putData, Cursor.putInternal, Method.bind_of_error (onWorld_of_some check)]
  · have placed : Reader.At storage (storage.cursorPlace (storage.world.cur c)).1
        (storage.cursorPlace (storage.world.cur c)).2 (.getAt c) := ⟨live, rfl⟩
    simp only [Promised, Cursor.putData, Cursor.putInternal_eq _ live,
      put_iff .mdbCursorPut _ (CursorPutOption.not_current different) failing placed, live, false_or]

end Members

/-- Whatever stands in space that LMDB reserves, a put keeps its promise exactly
when it does not ask for reserved space, has no bytes to store, or stores nothing. -/
theorem put_promised_iff (storage : Storage runtime order) (key data : Bytes)
    {failure : Option DbRetCode} (failing : failure ≠ some .success) :
    (∀ (d : DbRef) (t : TxnRef) (options : PutOptions),
      Promised (Database.putData d t key data options) (storage.world.handle t)
          (storage.world.dbi d) key data failure storage ↔
        hasBit options.bits mdbReserve = false ∨ data = [] ∨ storage.world.dbi d = 0 ∨
          storage.Declines (storage.world.handle t) (storage.world.dbi d) options.bits key
            failure) ∧
    ∀ (c : CursorRef) (option : CursorPutOption), option ≠ .current →
      (Promised (Cursor.putData c key data option) (storage.cursorPlace (storage.world.cur c)).1
          (storage.cursorPlace (storage.world.cur c)).2 key data failure storage ↔
        hasBit option.bits mdbReserve = false ∨ data = [] ∨ storage.world.cur c = 0 ∨
          storage.Declines (storage.cursorPlace (storage.world.cur c)).1
            (storage.cursorPlace (storage.world.cur c)).2 option.bits key failure) :=
  ⟨fun _ _ options => database_promised_iff options failing,
    fun _ _ different => cursor_promised_iff different failing⟩

/-- A transaction in which a database was opened. -/
def openedHistory : List Op :=
  [.beginDatabaseTransaction .none none .success, plainOpen 0 "a" 2]

/-- Without the option a put keeps its promise. -/
theorem put_promised_plain : ∃ world : World .ascii, History Always .none 0 openedHistory world ∧
    Promised (Database.putData 0 0 [1] [7] .none) (world.handle 0) (world.dbi 0) [1] [7] none
      (⟨world, fun _ _ => ∅⟩ : Storage .ascii bytewise) := by
  obtain ⟨world, history, _⟩ := history_of_replay Always .none 0 openedHistory
    (fun world : World .ascii => world.dbi 0 = 2) (by decide +kernel)
  have exact' := (put_promised_iff (⟨world, fun _ _ => ∅⟩ : Storage .ascii bytewise) [1] [7]
    (by simp : (none : Option DbRetCode) ≠ some .success)).1 0 0 .none
  exact ⟨world, history, exact'.mpr (.inl (by decide))⟩

/-- A put of `7` with `ReserveSpace` returns `true`, and a read of the key finds
what happened to stand in the reserved space. -/
theorem put_reserved_lost : ∃ (world : World .ascii) (after : Storage .ascii bytewise),
    History Always .none 0 openedHistory world ∧
    Database.putData 0 0 [1] [7] .reserveSpace ⟨none, [0], [], nofun⟩ ⟨world, fun _ _ => ∅⟩ =
      some (.ok true, after) ∧
    (Reader.get 0 0).result [1] after = some (.ok (true, [0])) ∧
    ¬Promised (Database.putData 0 0 [1] [7] .reserveSpace) (world.handle 0) (world.dbi 0) [1] [7]
      none (⟨world, fun _ _ => ∅⟩ : Storage .ascii bytewise) := by
  obtain ⟨world, history, live, writable⟩ := history_of_replay Always .none 0 openedHistory
    (fun world : World .ascii => world.dbi 0 ≠ 0 ∧ (world.native.canWrite (world.handle 0) &&
      (world.native.dbis.obj (world.dbi 0)).isSome) = true) (by decide +kernel)
  let storage : Storage .ascii bytewise := ⟨world, fun _ _ => ∅⟩
  have carried : ¬storage.Declines (world.handle 0) (world.dbi 0) mdbReserve [1] none := by
    rintro (failed | unwritable | refused)
    · exact failed rfl
    · cases unwritable.symm.trans writable
    · have taken : Content.refuses (∅ : Content bytewise) mdbReserve [1] = false := by
        simp [Content.refuses, hasBit, mdbReserve, mdbNoOverwrite, mdbAppend]
      cases refused.symm.trans taken
  have placed : (Reader.get 0 0).At storage (world.handle 0) (world.dbi 0) := ⟨live, rfl, rfl⟩
  have usable : storage.writable (world.handle 0) (world.dbi 0) = true := writable
  let after := (storage.record .mdbPut [.txn (world.handle 0), .dbi (world.dbi 0)]).withContent
    (world.handle 0) (world.dbi 0)
    ((storage.contents (world.handle 0) (world.dbi 0)).insert [1] [0])
  have ran : Database.putData 0 0 [1] [7] .reserveSpace ⟨none, [0], [], nofun⟩ storage =
      some (.ok true, after) :=
    (Database.putInternal_eq _ 0 live).trans (put_of_carried (by decide) rfl carried)
  have read : (Reader.get 0 0).result [1] after = some (.ok (true, [0])) := by
    rw [result_of_insert usable placed, Content.find_insert_self]
    rfl
  refine ⟨world, after, history, ran, read, fun promised => ?_⟩
  have lost := (promised _ rfl rfl _ _ ran).stored rfl (.get 0 0) placed
  cases read.symm.trans lost

end KdSoftLmdb
