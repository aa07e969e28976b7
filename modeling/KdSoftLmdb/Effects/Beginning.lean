import KdSoftLmdb.Effects.Recording

/-!
# What beginning a transaction does

All three begin methods go through `BeginTransactionInternal`. `Begins` says
what LMDB's side looks like after it succeeded; the theorems below say how each
method goes on from there.
-/

namespace KdSoftLmdb

variable {runtime : Runtime}

open LmdbEnvironment (BeginAnswer parentHandle)

/-- The modes, the parent and LMDB's answers of a begin that registers its transaction. -/
def Op.begin? : Op → Option (TransactionModes × Option TxnRef × BeginAnswer)
  | .beginTransaction modes parent answer => some (modes, parent, answer)
  | .beginReadOnlyTransaction modes parent answer => some (modes ||| .readOnly, parent, answer)
  | _ => none

/-- The id that a transaction begun now gets. -/
def World.nextId (world : World runtime) (modes : TransactionModes) (parent : Option TxnRef) : Nat :=
  world.native.nextId (parentHandle world parent) modes

/-- LMDB's side after a native begin in `world` that succeeded: one more live
transaction, under the handle `world.native.txns.next`. -/
structure Begins (world : World runtime) (modes : TransactionModes) (parent : Option TxnRef)
    (native : Native) : Prop where
  opened : world.environment.env ≠ 0
  accepted : world.native.canBegin (parentHandle world parent) modes = true
  state : ({ world.native with
    txns := world.native.txns.alloc (world.native.begun (parentHandle world parent) modes) }
      : Native).Unchanged native
  calls : CallsFrom world native

/-- The world after a begin that returned a new transaction object. -/
def World.begun (world : World runtime) (kind : TransactionKind) (parent : Option TxnRef)
    (transactions : Dictionary (id : IntPtr → IntPtr) TxnRef) (native : Native) : World runtime :=
  { world with
    environment := { world.environment with transactions := transactions }
    txns := world.txns.alloc
      ⟨kind, world.native.txns.next, parent, [], [], world.native.txns.next⟩
    native := native }

/-- The transaction objects after a begin. -/
theorem begun_txn (world : World runtime) (kind : TransactionKind) (parent : Option TxnRef)
    (transactions : Dictionary (id : IntPtr → IntPtr) TxnRef) (native : Native) (t : TxnRef) :
    (world.begun kind parent transactions native).txns.obj t =
      if t = world.txns.next then
        ⟨kind, world.native.txns.next, parent, [], [], world.native.txns.next⟩
      else world.txns.obj t := rfl

/-- LMDB's side after a begin. -/
theorem begun_native (world : World runtime) (kind : TransactionKind) (parent : Option TxnRef)
    (transactions : Dictionary (id : IntPtr → IntPtr) TxnRef) (native : Native) :
    (world.begun kind parent transactions native).native = native := rfl

section Begun

variable {world : World runtime} {kind : TransactionKind} {parent : Option TxnRef}
  {transactions : Dictionary (id : IntPtr → IntPtr) TxnRef} {native : Native} {t : TxnRef}

/-- The object that a begin creates. -/
theorem begun_txn_new : (world.begun kind parent transactions native).txns.obj world.txns.next =
    ⟨kind, world.native.txns.next, parent, [], [], world.native.txns.next⟩ := if_pos rfl

/-- Other transaction objects are as they were. -/
theorem begun_txn_of_ne (different : t ≠ world.txns.next) :
    (world.begun kind parent transactions native).txns.obj t = world.txns.obj t := if_neg different

/-- The object that a begin creates has the new handle. -/
theorem begun_handle_new : (world.begun kind parent transactions native).handle world.txns.next =
    world.native.txns.next := congrArg Transaction.txn begun_txn_new

/-- Other transactions keep their handles. -/
theorem begun_handle_of_ne (different : t ≠ world.txns.next) :
    (world.begun kind parent transactions native).handle t = world.handle t :=
  congrArg Transaction.txn (begun_txn_of_ne different)

end Begun

/-- The transaction that LMDB creates for a begin. -/
theorem Begins.txn_new {world : World runtime} {modes : TransactionModes}
    {parent : Option TxnRef} {native : Native} (begins : Begins world modes parent native) :
    native.txns.obj world.native.txns.next =
      world.native.begun (parentHandle world parent) modes := by
  rw [begins.state]
  exact Heap.alloc_obj_next _ _

/-- A begin leaves every earlier native transaction as it is. -/
theorem Begins.txn_of_ne {world : World runtime} {modes : TransactionModes}
    {parent : Option TxnRef} {native : Native} (begins : Begins world modes parent native)
    {txn : IntPtr} (older : txn ≠ world.native.txns.next) :
    native.txns.obj txn = world.native.txns.obj txn := by
  rw [begins.state]
  exact Heap.alloc_obj_of_ne _ _ older

/-- The class of the object that `BeginTransaction` constructs. -/
def kindOf (modes : TransactionModes) : TransactionKind :=
  if modes.isReadOnly then .readOnlyTransaction else .transaction

/-- `BeginTransaction` creates no `DatabaseTransaction`. -/
theorem kindOf_ne (modes : TransactionModes) : kindOf modes ≠ .databaseTransaction := by
  unfold kindOf
  split <;> nofun

/-- The two native calls of `BeginTransactionInternal`. -/
def Native.beginning (env parent : IntPtr) (modes : TransactionModes) (native : Native) : Native :=
  { native.record .mdbTxnBegin [.env env, .txn parent] with
    txns := native.txns.alloc (native.begun parent modes) }.record .mdbTxnId
      [.txn native.txns.next]

private theorem holds_parent {world : World runtime} {parent : Option TxnRef}
    (freed : world.native.freed (.txn (parentHandle world parent)) = true) :
    world.Holds (.txn (parentHandle world parent)) := by
  cases parent with
  | some p => exact ⟨p, rfl⟩
  | none => simp [parentHandle, Native.freed] at freed

private theorem callsFrom_begin (world : World runtime) (parent : Option TxnRef) :
    CallsFrom world (world.native.record .mdbTxnBegin
      [.env world.environment.env, .txn (parentHandle world parent)]) := by
  refine (CallsFrom.refl world).record _ fun handle given freed => ⟨?_, freed⟩
  simp only [List.mem_cons, List.not_mem_nil, or_false] at given
  rcases given with rfl | rfl
  · trivial
  · exact holds_parent freed

/-- An environment that is open passes the check. -/
theorem envCheck_of_open {world : World runtime} (opened : world.environment.env ≠ 0) :
    LmdbEnvironment.checkDisposed world = some (.ok world.environment.env, world) := by
  rw [LmdbEnvironment.checkDisposed, Method.get_bind, if_neg opened, Method.pure_apply]

/-- An environment that was disposed fails the check. -/
theorem envCheck_of_shut {world : World runtime} (shut : world.environment.env = 0) :
    LmdbEnvironment.checkDisposed world =
      some (.error (.objectDisposed "LmdbEnvironment"), world) := by
  rw [LmdbEnvironment.checkDisposed, Method.get_bind, if_pos shut, Method.throw_apply]

/-- The state of LMDB's side that `BeginTransactionInternal` leaves. -/
theorem begins_beginning {world : World runtime} {modes : TransactionModes}
    {parent : Option TxnRef} (opened : world.environment.env ≠ 0)
    (accepted : world.native.canBegin (parentHandle world parent) modes = true) :
    Begins world modes parent
      (world.native.beginning world.environment.env (parentHandle world parent) modes) := by
  refine ⟨opened, accepted, rfl, ?_⟩
  have beginCall : CallsFrom world { world.native.record .mdbTxnBegin
      [.env world.environment.env, .txn (parentHandle world parent)] with
        txns := world.native.txns.alloc
          (world.native.begun (parentHandle world parent) modes) } :=
    (callsFrom_begin world parent).congr rfl
  refine beginCall.record .mdbTxnId ?_
  intro handle given freed
  rw [List.mem_singleton.mp given] at freed
  simp [Native.freed, Native.live, Native.begun] at freed

/-- What `BeginTransactionInternal` does when LMDB begins the transaction. -/
theorem beginTransactionInternal_of_accepted {world : World runtime} {modes : TransactionModes}
    {parent : Option TxnRef} (opened : world.environment.env ≠ 0)
    (accepted : world.native.canBegin (parentHandle world parent) modes = true) :
    LmdbEnvironment.beginTransactionInternal modes parent .success world =
      some (.ok (world.native.txns.next, world.nextId modes parent), { world with
        native := world.native.beginning world.environment.env (parentHandle world parent)
          modes }) := by
  rw [LmdbEnvironment.beginTransactionInternal, Method.get_bind,
    Method.bind_of_ok (envCheck_of_open opened), Method.bind_apply, Method.await_apply]
  simp only [World.awaitNative, Native.mdbTxnBegin, Native.canBegin_record, accepted, if_true,
    Option.map_some]
  rw [Method.bind_of_ok (checkRetCode_success _), Method.call_bind]
  simp [World.callNative, Native.mdbTxnId, Native.begun, World.nextId, Native.nextId,
    Native.beginning]

/-- How `BeginTransactionInternal` ends. -/
theorem beginTransactionInternal_cases {world after : World runtime} {modes : TransactionModes}
    {parent : Option TxnRef} {ret : DbRetCode} {result : Except Exception (IntPtr × Nat)}
    (returned : LmdbEnvironment.beginTransactionInternal modes parent ret world =
      some (result, after)) :
    (∃ exception native, result = .error exception ∧ after = { world with native := native } ∧
      world.native.Unchanged native ∧ CallsFrom world native ∧
      (exception = .objectDisposed "LmdbEnvironment" ∨
        native.calls.length = world.native.calls.length + 1)) ∨
    ∃ native, ret = .success ∧ Begins world modes parent native ∧
      result = .ok (world.native.txns.next, world.nextId modes parent) ∧
      after = { world with native := native } := by
  by_cases shut : world.environment.env = 0
  · rw [LmdbEnvironment.beginTransactionInternal, Method.get_bind,
      Method.bind_of_error (envCheck_of_shut shut)] at returned
    cases returned
    exact .inl ⟨_, world.native, rfl, rfl, .refl _, .refl _, .inl rfl⟩
  by_cases succeeded : ret = .success
  · subst succeeded
    by_cases accepted : world.native.canBegin (parentHandle world parent) modes = true
    · rw [beginTransactionInternal_of_accepted shut accepted] at returned
      cases returned
      exact .inr ⟨_, rfl, begins_beginning shut accepted, rfl, rfl⟩
    · rw [LmdbEnvironment.beginTransactionInternal, Method.get_bind,
        Method.bind_of_ok (envCheck_of_open shut), Method.bind_apply, Method.await_apply]
        at returned
      simp only [World.awaitNative, Native.mdbTxnBegin, Native.canBegin_record, accepted]
        at returned
      cases returned
  · rw [LmdbEnvironment.beginTransactionInternal, Method.get_bind,
      Method.bind_of_ok (envCheck_of_open shut), Method.bind_apply, Method.await_apply] at returned
    simp only [World.awaitNative, Native.mdbTxnBegin, if_neg succeeded, Option.map_some]
      at returned
    obtain ⟨message, threw⟩ := checkRetCode_failed succeeded { world with
      native := world.native.record .mdbTxnBegin
        [.env world.environment.env, .txn (parentHandle world parent)] }
    rw [Method.bind_of_error threw] at returned
    cases returned
    exact .inl ⟨_, _, rfl, rfl, Native.unchanged_record _ _ _, callsFrom_begin world parent,
      .inr rfl⟩

/-- How `BeginTransactionInternal` throws: before LMDB is asked, or with LMDB's code. -/
theorem beginTransactionInternal_threw {world after : World runtime} {modes : TransactionModes}
    {parent : Option TxnRef} {ret : DbRetCode} {exception : Exception}
    (threw : LmdbEnvironment.beginTransactionInternal modes parent ret world =
      some (.error exception, after)) :
    world.environment.env = 0 ∧ after = world ∨
    world.environment.env ≠ 0 ∧ ret ≠ .success ∧ after = { world with
      native := world.native.record .mdbTxnBegin
        [.env world.environment.env, .txn (parentHandle world parent)] } := by
  by_cases shut : world.environment.env = 0
  · rw [LmdbEnvironment.beginTransactionInternal, Method.get_bind,
      Method.bind_of_error (envCheck_of_shut shut)] at threw
    cases threw
    exact .inl ⟨shut, rfl⟩
  refine .inr ⟨shut, ?_⟩
  by_cases succeeded : ret = .success
  · by_cases accepted : world.native.canBegin (parentHandle world parent) modes = true
    · rw [succeeded, beginTransactionInternal_of_accepted shut accepted] at threw
      cases threw
    · rw [LmdbEnvironment.beginTransactionInternal, Method.get_bind,
        Method.bind_of_ok (envCheck_of_open shut), Method.bind_apply, Method.await_apply] at threw
      simp only [World.awaitNative, Native.mdbTxnBegin, Native.canBegin_record, accepted,
        succeeded] at threw
      cases threw
  · rw [LmdbEnvironment.beginTransactionInternal, Method.get_bind,
      Method.bind_of_ok (envCheck_of_open shut), Method.bind_apply, Method.await_apply] at threw
    simp only [World.awaitNative, Native.mdbTxnBegin, if_neg succeeded, Option.map_some] at threw
    obtain ⟨message, failed⟩ := checkRetCode_failed succeeded { world with
      native := world.native.record .mdbTxnBegin
        [.env world.environment.env, .txn (parentHandle world parent)] }
    rw [Method.bind_of_error failed] at threw
    cases threw
    exact ⟨succeeded, rfl⟩

private theorem Begins.record {world : World runtime} {modes : TransactionModes}
    {parent : Option TxnRef}
    {native : Native} (begins : Begins world modes parent native) (function : LibFunc)
    (handles : List NativeHandle) (held : ∀ handle ∈ handles, native.freed handle = false) :
    Begins world modes parent (native.record function handles) where
  opened := begins.opened
  accepted := begins.accepted
  state := begins.state.record function handles
  calls := begins.calls.record function fun handle given freed => by
    simp [held handle given] at freed

/-- What `BeginDatabaseTransaction` is once its two checks passed. -/
theorem beginDatabaseTransaction_eq {world : World runtime} {modes : TransactionModes}
    (parent : Option TxnRef) (answer : DbRetCode) (writable : modes.isReadOnly = false)
    (idle : world.environment.activeDbTxn = none) :
    LmdbEnvironment.beginDatabaseTransaction modes parent answer world =
      (do
        let (txn, _) ← LmdbEnvironment.beginTransactionInternal modes parent answer
        .call (LmdbEnvironment.construct .databaseTransaction txn parent)
          : Call runtime TxnRef) world := by
  simp only [LmdbEnvironment.beginDatabaseTransaction, writable, Bool.false_eq_true, if_false,
    Method.get_bind, idle, Option.isSome_none]

/-- How `BeginDatabaseTransaction` ends. -/
theorem beginDatabaseTransaction_cases {world after : World runtime} {modes : TransactionModes}
    {parent : Option TxnRef} {answer : DbRetCode} {result : Except Exception TxnRef}
    (returned : LmdbEnvironment.beginDatabaseTransaction modes parent answer world =
      some (result, after)) :
    (∃ exception native, result = .error exception ∧ after = { world with native := native } ∧
      world.native.Unchanged native ∧ CallsFrom world native) ∨
    ∃ native, answer = .success ∧ modes.isReadOnly = false ∧
      world.environment.activeDbTxn = none ∧ Begins world modes parent native ∧
      result = .ok world.txns.next ∧
      after = world.begun .databaseTransaction parent world.environment.transactions native := by
  rw [LmdbEnvironment.beginDatabaseTransaction] at returned
  split at returned
  · cases returned
    exact .inl ⟨_, world.native, rfl, rfl, .refl _, .refl _⟩
  · rename_i writable
    rw [Method.get_bind] at returned
    cases active : world.environment.activeDbTxn with
    | some t =>
        simp only [active, Option.isSome_some, if_true] at returned
        cases returned
        exact .inl ⟨_, world.native, rfl, rfl, .refl _, .refl _⟩
    | none =>
        simp only [active, Option.isSome_none, Bool.false_eq_true, if_false] at returned
        rcases Method.bind_eq_some_iff.mp returned with
          ⟨exception, threw, rfl⟩ | ⟨value, middle, begun, constructed⟩
        · rcases beginTransactionInternal_cases threw with
            ⟨_, native, _, rfl, unchanged, calls, _⟩ | ⟨_, _, _, absurd, _⟩
          · exact .inl ⟨exception, native, rfl, rfl, unchanged, calls⟩
          · cases absurd
        · rcases beginTransactionInternal_cases begun with
            ⟨_, _, absurd, _⟩ | ⟨native, succeeded, begins, equal, rfl⟩
          · cases absurd
          · cases equal
            cases constructed
            exact .inr ⟨native, succeeded, by simpa using writable, rfl, begins, rfl, rfl⟩

/-- Readers of an environment without thread-local storage may share an id: the
registry is not asked whether it took the new transaction. -/
def World.mayShareId (world : World runtime) (modes : TransactionModes) : Bool :=
  modes.isReadOnly && world.native.flags.hasFlag .noThreadLocalStorage

/-- How `GetOptions` ends while the environment is open. -/
theorem getOptions_eq (world : World runtime) (opened : world.environment.env ≠ 0)
    (answer : DbRetCode) :
    LmdbEnvironment.getOptions answer world =
      (do
        checkRetCode answer
        pure (if answer = .success then world.native.flags else .none)
          : Call runtime LmdbEnvironmentOptions)
        { world with native := world.native.record .mdbEnvGetFlags [.env world.environment.env] } := by
  rw [LmdbEnvironment.getOptions, Method.bind_of_ok (envCheck_of_open opened), Method.call_bind]
  simp only [World.callNative, Native.mdbEnvGetFlags]
  split <;> rfl

/-- How `TryAdd` and what follows it end, once LMDB's side of the begin is done. -/
theorem tryAdd_cases {world after : World runtime} {parent : Option TxnRef} {native : Native}
    {kind : TransactionKind} {txn txnId : Nat} {checkConcurrent : Bool}
    {result : Except Exception TxnRef}
    (returned : (do
      let added ← .call (LmdbEnvironment.tryAdd txnId world.txns.next)
      if !added && checkConcurrent then do
        .modify (.onNative (Native.mdbTxnAbort txn))
        .throw (.lmdbText s!"Transaction with same Id {txnId} exists already.")
      else .call (LmdbEnvironment.construct kind txn parent) : Call runtime TxnRef)
        { world with native := native } = some (result, after)) :
    (world.environment.transactions.containsKey txnId = true ∧ checkConcurrent = true ∧
      result = .error (.lmdbText s!"Transaction with same Id {txnId} exists already.") ∧
      after = { world with native := native.mdbTxnAbort txn }) ∨
    ((world.environment.transactions.containsKey txnId = true → checkConcurrent = false) ∧
      result = .ok world.txns.next ∧
      after = { world with
        environment := { world.environment with
          transactions := (world.environment.transactions.tryAdd txnId world.txns.next).2 }
        txns := world.txns.alloc ⟨kind, txn, parent, [], [], txn⟩
        native := native }) := by
  rw [Method.call_bind] at returned
  cases taken : world.environment.transactions.containsKey txnId <;> cases checkConcurrent
  case true.true =>
    simp only [LmdbEnvironment.tryAdd, Dictionary.tryAdd_fst, taken, Bool.not_true, Bool.not_false,
      Bool.and_self, if_true, Method.modify_bind, Method.throw_apply,
      Dictionary.tryAdd_of_taken _ taken] at returned
    cases returned
    exact .inl ⟨rfl, rfl, rfl, rfl⟩
  all_goals
    simp only [LmdbEnvironment.tryAdd, Dictionary.tryAdd_fst, taken, Bool.not_true, Bool.not_false,
      Bool.and_false, Bool.and_true, Bool.false_eq_true, if_false,
      Method.call_apply] at returned
    cases returned
    exact .inr ⟨by simp, rfl, rfl⟩

/-- The three ways in which `BeginTransaction` goes on once LMDB has begun the
transaction: the flags of a reader could not be read, which leaves a native
transaction behind that no object holds; the id was taken; or the object is there. -/
def BeginGoesOn (world : World runtime) (modes : TransactionModes) (parent : Option TxnRef)
    (answer : BeginAnswer) (native : Native) (result : Except Exception TxnRef)
    (after : World runtime) : Prop :=
  (modes.isReadOnly = true ∧ answer.getFlags ≠ .success ∧
    (∃ message, result = .error (.lmdb answer.getFlags message)) ∧
    after = { world with native := native }) ∨
  ((modes.isReadOnly = true → answer.getFlags = .success) ∧
    world.environment.transactions.containsKey (world.nextId modes parent) = true ∧
    world.mayShareId modes = false ∧
    (∃ message, result = .error (.lmdbText message)) ∧
    after = { world with native := native.mdbTxnAbort world.native.txns.next }) ∨
  ((modes.isReadOnly = true → answer.getFlags = .success) ∧
    (world.environment.transactions.containsKey (world.nextId modes parent) = true →
      world.mayShareId modes = true) ∧
    result = .ok world.txns.next ∧
    after = world.begun (kindOf modes) parent (world.environment.transactions.tryAdd
      (world.nextId modes parent) world.txns.next).2 native)

/-- How `BeginTransaction` goes on after LMDB has begun a transaction. -/
theorem beginTransaction_of_begun {world middle after : World runtime} {modes : TransactionModes}
    {parent : Option TxnRef} {answer : BeginAnswer} {value : IntPtr × Nat}
    {result : Except Exception TxnRef}
    (begun : LmdbEnvironment.beginTransactionInternal modes parent answer.ret world =
      some (.ok value, middle))
    (returned : LmdbEnvironment.beginTransaction modes parent answer world =
      some (result, after)) :
    ∃ native, answer.ret = .success ∧ Begins world modes parent native ∧
      BeginGoesOn world modes parent answer native result after := by
  unfold BeginGoesOn
  have rest := returned
  rw [LmdbEnvironment.beginTransaction, Method.bind_of_ok begun] at rest
  rcases beginTransactionInternal_cases begun with
    ⟨_, _, absurd, _⟩ | ⟨native, succeeded, begins, equal, rfl⟩
  · cases absurd
  cases equal
  cases readOnly : modes.isReadOnly with
  | false =>
      simp only [readOnly, Bool.false_eq_true, if_false, Method.pure_bind, Method.get_bind] at rest
      refine ⟨native, succeeded, begins, .inr ?_⟩
      rcases tryAdd_cases rest with ⟨taken, _, rfl, rfl⟩ | ⟨free, rfl, rfl⟩
      · exact .inl ⟨by simp, taken, by simp [World.mayShareId, readOnly], ⟨_, rfl⟩, rfl⟩
      · refine .inr ⟨by simp, fun taken => absurd (free taken) (by simp), rfl, ?_⟩
        simp [World.begun, kindOf, readOnly]
  | true =>
      simp only [readOnly, if_true] at rest
      have flags : native.flags = world.native.flags := by rw [begins.state]
      by_cases flagged : answer.getFlags = .success
      · have options : LmdbEnvironment.getOptions answer.getFlags { world with native := native } =
            some (.ok native.flags, { world with
              native := native.record .mdbEnvGetFlags [.env world.environment.env] }) := by
          rw [getOptions_eq { world with native := native } begins.opened, flagged,
            Method.bind_of_ok (checkRetCode_success _)]
          rfl
        have asked := begins.record .mdbEnvGetFlags [.env world.environment.env]
          (by simp [Native.freed])
        rw [Method.bind_of_ok options] at rest
        simp only [Method.pure_bind, Method.get_bind] at rest
        refine ⟨_, succeeded, asked, .inr ?_⟩
        rcases tryAdd_cases rest with ⟨taken, unshared, rfl, rfl⟩ | ⟨free, rfl, rfl⟩
        · exact .inl ⟨fun _ => flagged, taken,
            by simpa [World.mayShareId, readOnly, flags] using unshared, ⟨_, rfl⟩, rfl⟩
        · refine .inr ⟨fun _ => flagged, fun taken => ?_, rfl, ?_⟩
          · simpa [World.mayShareId, readOnly, flags] using free taken
          · simp [World.begun, kindOf, readOnly]
      · have asked := begins.record .mdbEnvGetFlags [.env world.environment.env]
          (by simp [Native.freed])
        obtain ⟨message, threw⟩ := checkRetCode_failed flagged { world with
          native := native.record .mdbEnvGetFlags [.env world.environment.env] }
        have options : LmdbEnvironment.getOptions answer.getFlags { world with native := native } =
            some (.error (.lmdb answer.getFlags message), { world with
              native := native.record .mdbEnvGetFlags [.env world.environment.env] }) := by
          rw [getOptions_eq { world with native := native } begins.opened, Method.bind_of_error threw]
        rw [Method.bind_of_error options] at rest
        cases rest
        exact ⟨_, succeeded, asked, .inl ⟨rfl, flagged, ⟨message, rfl⟩, rfl⟩⟩

/-- How `BeginTransaction` ends. -/
theorem beginTransaction_cases {world after : World runtime} {modes : TransactionModes}
    {parent : Option TxnRef} {answer : BeginAnswer} {result : Except Exception TxnRef}
    (returned : LmdbEnvironment.beginTransaction modes parent answer world =
      some (result, after)) :
    (∃ exception native, result = .error exception ∧ after = { world with native := native } ∧
      world.native.Unchanged native ∧ CallsFrom world native) ∨
    ∃ native, answer.ret = .success ∧ Begins world modes parent native ∧
      BeginGoesOn world modes parent answer native result after := by
  rcases Method.bind_eq_some_iff.mp returned with ⟨exception, threw, rfl⟩ | ⟨_, _, begun, _⟩
  · rcases beginTransactionInternal_cases threw with
      ⟨_, native, _, rfl, unchanged, calls, _⟩ | ⟨_, _, _, absurd, _⟩
    · exact .inl ⟨exception, native, rfl, rfl, unchanged, calls⟩
    · cases absurd
  · exact .inr (beginTransaction_of_begun begun returned)

end KdSoftLmdb
