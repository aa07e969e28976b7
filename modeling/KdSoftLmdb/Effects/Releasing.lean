import KdSoftLmdb.Effects.Effect

/-!
# Calls that release a native resource

`mdb_env_close`, `mdb_txn_commit`, `mdb_txn_abort` and `mdb_cursor_close` release
the handle they are given. Every method but those that end a transaction, a
cursor or the environment makes no such call; a begin makes one when it drops
the transaction that it cannot register.
-/

namespace KdSoftLmdb

variable {runtime : Runtime}

/-- The handle that a call of this function with these arguments releases. -/
def LibFunc.releases? (function : LibFunc) (handles : List NativeHandle) : Option NativeHandle :=
  match function with
  | .mdbEnvClose | .mdbTxnCommit | .mdbTxnAbort | .mdbCursorClose => handles.head?
  | _ => none

/-- How often a handle was released. -/
def Native.releases (native : Native) (handle : NativeHandle) : Nat :=
  native.calls.countP fun call => call.function.releases? call.handles = some handle

/-- The counts after one more release. -/
def withRelease (counts : NativeHandle → Nat) (released : NativeHandle) : NativeHandle → Nat :=
  fun handle => counts handle + if handle = released then 1 else 0

/-- Other handles are released as often as before. -/
theorem withRelease_of_ne {counts : NativeHandle → Nat} {released handle : NativeHandle}
    (other : handle ≠ released) : withRelease counts released handle = counts handle :=
  congrArg (counts handle + ·) (if_neg other)

namespace Native

variable (native : Native)

private theorem releases_record (function : LibFunc) (handles : List NativeHandle)
    (handle : NativeHandle) : (native.record function handles).releases handle =
      native.releases handle + if function.releases? handles = some handle then 1 else 0 := by
  simp only [releases, record, List.countP_cons, decide_eq_true_eq]

/-- A call that releases nothing. -/
theorem releases_quiet {function : LibFunc} {handles : List NativeHandle}
    (quiet : function.releases? handles = none) :
    (native.record function handles).releases = native.releases := by
  funext handle
  rw [releases_record, quiet, if_neg nofun, Nat.add_zero]

/-- A call that releases its argument. -/
theorem releases_releasing {function : LibFunc} {argument : NativeHandle}
    (releasing : function.releases? [argument] = some argument) :
    (native.record function [argument]).releases = withRelease native.releases argument := by
  funext handle
  simp only [withRelease, releases_record, releasing, Option.some.injEq, eq_comm]

/-- What was released is read off the calls. -/
theorem releases_congr {after : Native} (same : after.calls = native.calls) :
    after.releases = native.releases := by
  funext handle
  rw [releases, same, releases]

end Native

/-- How often each handle was released. -/
def World.released (world : World runtime) : NativeHandle → Nat := world.native.releases

/-- The body makes no releasing call. -/
abbrev Spares (runtime : Runtime) {α : Type} (body : Call runtime α) : Prop := body.Keeps World.released

section Bodies

open Method

/-- A native function that records one call which releases nothing. -/
theorem released_of_record {world : World runtime} {native : Native} (function : LibFunc)
    (handles : List NativeHandle) (quiet : function.releases? handles = none)
    (recorded : native.calls = (world.native.record function handles).calls) :
    native.releases = world.released :=
  (Native.releases_congr _ recorded).trans (world.native.releases_quiet quiet)

/-- Checking a code releases nothing. -/
theorem spares_checkRetCode (ret : DbRetCode) : Spares runtime (checkRetCode ret) := by
  intro world result after checked
  rw [checkRetCode_after checked]

/-- A native call that is answered by what it was asked for. -/
theorem spares_await {α : Type} {body : Native → Option (α × Native)}
    (quiet : ∀ native value after, body native = some (value, after) →
      after.releases = native.releases) :
    Spares runtime (.await (World.awaitNative body)) := by
  refine keeps_await fun world value after returned => ?_
  obtain ⟨⟨_, native⟩, ran, equal⟩ := Option.map_eq_some_iff.mp returned
  cases equal
  exact quiet _ _ _ ran

/-- The check of a transaction releases nothing. -/
theorem spares_checkTransaction (t : TxnRef) :
    Spares runtime (Transaction.checkDisposed t) := by
  refine .get_bind fun world => ?_
  split
  · exact keeps_throw _
  · exact keeps_pure _

private theorem spares_checkDatabase (d : DbRef) :
    Spares runtime (Database.checkDisposed d) := by
  refine .get_bind fun world => ?_
  dsimp only
  split
  · exact keeps_throw _
  · exact keeps_pure _

private theorem spares_checkCursor (c : CursorRef) :
    Spares runtime (Cursor.checkDisposed c) := by
  refine .get_bind fun world => ?_
  split
  · exact keeps_throw _
  · exact keeps_pure _

/-- The check of the environment releases nothing. -/
theorem spares_checkEnvironment : Spares runtime (LmdbEnvironment.checkDisposed) := by
  refine .get_bind fun world => ?_
  split
  · exact keeps_throw _
  · exact keeps_pure _

private theorem spares_flag {benign : Option DbRetCode} {ret : DbRetCode} :
    Spares runtime (if benign = some ret then pure false
      else do
        checkRetCode ret
        pure true) := by
  split
  · exact keeps_pure _
  · exact (spares_checkRetCode ret).bind fun _ => keeps_pure _

private theorem spares_databaseAccess {function : LibFunc}
    (quiet : ∀ handles, function.releases? handles = none)
    (benign : Option DbRetCode) (d : DbRef) (t : TxnRef) (ret : DbRetCode) :
    Spares runtime (Database.access function benign d t ret) := by
  refine (spares_checkDatabase d).bind fun handle => .get_bind fun world => ?_
  refine (keeps_modify fun state => ?_).bind fun _ => spares_flag
  exact state.native.releases_quiet (quiet _)

private theorem spares_cursorAccess {function : LibFunc}
    (quiet : ∀ handles, function.releases? handles = none)
    (benign : Option DbRetCode) (c : CursorRef) (ret : DbRetCode) :
    Spares runtime (Cursor.access function benign c ret) := by
  refine (spares_checkCursor c).bind fun handle => ?_
  refine (keeps_modify fun state => ?_).bind fun _ => spares_flag
  exact state.native.releases_quiet (quiet _)

end Bodies

section Answers

variable {native after : Native} {txn : IntPtr} {dbi : Nat} {ret code : DbRetCode}

/-- `mdb_txn_begin` makes one call, on the environment and the parent. -/
theorem mdbTxnBegin_calls {env parent : IntPtr} {modes : TransactionModes}
    {value : DbRetCode × IntPtr}
    (returned : native.mdbTxnBegin env parent modes ret = some (value, after)) :
    after.calls = (native.record .mdbTxnBegin [.env env, .txn parent]).calls := by
  unfold Native.mdbTxnBegin at returned
  dsimp only at returned
  split at returned
  · split at returned
    · cases returned
      rfl
    · cases returned
  · cases returned
    rfl

private theorem mdbTxnRenew_calls (returned : native.mdbTxnRenew txn ret = some (code, after)) :
    after.calls = (native.record .mdbTxnRenew [.txn txn]).calls := by
  unfold Native.mdbTxnRenew at returned
  dsimp only at returned
  split at returned
  · split at returned
    · cases returned
      rfl
    · cases returned
  · cases returned
    rfl

/-- `mdb_dbi_open` makes one call, on the transaction. -/
theorem mdbDbiOpen_calls {name : List UInt8} {flags : BitVec 32} {slot : Nat}
    {value : DbRetCode × Nat}
    (returned : native.mdbDbiOpen txn name flags ret slot = some (value, after)) :
    after.calls = (native.record .mdbDbiOpen [.txn txn]).calls := by
  unfold Native.mdbDbiOpen at returned
  dsimp only at returned
  split at returned
  · split at returned
    · split at returned
      · cases returned
        rfl
      · split at returned
        · cases returned
          rfl
        · cases returned
    · cases returned
  · cases returned
    rfl

/-- `mdb_drop` makes one call, on the transaction and the database. -/
theorem mdbDrop_calls {del : Bool} (returned : native.mdbDrop txn dbi del ret = some (code, after)) :
    after.calls = (native.record .mdbDrop [.txn txn, .dbi dbi]).calls := by
  unfold Native.mdbDrop at returned
  dsimp only at returned
  split at returned
  · split at returned
    · split at returned <;> cases returned <;> rfl
    · cases returned
  · cases returned
    rfl

private theorem mdbCursorOpen_calls {value : DbRetCode × IntPtr}
    (returned : native.mdbCursorOpen txn dbi ret = some (value, after)) :
    after.calls = (native.record .mdbCursorOpen [.txn txn, .dbi dbi]).calls := by
  unfold Native.mdbCursorOpen at returned
  dsimp only at returned
  split at returned
  · split at returned
    · cases returned
      rfl
    · cases returned
  · cases returned
    rfl

private theorem mdbCursorRenew_calls {cursor : IntPtr}
    (returned : native.mdbCursorRenew txn cursor ret = some (code, after)) :
    after.calls = (native.record .mdbCursorRenew [.txn txn, .cursor cursor]).calls := by
  unfold Native.mdbCursorRenew at returned
  dsimp only at returned
  split at returned
  · split at returned
    · cases returned
      rfl
    · cases returned
  · cases returned
    rfl

end Answers

section Members

open Method

private theorem spares_getId (t : TxnRef) : Spares runtime (Transaction.getId t) := by
  refine (spares_checkTransaction t).bind fun handle => ?_
  exact keeps_call fun world => world.native.releases_quiet rfl

private theorem spares_environment (t : TxnRef) : Spares runtime (Transaction.environment t) := by
  refine (spares_checkTransaction t).bind fun handle => ?_
  refine (keeps_call fun world => world.native.releases_quiet rfl).bind fun env => ?_
  exact keeps_modify fun world => world.native.releases_quiet rfl

private theorem spares_reset (t : TxnRef) : Spares runtime (ReadOnlyTransaction.reset t) := by
  refine (spares_checkTransaction t).bind fun handle => keeps_modify fun world => ?_
  exact released_of_record .mdbTxnReset [.txn handle] rfl rfl

private theorem spares_renew (t : TxnRef) (answer : DbRetCode) :
    Spares runtime (ReadOnlyTransaction.renew t answer) := by
  refine (spares_checkTransaction t).bind fun handle => ?_
  refine (spares_await fun native value after returned => ?_).bind fun ret => spares_checkRetCode ret
  rw [Native.releases_congr _ (mdbTxnRenew_calls returned), native.releases_quiet rfl]

/-- Setting a comparison function releases nothing. -/
theorem spares_setOrder (function : LibFunc) (quiet : ∀ handles, function.releases? handles = none)
    (change : NativeDbi → NativeDbi) (txn : IntPtr) (dbi : Nat) (ret : DbRetCode) (native : Native) :
    (native.setOrder function change txn dbi ret).2.releases = native.releases := by
  unfold Native.setOrder
  dsimp only
  split <;> exact native.releases_quiet (quiet _)

private theorem spares_register
    {set : Comparer → IntPtr → Nat → DbRetCode → Native → DbRetCode × Native}
    (quiet : ∀ comparer handle dbi ret native,
      (set comparer handle dbi ret native).2.releases = native.releases)
    (holder : CompareHolder) (handle : IntPtr) (dbi : Nat) (env : IntPtr) (answer : DbRetCode) :
    Spares runtime (DatabaseTransaction.register set holder handle dbi env answer) := by
  have checked (ret : DbRetCode) : Spares runtime (if ret ≠ .success then do
      .modify (.onNative (Native.mdbDbiClose env dbi))
      checkRetCode ret
    else checkRetCode ret) := by
    split
    · refine (keeps_modify fun world => ?_).bind fun _ => spares_checkRetCode ret
      exact released_of_record .mdbDbiClose [.env env, .dbi dbi] rfl rfl
    · exact spares_checkRetCode ret
  unfold DatabaseTransaction.register
  dsimp only
  split
  · refine Keeps.bind (keeps_call ?_) checked
    exact fun world => quiet _ _ _ _ world.native
  · exact Keeps.bind (keeps_pure _) checked

private theorem spares_openDatabaseInternal (t : TxnRef) (name : Option String)
    (options : BitVec 32)
    (holder : CompareHolder) (answer : DatabaseTransaction.OpenAnswer) :
    Spares runtime (DatabaseTransaction.openDatabaseInternal t name options holder
      answer) := by
  refine .get_bind fun world => ?_
  cases name with
  | none => exact keeps_throw _
  | some name =>
      dsimp only
      split
      · exact keeps_throw _
      · refine (spares_checkTransaction t).bind fun handle => ?_
        refine (spares_await fun native value after returned => ?_).bind fun opened => ?_
        · rw [Native.releases_congr _ (mdbDbiOpen_calls returned), native.releases_quiet rfl]
        · refine (spares_checkRetCode _).bind fun _ => ?_
          refine (keeps_call fun world => world.native.releases_quiet rfl).bind fun env => ?_
          refine (spares_register ?_ _ _ _ _ _).bind fun _ => keeps_pure _
          exact fun _ => spares_setOrder _ (fun _ => rfl) _

/-- Creating a database object releases nothing. -/
theorem spares_addNew (t : TxnRef) (kind : DatabaseKind) (dbi : Nat) (env : IntPtr)
    (name : String) : Spares runtime (DatabaseTransaction.addNew t kind dbi env name) := by
  refine .get_bind fun world => ?_
  refine Keeps.bind (keeps_modify ?_) fun _ => Keeps.bind (keeps_modify ?_) fun _ => keeps_pure _
  · exact fun _ => rfl
  · exact fun _ => rfl

private theorem spares_openDatabase (t : TxnRef) (name : Option String)
    (config : Option DatabaseConfiguration) (answer : DatabaseTransaction.OpenAnswer) :
    Spares runtime (DatabaseTransaction.openDatabase t name config answer) := by
  cases config with
  | none => exact keeps_throw _
  | some config =>
      exact (spares_openDatabaseInternal _ _ _ _ _).bind fun _ => spares_addNew _ _ _ _ _

private theorem spares_openDuplicates (kind : DatabaseKind) (forced : BitVec 32) (t : TxnRef)
    (name : Option String) (config : Option MultiValueDatabaseConfiguration)
    (answer : DatabaseTransaction.OpenAnswer) :
    Spares runtime (DatabaseTransaction.openDuplicates kind forced t name config
      answer) := by
  cases config with
  | none => exact keeps_throw _
  | some config =>
      refine (spares_openDatabaseInternal _ _ _ _ _).bind fun _ => ?_
      refine (spares_register ?_ _ _ _ _ _).bind fun _ => spares_addNew _ _ _ _ _
      exact fun _ => spares_setOrder _ (fun _ => rfl) _

private theorem spares_drop (d : DbRef) (t : TxnRef) (answer : DbRetCode) :
    Spares runtime (Database.drop d t answer) := by
  refine (spares_checkDatabase d).bind fun handle => .get_bind fun world => ?_
  refine (spares_await fun native value after returned => ?_).bind fun ret => ?_
  · rw [Native.releases_congr _ (mdbDrop_calls returned), native.releases_quiet rfl]
  · refine (spares_checkRetCode ret).bind fun _ => keeps_modify fun world => ?_
    exact congrArg Native.releases (databaseCallback_native _ _)

private theorem spares_disposeDatabase (d : DbRef) :
    Spares runtime (.modify (Database.dispose d)) := by
  refine keeps_modify fun world => ?_
  unfold Database.dispose Database.exchange
  dsimp only
  split
  · refine (congrArg Native.releases (databaseCallback_native _ _)).trans ?_
    exact (Native.releases_congr _ rfl).trans (world.native.releases_quiet rfl)
  · rfl

private theorem spares_truncate (d : DbRef) (t : TxnRef) (answer : DbRetCode) :
    Spares runtime (Database.truncate d t answer) := by
  refine (spares_checkDatabase d).bind fun handle => .get_bind fun world => ?_
  refine (spares_await fun native value after returned => ?_).bind fun ret => spares_checkRetCode ret
  rw [Native.releases_congr _ (mdbDrop_calls returned), native.releases_quiet rfl]

private theorem spares_databaseMember (member : DatabaseMember) (d : DbRef) (t : TxnRef)
    (answer : DbRetCode) : Spares runtime (member.body d t answer) := by
  cases member with
  | truncate => exact (spares_truncate d t answer).bind fun _ => keeps_pure _
  | _ => exact (spares_databaseAccess (fun _ => rfl) _ d t _).bind fun _ => keeps_pure _

private theorem spares_cursorMember (member : CursorMember) (c : CursorRef) (answer : DbRetCode) :
    Spares runtime (member.body c answer) := by
  cases member <;> exact (spares_cursorAccess (fun _ => rfl) _ c _).bind fun _ => keeps_pure _

private theorem spares_openCursor (d : DbRef) (t : TxnRef) (answer : DbRetCode) :
    Spares runtime (Database.openCursor d t answer) := by
  refine Keeps.bind ?_ fun cur => .get_bind fun world => ?_
  · refine (spares_checkDatabase d).bind fun handle => .get_bind fun world => ?_
    refine (spares_await fun native value after returned => ?_).bind fun opened => ?_
    · rw [Native.releases_congr _ (mdbCursorOpen_calls returned), native.releases_quiet rfl]
    · exact (spares_checkRetCode _).bind fun _ => keeps_pure _
  · refine Keeps.bind (keeps_modify ?_) fun _ => Keeps.bind (keeps_modify ?_) fun _ => keeps_pure _
    · exact fun _ => rfl
    · exact fun _ => rfl

private theorem spares_renewCursor (c : CursorRef) (t : TxnRef) (answer : DbRetCode) :
    Spares runtime (Cursor.renew c t answer) := by
  refine .get_bind fun world => ?_
  split
  · exact keeps_throw _
  · refine (spares_checkCursor c).bind fun handle => ?_
    refine (spares_await fun native value after returned => ?_).bind fun ret => spares_checkRetCode ret
    rw [Native.releases_congr _ (mdbCursorRenew_calls returned), native.releases_quiet rfl]

private theorem spares_beginTransactionInternal (modes : TransactionModes) (parent : Option TxnRef)
    (answer : DbRetCode) :
    Spares runtime (LmdbEnvironment.beginTransactionInternal modes parent answer) := by
  refine .get_bind fun world => (spares_checkEnvironment).bind fun handle => ?_
  refine (spares_await fun native value after returned => ?_).bind fun begun => ?_
  · rw [Native.releases_congr _ (mdbTxnBegin_calls returned), native.releases_quiet rfl]
  · refine (spares_checkRetCode _).bind fun _ => ?_
    exact (keeps_call fun world => world.native.releases_quiet rfl).bind fun _ => keeps_pure _

/-- Reading the options releases nothing. -/
theorem spares_getOptions (answer : DbRetCode) :
    Spares runtime (LmdbEnvironment.getOptions answer) := by
  refine (spares_checkEnvironment).bind fun handle => ?_
  refine Keeps.bind (keeps_call fun world => ?_) fun _ => ?_
  · refine released_of_record .mdbEnvGetFlags [.env handle] rfl ?_
    unfold World.callNative Native.mdbEnvGetFlags
    dsimp only
    split <;> rfl
  · exact (spares_checkRetCode _).bind fun _ => keeps_pure _

private theorem spares_beginDatabaseTransaction (modes : TransactionModes) (parent : Option TxnRef)
    (answer : DbRetCode) :
    Spares runtime (LmdbEnvironment.beginDatabaseTransaction modes parent answer) := by
  unfold LmdbEnvironment.beginDatabaseTransaction
  split
  · exact keeps_throw _
  · refine .get_bind fun world => ?_
    split
    · exact keeps_throw _
    · refine (spares_beginTransactionInternal modes parent answer).bind fun begun => ?_
      refine keeps_call ?_
      exact fun _ => rfl

/-- The call may release a handle. -/
def Op.mayRelease : Op → Bool
  | .beginTransaction .. | .beginReadOnlyTransaction .. | .commit .. | .disposeTransaction _
  | .disposeCursor _ | .disposeEnvironment _ => true
  | _ => false

/-- A method that is not among them releases nothing. -/
theorem spares_body (op : Op) (quiet : op.mayRelease = false) :
    Spares runtime op.body := by
  have returns {α : Type} (wrap : α → Returned) {body : Call runtime α}
      (spares : Spares runtime body) : Spares runtime (returning wrap body) :=
    spares.bind fun _ => keeps_pure _
  have voids {body : Call runtime Unit} (spares : Spares runtime body) :
      Spares runtime (void body) := spares.bind fun _ => keeps_pure _
  cases op with
  | beginDatabaseTransaction modes parent answer =>
      exact returns _ (spares_beginDatabaseTransaction modes parent answer)
  | transactionId t => exact returns _ (spares_getId t)
  | transactionEnvironment t => exact voids (spares_environment t)
  | reset t => exact voids (spares_reset t)
  | renew t answer => exact voids (spares_renew t answer)
  | openDatabase t name config answer =>
      exact returns _ (spares_openDatabase t name config answer)
  | openMultiValueDatabase t name config answer =>
      exact returns _ (spares_openDuplicates _ _ t name config answer)
  | openFixedMultiValueDatabase t name config answer =>
      exact returns _ (spares_openDuplicates _ _ t name _ answer)
  | disposeDatabase d => exact voids (spares_disposeDatabase d)
  | drop d t answer => exact voids (spares_drop d t answer)
  | databaseMember member d t answer => exact spares_databaseMember member d t answer
  | databaseEnvironment d =>
      refine voids (keeps_modify fun state => ?_)
      exact state.native.releases_quiet rfl
  | openCursor d t answer => exact returns _ (spares_openCursor d t answer)
  | renewCursor c t answer => exact voids (spares_renewCursor c t answer)
  | cursorMember member c answer => exact spares_cursorMember member c answer
  | beginTransaction | beginReadOnlyTransaction | commit | disposeTransaction | disposeCursor
  | disposeEnvironment => cases quiet

end Members

section Releasing

variable {world after : World runtime}

/-- The end of a transaction releases its handle once. -/
theorem closing_released (world : World runtime) (t : TxnRef) (ending : Ending) :
    (closing t ending world).released = withRelease world.released (.txn (world.handle t)) := by
  let asked := world.native.record .mdbTxnId [.txn (world.handle t)]
  have calls : (closing t ending world).released =
      (asked.record ending.function [.txn (world.handle t)]).releases :=
    Native.releases_congr _ (by rw [closing_native, Ending.native_calls])
  have ends : ending.function.releases? [.txn (world.handle t)] = some (.txn (world.handle t)) := by
    cases ending <;> rfl
  rw [calls, Native.releases_releasing _ ends, world.native.releases_quiet rfl]
  rfl

/-- Disposing a cursor again does nothing. -/
theorem disposeCursor_of_disposed {c : CursorRef} (disposed : world.cur c = 0) :
    Cursor.dispose c world = world := by
  have kept : world.onCursor c Cursor.clearHandle = world := by
    rw [World.onCursor, Heap.modify_eq_self]
    rw [World.cur] at disposed
    cases object : world.cursors.obj c
    simp_all [Cursor.clearHandle]
  unfold Cursor.dispose Cursor.exchange
  dsimp only
  rw [if_neg (not_not_intro disposed), kept]

/-- Disposing a cursor closes it and tells its transaction. -/
theorem disposeCursor_of_live {c : CursorRef} (live : world.cur c ≠ 0) :
    Cursor.dispose c world = Cursor.invokeDisposed c { world with
      cursors := world.cursors.modify c Cursor.clearHandle
      native := world.native.mdbCursorClose (world.cur c) } := by
  unfold Cursor.dispose Cursor.exchange
  dsimp only
  rw [if_pos live]
  rfl

/-- Closing a cursor releases its handle once. -/
theorem disposeCursor_released {c : CursorRef} (live : world.cur c ≠ 0) :
    (Cursor.dispose c world).released = withRelease world.released (.cursor (world.cur c)) := by
  have calls : (Cursor.dispose c world).released =
      (world.native.record .mdbCursorClose [.cursor (world.cur c)]).releases := by
    rw [World.released, disposeCursor_of_live live, cursorCallback_native]
    exact Native.releases_congr _ rfl
  exact calls.trans (world.native.releases_releasing rfl)

/-- `TryAdd` and what follows it release nothing, or the transaction that was not added. -/
theorem tryAdd_released {kind : TransactionKind} {txn txnId : Nat} {parent : Option TxnRef}
    {t : TxnRef} {checkConcurrent : Bool} {result : Except Exception TxnRef}
    (returned : (do
      let added ← .call (LmdbEnvironment.tryAdd txnId t)
      if !added && checkConcurrent then do
        .modify (.onNative (Native.mdbTxnAbort txn))
        .throw (.lmdbText s!"Transaction with same Id {txnId} exists already.")
      else .call (LmdbEnvironment.construct kind txn parent) : Call runtime TxnRef) world =
        some (result, after)) :
    after.released = world.released ∨ (∃ message, result = .error (.lmdbText message)) ∧
      after.released = withRelease world.released (.txn txn) := by
  rw [Method.call_bind] at returned
  split at returned
  · cases returned
    refine .inr ⟨⟨_, rfl⟩, ?_⟩
    exact (Native.releases_congr _ rfl).trans (world.native.releases_releasing rfl)
  · cases returned
    exact .inl rfl

/-- A begin releases nothing, or it drops the transaction that LMDB has just begun. -/
theorem beginTransaction_released {modes : TransactionModes} {parent : Option TxnRef}
    {answer : LmdbEnvironment.BeginAnswer} {result : Except Exception TxnRef}
    (returned : LmdbEnvironment.beginTransaction modes parent answer world =
      some (result, after)) :
    after.released = world.released ∨
    (∃ native, Begins world modes parent native ∧
      after = { world with native := native.mdbTxnAbort world.native.txns.next }) ∧
    after.released = withRelease world.released (.txn world.native.txns.next) := by
  rcases Method.bind_eq_some_iff.mp returned with ⟨_, threw, _⟩ | ⟨value, middle, begun, rest⟩
  · exact .inl (spares_beginTransactionInternal modes parent answer.ret _ _ _ threw)
  have before := spares_beginTransactionInternal modes parent answer.ret _ _ _ begun
  have outcomes := beginTransaction_of_begun begun returned
  rcases beginTransactionInternal_cases begun with ⟨_, _, absurd, _⟩ | ⟨_, _, _, equal, _⟩
  · cases absurd
  cases equal
  -- the question whether a reader may share an id comes before `TryAdd`
  have registers : ∃ state : World runtime, state.released = world.released ∧
      (after.released = state.released ∨ (∃ message, result = .error (.lmdbText message)) ∧
        after.released = withRelease state.released (.txn world.native.txns.next)) := by
    cases readOnly : modes.isReadOnly with
    | false =>
        simp only [readOnly, Bool.false_eq_true, if_false, Method.pure_bind, Method.get_bind] at rest
        exact ⟨middle, before, tryAdd_released rest⟩
    | true =>
        simp only [readOnly, if_true] at rest
        rcases Method.bind_eq_some_iff.mp rest with ⟨_, threw, _⟩ | ⟨_, asked, ran, rest⟩
        · exact ⟨middle, before, .inl (spares_getOptions answer.getFlags _ _ _ threw)⟩
        · have asked := (spares_getOptions answer.getFlags _ _ _ ran).trans before
          simp only [Method.pure_bind, Method.get_bind] at rest
          exact ⟨_, asked, tryAdd_released rest⟩
  obtain ⟨state, same, quiet | ⟨⟨message, threw⟩, count⟩⟩ := registers
  · exact .inl (quiet.trans same)
  · refine .inr ⟨?_, same ▸ count⟩
    obtain ⟨native, _, begins, ⟨_, unflagged, ⟨_, other⟩, _⟩ | ⟨_, _, _, _, equal⟩ |
      ⟨_, _, other, _⟩⟩ := outcomes
    · injection threw.symm.trans other with same
      injection same with code
      exact absurd code.symm unflagged
    · exact ⟨native, begins, equal⟩
    · cases threw.symm.trans other

end Releasing

end KdSoftLmdb
