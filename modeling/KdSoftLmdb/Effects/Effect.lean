import KdSoftLmdb.Effects.Beginning
import KdSoftLmdb.Effects.Members
import KdSoftLmdb.Effects.Opening

/-!
# What a step does

`Effect world op after` lists everything a public call can do to the objects and
to LMDB's side. `effect_of_step` is the one place where all method bodies are
taken apart; invariants are proved by cases on the effect.
-/

namespace KdSoftLmdb

variable {runtime : Runtime}

open LmdbEnvironment (BeginAnswer)
open Transaction (CommitAnswer)

/-- The world after an open that returned a new cursor object. -/
def World.cursorAdded (world : World runtime) (d : DbRef) (t : TxnRef) (native : Native) :
    World runtime :=
  { world with
    cursors := world.cursors.alloc ⟨(world.dbs.obj d).kind, world.native.cursors.next,
      (world.txns.obj t).kind = .readOnlyTransaction, some t⟩
    txns := world.txns.modify t fun transaction =>
      { transaction with cursors := transaction.cursors.insert world.cursors.next }
    native := native }

/-- The transaction that opens a cursor lists it. -/
theorem cursorAdded_txns (world : World runtime) (d : DbRef) (t : TxnRef) (native : Native) :
    (world.cursorAdded d t native).txns = world.txns.modify t fun transaction =>
      { transaction with cursors := transaction.cursors.insert world.cursors.next } := rfl

/-- Everything that one public call can do. -/
inductive Effect (world : World runtime) : Op → World runtime → Prop where
  | recorded {op native} (unchanged : world.native.Unchanged native)
      (calls : CallsFrom world native) : Effect world op { world with native := native }
  | begunDatabase {modes parent native} (valid : validParent world parent = true)
      (writable : modes.isReadOnly = false) (idle : world.environment.activeDbTxn = none)
      (begins : Begins world modes parent native) :
      Effect world (.beginDatabaseTransaction modes parent .success)
        (world.begun .databaseTransaction parent world.environment.transactions native)
  | begun {op modes parent answer native} (begin : op.begin? = some (modes, parent, answer))
      (valid : validParent world parent = true) (accepted : answer.ret = .success)
      (begins : Begins world modes parent native)
      (flagged : modes.isReadOnly = true → answer.getFlags = .success)
      (free : world.environment.transactions.containsKey (world.nextId modes parent) = true →
        world.mayShareId modes = true) :
      Effect world op (world.begun (kindOf modes) parent (world.environment.transactions.tryAdd
        (world.nextId modes parent) world.txns.next).2 native)
  | begunTaken {op modes parent answer native} (begin : op.begin? = some (modes, parent, answer))
      (accepted : answer.ret = .success) (begins : Begins world modes parent native)
      (taken : world.environment.transactions.containsKey (world.nextId modes parent) = true)
      (checked : world.mayShareId modes = false) :
      Effect world op { world with native := native.mdbTxnAbort world.native.txns.next }
  | begunLeaked {op modes parent answer native} (begin : op.begin? = some (modes, parent, answer))
      (accepted : answer.ret = .success) (begins : Begins world modes parent native)
      (readOnly : modes.isReadOnly = true) (unflagged : answer.getFlags ≠ .success) :
      Effect world op { world with native := native }
  | closed {op t ending} (ends : op.ending? = some (t, ending)) (live : world.handle t ≠ 0)
      (plain : ending.fate = .committed → world.isDatabaseTransaction t = false) :
      Effect world op (closing t ending world)
  | promoted {t answer done rest middle} (live : world.handle t ≠ 0)
      (succeeded : answer.ret = .success) (database : world.isDatabaseTransaction t = true)
      (list : (world.txns.obj t).newDatabases = done ++ rest)
      (promoted : Promoted done (closing t (.commit answer) world) middle)
      (taken : ∀ d others, rest = d :: others →
        middle.environment.databases.containsKey (world.dbs.obj d).name = true) :
      Effect world (.commit t answer)
        (if rest = [] then middle.onTxn t fun transaction =>
          { transaction with newDatabases := [] }
        else middle)
  | reader {op t native reset id} (kind : (world.txns.obj t).kind = .readOnlyTransaction)
      (live : world.handle t ≠ 0)
      (state : ({ world.native with txns := world.native.txns.modify (world.handle t) fun old =>
        { old with reset := reset, id := id } } : Native).Unchanged native)
      (changes : op = .reset t ∧ id = world.txnId t ∨
        (∃ answer, op = .renew t answer) ∧ id = world.native.lastTxnId)
      (calls : CallsFrom world native) : Effect world op { world with native := native }
  | opened {op t text kind dbi native} (opens : op.open? = some (t, some text))
      (database : world.isDatabaseTransaction t = true) (live : world.handle t ≠ 0)
      (free : world.environment.databases.containsKey text = false)
      (slot : Opens world (world.handle t) (runtime.marshal text) dbi native) :
      Effect world op (world.added t kind dbi text native)
  | openFailed {op t text dbi native} (opens : op.open? = some (t, some text))
      (free : world.environment.databases.containsKey text = false)
      (slot : OpenFails world (world.handle t) (runtime.marshal text) dbi native)
      (live : world.handle t ≠ 0) : Effect world op { world with native := native }
  | databaseGone {op d native} (gone : op = .disposeDatabase d ∨ ∃ t answer, op = .drop d t answer)
      (live : world.dbi d ≠ 0) (elsewhere : world.native.Elsewhere (world.dbi d) native)
      (shut : native.dbis.obj (world.dbi d) = none) (calls : CallsFrom world native) :
      Effect world op (Database.invokeDisposed d { world with
        dbs := world.dbs.modify d Database.clearHandle
        native := native })
  | cursorOpened {d t native} (known : t < world.txns.next)
      (live : world.native.live (world.handle t) = true)
      (state : ({ world.native with
        cursors := world.native.cursors.alloc ⟨world.handle t, world.dbi d, false⟩ }
          : Native).Unchanged native)
      (calls : CallsFrom world native) :
      Effect world (.openCursor d t .success) (world.cursorAdded d t native)
  | cursorGone {c native} (live : world.cur c ≠ 0)
      (state : ({ world.native with
        cursors := world.native.cursors.modify (world.cur c) fun old => { old with freed := true } }
          : Native).Unchanged native)
      (calls : CallsFrom world native) :
      Effect world (.disposeCursor c) (Cursor.invokeDisposed c { world with
        cursors := world.cursors.modify c Cursor.clearHandle
        native := native })
  | cursorRenewed {c t native} (readOnly : (world.cursors.obj c).isReadOnly = true)
      (live : world.cur c ≠ 0) (reader : world.native.live (world.handle t) = true ∧
        (world.native.txns.obj (world.handle t)).readOnly = true)
      (state : ({ world.native with
        cursors := world.native.cursors.modify (world.cur c) fun old =>
          { old with txn := world.handle t } } : Native).Unchanged native)
      (calls : CallsFrom world native) :
      Effect world (.renewCursor c t .success) { world with native := native }
  | environmentDisposed {order} (perm : order.Perm world.environment.transactions.values) :
      Effect world (.disposeEnvironment order) (LmdbEnvironment.dispose order world)

section Steps

variable {world after : World runtime}

private theorem Effect.quiet {op : Op} (recorded : Recorded world after) :
    Effect world op after := by
  obtain ⟨native, rfl, unchanged, calls⟩ := recorded
  exact .recorded unchanged calls

private theorem effect_of_begin {op : Op} {modes : TransactionModes} {parent : Option TxnRef}
    {answer : BeginAnswer} {result : Except Exception TxnRef}
    (begin : op.begin? = some (modes, parent, answer)) (valid : validParent world parent = true)
    (returned : LmdbEnvironment.beginTransaction modes parent answer world =
      some (result, after)) : Effect world op after := by
  rcases beginTransaction_cases returned with
    ⟨_, native, _, rfl, unchanged, calls⟩ | ⟨native, accepted, begins, outcome⟩
  · exact .recorded unchanged calls
  · rcases outcome with ⟨readOnly, unflagged, _, rfl⟩ | ⟨_, taken, checked, _, rfl⟩ |
      ⟨flagged, free, _, rfl⟩
    · exact .begunLeaked begin accepted begins readOnly unflagged
    · exact .begunTaken begin accepted begins taken checked
    · exact .begun begin valid accepted begins flagged free

/-- Only a `DatabaseTransaction` has the open methods. -/
theorem typed_open {op : Op} {t : TxnRef} {name : Option String}
    (opens : op.open? = some (t, name)) (typed : op.typed world = true) :
    world.isDatabaseTransaction t = true := by
  cases op
  case openDatabase | openMultiValueDatabase | openFixedMultiValueDatabase =>
    cases opens
    simp only [Op.typed, Bool.and_eq_true] at typed
    exact typed.2
  all_goals cases opens

private theorem effect_of_open {op : Op} {t : TxnRef} {name : Option String}
    {result : Except Exception Returned} (opens : op.open? = some (t, name))
    (database : world.isDatabaseTransaction t = true)
    (returned : op.body world = some (result, after)) : Effect world op after := by
  obtain ⟨inner, ends, _⟩ := open_cases opens returned
  rcases ends with ⟨_, native, _, rfl, unchanged, calls⟩ |
    ⟨text, dbi, native, rfl, free, live, outcome⟩
  · exact .recorded unchanged calls
  · rcases outcome with ⟨_, rfl, fails⟩ | ⟨kind, _, rfl, slot⟩
    · exact .openFailed opens free fails live
    · exact .opened opens database live free slot

private theorem effect_of_commit {t : TxnRef} {answer : CommitAnswer}
    {result : Except Exception Unit}
    (returned : Transaction.commit t answer world = some (result, after)) :
    Effect world (.commit t answer) after := by
  cases commit_cases returned with
  | disposed => exact .quiet (.refl world)
  | failed live refused =>
      exact .closed rfl live fun committed => by simp [Ending.fate, refused] at committed
  | plain live succeeded plain => exact .closed rfl live fun _ => plain
  | database live succeeded database list promoted outcome =>
      refine .promoted live succeeded database list promoted fun d others shape => ?_
      rcases outcome with ⟨_, finished⟩ | ⟨_, d', others', _, shape', taken⟩
      · rw [finished] at shape
        cases shape
      · rw [shape'] at shape
        cases shape
        exact taken

private theorem effect_of_reset {t : TxnRef} {result : Except Exception Unit}
    (kind : (world.txns.obj t).kind = .readOnlyTransaction)
    (returned : ReadOnlyTransaction.reset t world = some (result, after)) :
    Effect world (.reset t) after := by
  rw [ReadOnlyTransaction.reset] at returned
  rcases checkDisposed_cases returned with ⟨_, rfl, _⟩ | ⟨live, returned⟩
  · exact .quiet (.refl _)
  · cases returned
    have same : world.native.txns.modify (world.handle t) (fun old =>
        { old with reset := true, id := world.txnId t }) =
        world.native.txns.modify (world.handle t) fun old => { old with reset := true } :=
      Heap.modify_congr rfl
    have state : ({ world.native with txns := world.native.txns.modify (world.handle t) fun old =>
        { old with reset := true, id := world.txnId t } } : Native).Unchanged
        (world.native.mdbTxnReset (world.handle t)) := by
      rw [same]
      rfl
    exact .reader kind live state (.inl ⟨rfl, rfl⟩) ((callsFrom_txn world .mdbTxnReset t).congr rfl)

private theorem effect_of_renew {t : TxnRef} {answer : DbRetCode} {result : Except Exception Unit}
    (kind : (world.txns.obj t).kind = .readOnlyTransaction)
    (returned : ReadOnlyTransaction.renew t answer world = some (result, after)) :
    Effect world (.renew t answer) after := by
  rw [ReadOnlyTransaction.renew] at returned
  rcases checkDisposed_cases returned with ⟨_, rfl, _⟩ | ⟨live, returned⟩
  · exact .quiet (.refl _)
  · rw [Method.bind_apply, Method.await_apply, World.awaitNative] at returned
    have calls := callsFrom_txn world .mdbTxnRenew t
    cases gave : Native.mdbTxnRenew (world.handle t) answer world.native with
    | none => simp [gave] at returned
    | some value =>
        simp only [gave, Option.map_some] at returned
        rw [checkRetCode_after returned]
        unfold Native.mdbTxnRenew at gave
        dsimp only at gave
        split at gave
        · split at gave
          · cases gave
            exact .reader kind live rfl (.inr ⟨⟨answer, rfl⟩, rfl⟩) (calls.congr rfl)
          · cases gave
        · cases gave
          exact .recorded (Native.unchanged_record _ _ _) calls

private theorem effect_of_disposeDatabase (world : World runtime) (d : DbRef) :
    Effect world (.disposeDatabase d) (Database.dispose d world) := by
  unfold Database.dispose Database.exchange
  dsimp only
  by_cases live : world.dbi d = 0
  · rw [if_neg (not_not_intro live)]
    have kept : world.onDb d Database.clearHandle = world := by
      rw [World.onDb, Heap.modify_eq_self]
      rw [World.dbi] at live
      cases object : world.dbs.obj d
      simp_all [Database.clearHandle]
    rw [kept]
    exact .quiet (.refl world)
  · rw [if_pos live]
    have held : ∀ env, ∀ handle ∈ [NativeHandle.env env, .dbi (world.dbi d)],
        world.Holds handle := by
      intro env handle given
      simp only [List.mem_cons, List.not_mem_nil, or_false] at given
      rcases given with rfl | rfl <;> trivial
    exact .databaseGone (.inl rfl) live (world.native.elsewhere_mdbDbiClose _ _)
      (world.native.mdbDbiClose_closed _ _) ((CallsFrom.first .mdbDbiClose (held _)).congr rfl)

private theorem effect_of_drop {d : DbRef} {t : TxnRef} {answer : DbRetCode}
    {result : Except Exception Unit}
    (returned : Database.drop d t answer world = some (result, after)) :
    Effect world (.drop d t answer) after := by
  rw [Database.drop] at returned
  rcases Database.checkDisposed_cases returned with ⟨_, rfl, _⟩ | ⟨live, returned⟩
  · exact .quiet (.refl _)
  · rw [Method.get_bind, Method.bind_apply, Method.await_apply, World.awaitNative] at returned
    have calls : CallsFrom world
        (world.native.record .mdbDrop [.txn (world.handle t), .dbi (world.dbi d)]) :=
      .first _ (holds_pair world t _)
    by_cases accepted : answer = .success
    · subst accepted
      cases gave : Native.mdbDrop (world.handle t) (world.dbi d) true .success world.native with
      | none => simp [gave] at returned
      | some value =>
          obtain ⟨ret, native⟩ := value
          simp only [gave, Option.map_some] at returned
          unfold Native.mdbDrop at gave
          dsimp only at gave
          rw [if_pos rfl] at gave
          split at gave
          · cases gave
            rw [Method.bind_of_ok (checkRetCode_success _)] at returned
            cases returned
            exact .databaseGone (.inr ⟨t, _, rfl⟩) live
              ⟨rfl, Nat.le_refl _, fun _ different => if_neg different⟩ (if_pos rfl)
              (calls.congr rfl)
          · cases gave
    · simp only [Native.mdbDrop, if_neg accepted, Option.map_some] at returned
      obtain ⟨message, threw⟩ := checkRetCode_failed accepted { world with
        native := world.native.record .mdbDrop [.txn (world.handle t), .dbi (world.dbi d)] }
      rw [Method.bind_of_error threw] at returned
      cases returned
      exact .recorded (Native.unchanged_record _ _ _) calls

/-- The world right after `mdb_cursor_open` gave a handle. -/
def World.cursorCreated (world : World runtime) (d : DbRef) (t : TxnRef) : World runtime :=
  { world with
    cursors := world.cursors.alloc ⟨(world.dbs.obj d).kind, world.native.cursors.next,
      (world.txns.obj t).kind = .readOnlyTransaction, none⟩
    native := { world.native.record .mdbCursorOpen [.txn (world.handle t), .dbi (world.dbi d)] with
      cursors := world.native.cursors.alloc ⟨world.handle t, world.dbi d, false⟩ } }

private theorem effect_of_addCursor {d : DbRef} {t : TxnRef} (known : t < world.txns.next)
    (live : world.native.live (world.handle t) = true) :
    Effect world (.openCursor d t .success)
      (Transaction.addCursor t world.cursors.next (world.cursorCreated d t)) := by
  have calls : CallsFrom world
      (world.native.record .mdbCursorOpen [.txn (world.handle t), .dbi (world.dbi d)]) :=
    .first _ (holds_pair world t _)
  simp only [Transaction.addCursor, World.onCursor, World.onTxn, World.cursorCreated,
    Heap.alloc_modify_next]
  exact .cursorOpened known live rfl (calls.congr rfl)

private theorem effect_of_openCursor {d : DbRef} {t : TxnRef} {answer : DbRetCode}
    {result : Except Exception CursorRef} (known : t < world.txns.next)
    (returned : Database.openCursor d t answer world = some (result, after)) :
    Effect world (.openCursor d t answer) after := by
  rw [Database.openCursor, Database.openCursorHandle] at returned
  by_cases live : world.dbi d = 0
  · obtain ⟨name, threw⟩ := Database.checkDisposed_of_disposed live
    rw [Method.bind_of_error (Method.bind_of_error threw)] at returned
    cases returned
    exact .quiet (.refl world)
  · rw [Method.bind_apply, Method.bind_of_ok (Database.checkDisposed_of_live live),
      Method.get_bind, Method.bind_apply, Method.await_apply, World.awaitNative] at returned
    have calls : CallsFrom world
        (world.native.record .mdbCursorOpen [.txn (world.handle t), .dbi (world.dbi d)]) :=
      .first _ (holds_pair world t _)
    by_cases accepted : answer = .success
    · subst accepted
      cases gave : Native.mdbCursorOpen (world.handle t) (world.dbi d) .success world.native with
      | none => simp [gave] at returned
      | some value =>
          obtain ⟨⟨ret, cur⟩, native⟩ := value
          simp only [gave, Option.map_some] at returned
          unfold Native.mdbCursorOpen at gave
          dsimp only at gave
          rw [if_pos rfl] at gave
          split at gave
          · rename_i usable
            cases gave
            rw [Method.bind_of_ok (checkRetCode_success _)] at returned
            cases returned
            have alive : world.native.live (world.handle t) = true := by
              simp only [Bool.and_eq_true] at usable
              exact usable.1
            exact effect_of_addCursor known alive
          · cases gave
    · simp only [Native.mdbCursorOpen, if_neg accepted, Option.map_some] at returned
      obtain ⟨message, threw⟩ := checkRetCode_failed accepted { world with
        native := world.native.record .mdbCursorOpen [.txn (world.handle t), .dbi (world.dbi d)] }
      rw [Method.bind_of_error threw] at returned
      cases returned
      exact .recorded (Native.unchanged_record _ _ _) calls

/-- `Cursor.Dispose` has the effect of its call. -/
theorem effect_of_disposeCursor (world : World runtime) (c : CursorRef) :
    Effect world (.disposeCursor c) (Cursor.dispose c world) := by
  unfold Cursor.dispose Cursor.exchange
  dsimp only
  by_cases live : world.cur c = 0
  · rw [if_neg (not_not_intro live)]
    have kept : world.onCursor c Cursor.clearHandle = world := by
      rw [World.onCursor, Heap.modify_eq_self]
      rw [World.cur] at live
      cases object : world.cursors.obj c
      simp_all [Cursor.clearHandle]
    rw [kept]
    exact .quiet (.refl world)
  · rw [if_pos live]
    exact .cursorGone live rfl ((CallsFrom.first .mdbCursorClose (holds_cursor world c)).congr rfl)

private theorem effect_of_renewCursor {c : CursorRef} {t : TxnRef} {answer : DbRetCode}
    {result : Except Exception Unit}
    (returned : Cursor.renew c t answer world = some (result, after)) :
    Effect world (.renewCursor c t answer) after := by
  rw [Cursor.renew, Method.get_bind] at returned
  cases readOnly : (world.cursors.obj c).isReadOnly with
  | false =>
      simp only [readOnly, Bool.not_false, if_true] at returned
      cases returned
      exact .quiet (.refl world)
  | true =>
      simp only [readOnly, Bool.not_true, Bool.false_eq_true, if_false] at returned
      rcases Cursor.checkDisposed_cases returned with ⟨_, rfl, _⟩ | ⟨live, returned⟩
      · exact .quiet (.refl _)
      rw [Method.bind_apply, Method.await_apply, World.awaitNative] at returned
      have calls : CallsFrom world
          (world.native.record .mdbCursorRenew [.txn (world.handle t), .cursor (world.cur c)]) := by
        refine .first _ fun handle given => ?_
        simp only [List.mem_cons, List.not_mem_nil, or_false] at given
        rcases given with rfl | rfl
        · exact ⟨t, rfl⟩
        · exact ⟨c, rfl⟩
      cases gave : Native.mdbCursorRenew (world.handle t) (world.cur c) answer world.native with
      | none => simp [gave] at returned
      | some value =>
          simp only [gave, Option.map_some] at returned
          rw [checkRetCode_after returned]
          unfold Native.mdbCursorRenew at gave
          dsimp only at gave
          split at gave
          · rename_i accepted
            split at gave
            · rename_i usable
              cases gave
              subst accepted
              exact .cursorRenewed readOnly live (by simpa using usable) rfl (calls.congr rfl)
            · cases gave
          · cases gave
            exact .recorded (Native.unchanged_record _ _ _) calls

/-- The environment disposes its registered transactions, each of them once. -/
theorem disposeEnvironment_cases {order : List TxnRef} {result : Except Exception Returned}
    (returned : (Op.disposeEnvironment order).body world = some (result, after)) :
    order.Perm world.environment.transactions.values ∧ result = .ok .nothing ∧
      after = LmdbEnvironment.dispose order world := by
  rw [Op.body] at returned
  dsimp only at returned
  split at returned
  · rename_i perm
    rw [void, Method.modify_bind, Method.pure_apply] at returned
    cases returned
    exact ⟨perm, rfl, rfl⟩
  · cases returned

/-- A call that returns type-checks and is its body, run to its end. -/
theorem execute_eq_some_iff {op : Op} {result : Except Exception Returned} :
    execute world op = some (result, after) ↔
      op.typed world = true ∧ op.body world = some (result, after) := by
  unfold execute
  cases op.typed world <;> simp

/-- Every step has one of the listed effects. -/
theorem effect_of_step {op : Op} (step : Step world op after) : Effect world op after := by
  obtain ⟨result, executed⟩ := step
  obtain ⟨typed, returned⟩ := execute_eq_some_iff.mp executed
  cases op with
  | beginTransaction modes parent answer =>
      obtain ⟨_, ran, _⟩ := returning_cases returned
      exact effect_of_begin rfl typed ran
  | beginReadOnlyTransaction modes parent answer =>
      obtain ⟨_, ran, _⟩ := returning_cases returned
      exact effect_of_begin rfl typed ran
  | beginDatabaseTransaction modes parent answer =>
      obtain ⟨_, ran, _⟩ := returning_cases returned
      rcases beginDatabaseTransaction_cases ran with
        ⟨_, native, _, rfl, unchanged, calls⟩ | ⟨native, rfl, writable, idle, begins, _, rfl⟩
      · exact .recorded unchanged calls
      · exact .begunDatabase typed writable idle begins
  | commit t answer =>
      obtain ⟨_, ran⟩ := void_cases returned
      exact effect_of_commit ran
  | disposeTransaction t =>
      obtain ⟨_, ran⟩ := void_cases returned
      cases ran
      by_cases live : world.handle t = 0
      · rw [dispose_of_disposed live]
        exact .quiet (.refl world)
      · rw [dispose_of_live live]
        exact .closed rfl live nofun
  | transactionId t =>
      obtain ⟨_, ran, _⟩ := returning_cases returned
      exact .quiet (getId_recorded ran)
  | transactionEnvironment t =>
      obtain ⟨_, ran⟩ := void_cases returned
      exact .quiet (environment_recorded ran)
  | reset t =>
      obtain ⟨_, ran⟩ := void_cases returned
      simp only [Op.typed, Bool.and_eq_true, decide_eq_true_eq] at typed
      exact effect_of_reset typed.2 ran
  | renew t answer =>
      obtain ⟨_, ran⟩ := void_cases returned
      simp only [Op.typed, Bool.and_eq_true, decide_eq_true_eq] at typed
      exact effect_of_renew typed.2 ran
  | openDatabase t name config answer =>
      exact effect_of_open rfl (typed_open rfl typed) returned
  | openMultiValueDatabase t name config answer =>
      exact effect_of_open rfl (typed_open rfl typed) returned
  | openFixedMultiValueDatabase t name config answer =>
      exact effect_of_open rfl (typed_open rfl typed) returned
  | disposeDatabase d =>
      obtain ⟨_, ran⟩ := void_cases returned
      cases ran
      exact effect_of_disposeDatabase world d
  | drop d t answer =>
      obtain ⟨_, ran⟩ := void_cases returned
      exact effect_of_drop ran
  | databaseMember member d t answer => exact .quiet (databaseMember_recorded returned)
  | databaseEnvironment d =>
      obtain ⟨_, ran⟩ := void_cases returned
      cases ran
      refine .quiet (.call world .mdbEnvGetUserctx fun handle given => ?_)
      rw [List.mem_singleton.mp given]
      trivial
  | openCursor d t answer =>
      obtain ⟨_, ran, _⟩ := returning_cases returned
      simp only [Op.typed, Bool.and_eq_true, decide_eq_true_eq] at typed
      exact effect_of_openCursor typed.2 ran
  | disposeCursor c =>
      obtain ⟨_, ran⟩ := void_cases returned
      cases ran
      exact effect_of_disposeCursor world c
  | renewCursor c t answer =>
      obtain ⟨_, ran⟩ := void_cases returned
      exact effect_of_renewCursor ran
  | cursorMember member c answer => exact .quiet (cursorMember_recorded returned)
  | disposeEnvironment order =>
      obtain ⟨perm, _, rfl⟩ := disposeEnvironment_cases returned
      exact .environmentDisposed perm

end Steps

end KdSoftLmdb
