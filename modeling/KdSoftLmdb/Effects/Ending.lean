import KdSoftLmdb.Calls

/-!
# What the end of a transaction does

`Commit` and `Dispose` take the same path through the native end, the release of
managed resources and the callback; they differ in the native function, in the
flag passed to `ReleaseManagedResources` and in what follows the callback.
`closing` is that common path. Its projections are the only facts about it that
later modules use.
-/

namespace KdSoftLmdb

variable {runtime : Runtime}

open Transaction (CommitAnswer)

/-- The two ways to end a transaction. -/
inductive Ending where
  | abort
  | commit (answer : CommitAnswer)

namespace Ending

/-- What becomes of the native transaction: a failed commit aborts it. -/
def fate : Ending → Fate
  | abort => .aborted
  | commit answer => if answer.ret = .success then .committed else .aborted

/-- The argument of `ReleaseManagedResources`. -/
def forCommit : Ending → Bool
  | abort => false
  | commit _ => true

/-- The native function that is called. -/
def function : Ending → LibFunc
  | abort => .mdbTxnAbort
  | commit _ => .mdbTxnCommit

/-- The native call. -/
def native (ending : Ending) (handle : IntPtr) : Native → Native :=
  match ending with
  | abort => Native.mdbTxnAbort handle
  | commit answer => Native.mdbTxnCommit handle answer.ret answer.wrote

section Native

variable (ending : Ending) (handle : IntPtr) (native : KdSoftLmdb.Native)

@[simp] theorem native_txns :
    (ending.native handle native).txns = native.txns.map (native.endOf handle ending.fate) := by
  cases ending with
  | abort => rfl
  | commit answer =>
      simp only [Ending.native, Native.mdbTxnCommit, fate]
      split <;> rfl

@[simp] theorem native_cursors :
    (ending.native handle native).cursors = native.freeCursors handle := by
  cases ending with
  | abort => rfl
  | commit answer =>
      simp only [Ending.native, Native.mdbTxnCommit]
      split <;> rfl

@[simp] theorem native_dbis :
    (ending.native handle native).dbis = native.settleDbis handle ending.fate := by
  cases ending with
  | abort => rfl
  | commit answer =>
      simp only [Ending.native, Native.mdbTxnCommit, fate]
      split <;> rfl

@[simp] theorem native_flags : (ending.native handle native).flags = native.flags := by
  cases ending with
  | abort => rfl
  | commit answer =>
      simp only [Ending.native, Native.mdbTxnCommit]
      split <;> rfl

@[simp] theorem native_closed : (ending.native handle native).closed = native.closed := by
  cases ending with
  | abort => rfl
  | commit answer =>
      simp only [Ending.native, Native.mdbTxnCommit]
      split <;> rfl

@[simp] theorem native_calls :
    (ending.native handle native).calls = (native.record ending.function [.txn handle]).calls := by
  cases ending with
  | abort => rfl
  | commit answer =>
      simp only [Ending.native, Native.mdbTxnCommit]
      split <;> rfl

end Native

end Ending

/-- The transaction and the way in which a call ends it. -/
def Op.ending? : Op → Option (TxnRef × Ending)
  | .commit t answer => some (t, .commit answer)
  | .disposeTransaction t => some (t, .abort)
  | _ => none

/-- The path that `Commit` and `Dispose` share once the handle was exchanged. -/
def closing (t : TxnRef) (ending : Ending) (world : World runtime) : World runtime :=
  let handle := world.handle t
  let world := (Transaction.exchange t world).2
  let (txnId, world) := world.callNative (Native.mdbTxnId handle)
  Transaction.invokeDisposed t txnId
    (Transaction.releaseManagedResources t ending.forCommit
      (world.onNative (ending.native handle)))

/-- The native id that the callback receives. -/
def World.txnId (world : World runtime) (t : TxnRef) : Nat :=
  (world.native.txns.obj (world.handle t)).id

/-- The transaction is a `DatabaseTransaction`. -/
def World.isDatabaseTransaction (world : World runtime) (t : TxnRef) : Bool :=
  (world.txns.obj t).kind = .databaseTransaction

/-- The new databases that the end of a transaction marks as closed. -/
def discarded (world : World runtime) (t : TxnRef) (ending : Ending) : List DbRef :=
  if world.isDatabaseTransaction t && !ending.forCommit then (world.txns.obj t).newDatabases
  else []

/-- Clearing the handle of a database again changes nothing. -/
theorem Database.clearHandle_idempotent (database : Database) :
    database.clearHandle.clearHandle = database.clearHandle := rfl

/-- A cursor that the end of its write transaction closes. -/
def Cursor.release (cursor : Cursor) : Cursor :=
  if cursor.isReadOnly then cursor else cursor.clearHandle

private theorem Cursor.release_idempotent (cursor : Cursor) :
    cursor.release.release = cursor.release := by
  by_cases readOnly : cursor.isReadOnly = true <;> simp [release, readOnly, clearHandle]

/-- What the release of its resources leaves of a transaction object. -/
def Transaction.released (forCommit : Bool) (transaction : Transaction) : Transaction :=
  { transaction with
    cursors := []
    newDatabases :=
      if transaction.kind = .databaseTransaction ∧ forCommit = false then []
      else transaction.newDatabases }

/-- What is left of a transaction object after `closing`. -/
def Transaction.closed (ending : Ending) (transaction : Transaction) : Transaction :=
  { transaction.released ending.forCommit with txn := 0 }

section Release

variable (t : TxnRef) (forCommit : Bool) (world : World runtime)

/-- What the release leaves, component by component. -/
theorem releaseManagedResources_eq : Transaction.releaseManagedResources t forCommit world =
    { world with
      txns := world.txns.modify t (Transaction.released forCommit)
      dbs := world.dbs.modifyAll
        (if world.isDatabaseTransaction t && !forCommit then (world.txns.obj t).newDatabases
          else []) Database.clearHandle
      cursors := world.cursors.modifyAll (world.txns.obj t).cursors Cursor.release } := by
  have release : Cursor.release = fun cursor : Cursor =>
      if cursor.isReadOnly then cursor else cursor.clearHandle := rfl
  unfold Transaction.releaseManagedResources DatabaseTransaction.releaseManagedResources
    Transaction.releaseCursors
  cases kind : (world.txns.obj t).kind
  case databaseTransaction =>
    cases forCommit
    all_goals simp [World.isDatabaseTransaction, kind, release]
    all_goals exact Heap.modify_congr (by simp [Transaction.released, kind])
  all_goals simp only [World.isDatabaseTransaction, kind, release]
  all_goals simp
  all_goals exact Heap.modify_congr (by simp [Transaction.released, kind])

end Release

section Closing

variable (world : World runtime) (t : TxnRef) (ending : Ending)

/-- The native id is read through the handle before the transaction ends. -/
theorem closing_unfold : closing t ending world =
    Transaction.invokeDisposed t (world.txnId t)
      (Transaction.releaseManagedResources t ending.forCommit
        { (Transaction.exchange t world).2 with
          native := ending.native (world.handle t)
            (world.native.record .mdbTxnId [.txn (world.handle t)]) }) := rfl

/-- `closing`, component by component. -/
theorem closing_eq : closing t ending world =
    { environment :=
        if world.isDatabaseTransaction t then { world.environment with activeDbTxn := none }
        else { world.environment with
          transactions := world.environment.transactions.remove (world.txnId t) }
      txns := world.txns.modify t (Transaction.closed ending)
      dbs := world.dbs.modifyAll (discarded world t ending) Database.clearHandle
      cursors := world.cursors.modifyAll (world.txns.obj t).cursors Cursor.release
      native := ending.native (world.handle t)
        (world.native.record .mdbTxnId [.txn (world.handle t)]) } := by
  rw [closing_unfold, releaseManagedResources_eq]
  unfold Transaction.invokeDisposed
  cases kind : (world.txns.obj t).kind
  all_goals simp [Transaction.exchange, World.onTxn, World.isDatabaseTransaction, kind, discarded,
    Transaction.released, LmdbEnvironment.databaseTransactionClosed,
    LmdbEnvironment.transactionDisposed, World.onEnvironment]
  all_goals rfl

@[simp] theorem closing_native :
    (closing t ending world).native = ending.native (world.handle t)
      (world.native.record .mdbTxnId [.txn (world.handle t)]) := by
  rw [closing_eq]

@[simp] theorem closing_txns :
    (closing t ending world).txns = world.txns.modify t (Transaction.closed ending) := by
  rw [closing_eq]

@[simp] theorem closing_dbs : (closing t ending world).dbs =
    world.dbs.modifyAll (discarded world t ending) Database.clearHandle := by
  rw [closing_eq]

@[simp] theorem closing_cursors : (closing t ending world).cursors =
    world.cursors.modifyAll (world.txns.obj t).cursors Cursor.release := by
  rw [closing_eq]

@[simp] theorem closing_environment : (closing t ending world).environment =
    if world.isDatabaseTransaction t then { world.environment with activeDbTxn := none }
    else { world.environment with
      transactions := world.environment.transactions.remove (world.txnId t) } := by
  rw [closing_eq]

/-- Only the transaction that ends loses its handle. -/
theorem closing_handle (u : TxnRef) :
    (closing t ending world).handle u = if u = t then 0 else world.handle u := by
  rw [World.handle, closing_txns, Heap.modify_obj]
  split <;> rfl

/-- Who has a handle after the end of `t` is another transaction and had it before. -/
theorem survives_of_handle {world after : World runtime} {t u : TxnRef}
    (ends : ∀ u, after.handle u = if u = t then 0 else world.handle u)
    (alive : after.handle u ≠ 0) : u ≠ t ∧ world.handle u ≠ 0 := by
  rw [ends] at alive
  split at alive
  · exact (alive rfl).elim
  · exact ⟨‹_›, alive⟩

/-- Other transaction objects are as they were. -/
theorem closing_txn_of_ne {u : TxnRef} (other : u ≠ t) :
    (closing t ending world).txns.obj u = world.txns.obj u := by
  rw [closing_txns, Heap.modify_obj_of_ne _ _ other]

/-- No transaction changes its kind. -/
theorem closing_isDatabaseTransaction (u : TxnRef) :
    (closing t ending world).isDatabaseTransaction u = world.isDatabaseTransaction u := by
  rw [World.isDatabaseTransaction, closing_txns, Heap.modify_obj]
  split <;> rfl

/-- What is left of the transaction that ends. -/
theorem closing_txn_self :
    (closing t ending world).txns.obj t = (world.txns.obj t).closed ending := by
  rw [closing_txns, Heap.modify_obj_self]

/-- Of the databases, those that are discarded lose their handle. -/
theorem closing_db (d : DbRef) : (closing t ending world).dbs.obj d =
    if d ∈ discarded world t ending then (world.dbs.obj d).clearHandle
    else world.dbs.obj d := by
  rw [closing_dbs, Heap.modifyAll_obj _ _ Database.clearHandle_idempotent]

/-- Of the cursors, those of the transaction are released. -/
theorem closing_cursor (c : CursorRef) : (closing t ending world).cursors.obj c =
    if c ∈ (world.txns.obj t).cursors then (world.cursors.obj c).release
    else world.cursors.obj c := by
  rw [closing_cursors, Heap.modifyAll_obj _ _ Cursor.release_idempotent]

end Closing

section Dispose

variable {world : World runtime} {t : TxnRef}

/-- A second `Dispose` does nothing. -/
theorem dispose_of_disposed (disposed : world.handle t = 0) :
    Transaction.dispose t world = world := by
  have kept : (Transaction.exchange t world).2 = world := by
    rw [Transaction.exchange, World.onTxn, Heap.modify_eq_self]
    rw [World.handle] at disposed
    cases object : world.txns.obj t
    simp_all
  rw [Transaction.dispose, Transaction.exchange, disposed]
  exact kept

/-- `Dispose` of a transaction that has its handle ends it. -/
theorem dispose_of_live (live : world.handle t ≠ 0) :
    Transaction.dispose t world = closing t .abort world := by
  unfold Transaction.dispose Transaction.exchange
  dsimp only
  rw [if_pos live]
  rfl

/-- A transaction that has its handle passes the check. -/
theorem checkDisposed_of_live (live : world.handle t ≠ 0) :
    Transaction.checkDisposed t world = some (.ok (world.handle t), world) := by
  rw [Transaction.checkDisposed, Method.get_bind, if_neg live, Method.pure_apply]

/-- A transaction without its handle fails the check. -/
theorem checkDisposed_of_disposed (disposed : world.handle t = 0) :
    Transaction.checkDisposed t world =
      some (.error (.objectDisposed (world.txns.obj t).kind.typeName), world) := by
  rw [Transaction.checkDisposed, Method.get_bind, if_pos disposed, Method.throw_apply]

/-- What follows the check runs on an undisposed transaction only. -/
theorem checkDisposed_cases {α : Type} {next : IntPtr → Call runtime α} {result : Except Exception α}
    {after : World runtime}
    (returned : (Transaction.checkDisposed t >>= next) world = some (result, after)) :
    world.handle t = 0 ∧ after = world ∧ (∃ name, result = .error (.objectDisposed name)) ∨
      world.handle t ≠ 0 ∧ next (world.handle t) world = some (result, after) := by
  by_cases disposed : world.handle t = 0
  · rw [Method.bind_of_error (checkDisposed_of_disposed disposed)] at returned
    cases returned
    exact .inl ⟨disposed, rfl, _, rfl⟩
  · rw [Method.bind_of_ok (checkDisposed_of_live disposed)] at returned
    exact .inr ⟨disposed, returned⟩

/-- `Commit` of a transaction without its handle throws. -/
theorem commit_of_disposed (answer : CommitAnswer) (disposed : world.handle t = 0) :
    Transaction.commit t answer world =
      some (.error (.objectDisposed (world.txns.obj t).kind.typeName), world) := by
  rw [Transaction.commit, Method.bind_of_error (checkDisposed_of_disposed disposed)]

/-- Commit checks the code after everything was released, and only then promotes. -/
theorem commit_of_live (answer : CommitAnswer) (live : world.handle t ≠ 0) :
    Transaction.commit t answer world =
      (do
        checkRetCode answer.ret
        Transaction.committed t : Call runtime Unit) (closing t (.commit answer) world) := by
  rw [Transaction.commit, Method.bind_of_ok (checkDisposed_of_live live), Method.call_bind]
  unfold Transaction.exchange
  dsimp only
  rw [if_pos live]
  rfl

/-- A commit that LMDB refuses ends the transaction all the same, and throws. -/
theorem commit_of_failed {answer : CommitAnswer} (live : world.handle t ≠ 0)
    (failed : answer.ret ≠ .success) :
    ∃ message, Transaction.commit t answer world =
      some (.error (.lmdb answer.ret message), closing t (.commit answer) world) := by
  obtain ⟨message, threw⟩ := checkRetCode_failed failed (closing t (.commit answer) world)
  exact ⟨message, by rw [commit_of_live answer live, Method.bind_of_error threw]⟩

private theorem commit_of_success {answer : CommitAnswer} (live : world.handle t ≠ 0)
    (succeeded : answer.ret = .success) :
    Transaction.commit t answer world =
      Transaction.committed t (closing t (.commit answer) world) := by
  rw [commit_of_live answer live, succeeded]
  exact Method.bind_of_ok (checkRetCode_success _)

end Dispose

section Promotion

/-- A database that now belongs to the environment. -/
def Database.promoted (database : Database) : Database :=
  { database with disposed := .databaseDisposed }

/-- The entries that the promotion of a list of databases adds to the registry. -/
def entriesOf (world : World runtime) (done : List DbRef) : List (String × DbRef) :=
  done.map fun d => ((world.dbs.obj d).name, d)

/-- The databases in `done` were promoted, in this order, and nothing else changed. -/
def Promoted (done : List DbRef) (world after : World runtime) : Prop :=
  ∃ databases : Dictionary runtime.ordinalIgnoreCase DbRef,
    databases.entries = world.environment.databases.entries ++ entriesOf world done ∧
    after = { world with
      environment := { world.environment with databases := databases }
      dbs := world.dbs.modifyAll done Database.promoted }

/-- Promoting a database again changes nothing. -/
theorem Database.promoted_idempotent (database : Database) :
    database.promoted.promoted = database.promoted := rfl

private theorem promote_of_taken {world : World runtime} {d : DbRef}
    (taken : world.environment.databases.containsKey (world.dbs.obj d).name = true) :
    ∃ message, DatabaseTransaction.promote d world = some (.error (.argument message), world) := by
  simp only [DatabaseTransaction.promote, Method.get_bind]
  rw [Dictionary.add?_eq_none_iff.mpr taken]
  exact ⟨_, rfl⟩

private theorem promote_of_free {world : World runtime} {d : DbRef}
    (free : world.environment.databases.containsKey (world.dbs.obj d).name = false) :
    ∃ after, DatabaseTransaction.promote d world = some (.ok (), after) ∧
      Promoted [d] world after := by
  simp only [DatabaseTransaction.promote, Method.get_bind]
  cases added : world.environment.databases.add? (world.dbs.obj d).name d with
  | none => simp [Dictionary.add?_eq_none_iff.mp added] at free
  | some databases =>
      exact ⟨_, rfl, databases, (Dictionary.add?_entries added).2, rfl⟩

/-- The names of databases do not change while databases are promoted. -/
theorem Promoted.name {done : List DbRef} {world after : World runtime}
    (promoted : Promoted done world after) (d : DbRef) :
    (after.dbs.obj d).name = (world.dbs.obj d).name := by
  obtain ⟨_, _, rfl⟩ := promoted
  rw [Heap.modifyAll_obj _ _ Database.promoted_idempotent]
  split <;> rfl

private theorem Promoted.trans {first second : List DbRef} {world middle after : World runtime}
    (before : Promoted first world middle) (later : Promoted second middle after) :
    Promoted (first ++ second) world after := by
  have names := before.name
  obtain ⟨_, added, rfl⟩ := before
  obtain ⟨databases, addedLater, rfl⟩ := later
  refine ⟨databases, ?_, ?_⟩
  · have same : entriesOf _ second = entriesOf world second :=
      List.map_congr_left fun d _ => by rw [names d]
    rw [addedLater, same]
    simp [added, entriesOf]
  · simp [Heap.modifyAll, List.foldl_append]

/-- The promotion loop handles a prefix of the list: all of it, or up to the
first name that is taken by then. -/
theorem forEach_promote (list : List DbRef) (world : World runtime) :
    ∃ result after done rest, Method.forEach list DatabaseTransaction.promote world =
        some (result, after) ∧ list = done ++ rest ∧ Promoted done world after ∧
      (result = .ok () ∧ rest = [] ∨ ∃ message d others, result = .error (.argument message) ∧
        rest = d :: others ∧
        after.environment.databases.containsKey (world.dbs.obj d).name = true) := by
  induction list generalizing world with
  | nil =>
      refine ⟨.ok (), world, [], [], rfl, rfl, ?_, .inl ⟨rfl, rfl⟩⟩
      exact ⟨world.environment.databases, by simp [entriesOf], rfl⟩
  | cons d others ih =>
      rw [Method.forEach]
      cases taken : world.environment.databases.containsKey (world.dbs.obj d).name with
      | true =>
          obtain ⟨message, threw⟩ := promote_of_taken taken
          refine ⟨_, world, [], d :: others, Method.bind_of_error threw, rfl,
            ⟨world.environment.databases, by simp [entriesOf], rfl⟩, .inr ?_⟩
          exact ⟨message, d, others, rfl, rfl, taken⟩
      | false =>
          obtain ⟨middle, returned, first⟩ := promote_of_free taken
          obtain ⟨result, after, done, rest, ran, split, promoted, outcome⟩ := ih middle
          refine ⟨result, after, d :: done, rest, ?_, by rw [split]; rfl, first.trans promoted, ?_⟩
          · rw [Method.bind_of_ok returned, ran]
          · rcases outcome with finished | ⟨message, d', others', threw, rest', taken'⟩
            · exact .inl finished
            · exact .inr ⟨message, d', others', threw, rest', first.name d' ▸ taken'⟩

variable {world : World runtime} {t : TxnRef} {answer : CommitAnswer}

/-- `Committed` promotes the new databases in order and forgets the list when all
of them went into the registry. -/
theorem databaseCommitted_cases (t : TxnRef) (world : World runtime) :
    ∃ result done rest middle,
      (world.txns.obj t).newDatabases = done ++ rest ∧ Promoted done world middle ∧
      DatabaseTransaction.committed t world = some (result,
        if rest = [] then middle.onTxn t fun transaction =>
          { transaction with newDatabases := [] }
        else middle) ∧
      (result = .ok () ∧ rest = [] ∨ ∃ message d others, result = .error (.argument message) ∧
        rest = d :: others ∧
        middle.environment.databases.containsKey (world.dbs.obj d).name = true) := by
  obtain ⟨result, middle, done, rest, ran, split, promoted, outcome⟩ :=
    forEach_promote (world.txns.obj t).newDatabases world
  refine ⟨result, done, rest, middle, split, promoted, ?_, outcome⟩
  rw [DatabaseTransaction.committed, Method.get_bind]
  rcases outcome with ⟨rfl, rfl⟩ | ⟨message, d, others, rfl, rfl, _⟩
  · rw [Method.bind_of_ok ran, if_pos rfl, Method.modify_apply]
  · rw [Method.bind_of_error ran, if_neg (List.cons_ne_nil _ _)]

/-- How `Committed` ends for a transaction of any class. -/
theorem committed_cases (t : TxnRef) (world : World runtime) :
    world.isDatabaseTransaction t = false ∧
        Transaction.committed t world = some (.ok (), world) ∨
      world.isDatabaseTransaction t = true ∧
        Transaction.committed t world = DatabaseTransaction.committed t world := by
  rw [Transaction.committed, Method.get_bind, World.isDatabaseTransaction]
  cases (world.txns.obj t).kind
  · exact .inl ⟨rfl, rfl⟩
  · exact .inl ⟨rfl, rfl⟩
  · exact .inr ⟨rfl, rfl⟩

/-- A successful commit of a transaction without databases of its own is done. -/
theorem commit_of_plain (live : world.handle t ≠ 0) (succeeded : answer.ret = .success)
    (plain : world.isDatabaseTransaction t = false) :
    Transaction.commit t answer world = some (.ok (), closing t (.commit answer) world) := by
  rw [commit_of_success live succeeded]
  rcases committed_cases t (closing t (.commit answer) world) with ⟨_, returned⟩ | ⟨database, _⟩
  · exact returned
  · rw [closing_isDatabaseTransaction, plain] at database
    cases database

/-- A successful commit of a database transaction ends with the promotion. -/
theorem commit_of_database (live : world.handle t ≠ 0) (succeeded : answer.ret = .success)
    (database : world.isDatabaseTransaction t = true) :
    ∃ result done rest middle,
      (world.txns.obj t).newDatabases = done ++ rest ∧
      Promoted done (closing t (.commit answer) world) middle ∧
      Transaction.commit t answer world = some (result,
        if rest = [] then middle.onTxn t fun transaction =>
          { transaction with newDatabases := [] }
        else middle) ∧
      (result = .ok () ∧ rest = [] ∨ ∃ message d others, result = .error (.argument message) ∧
        rest = d :: others ∧
        middle.environment.databases.containsKey (world.dbs.obj d).name = true) := by
  have list : ((closing t (.commit answer) world).txns.obj t).newDatabases =
      (world.txns.obj t).newDatabases := by
    simp [Transaction.closed, Transaction.released, Ending.forCommit]
  have names (d : DbRef) : ((closing t (.commit answer) world).dbs.obj d).name =
      (world.dbs.obj d).name := by
    rw [closing_db]
    split <;> rfl
  obtain ⟨result, done, rest, middle, split, promoted, ran, outcome⟩ :=
    databaseCommitted_cases t (closing t (.commit answer) world)
  refine ⟨result, done, rest, middle, list ▸ split, promoted, ?_, ?_⟩
  · rw [commit_of_success live succeeded]
    rcases committed_cases t (closing t (.commit answer) world) with ⟨plain, _⟩ | ⟨_, same⟩
    · rw [closing_isDatabaseTransaction, database] at plain
      cases plain
    · exact same.trans ran
  · rcases outcome with finished | ⟨message, d, others, threw, rest', taken⟩
    · exact .inl finished
    · exact .inr ⟨message, d, others, threw, rest', names d ▸ taken⟩

/-- The ways a commit ends. -/
inductive CommitEnds (t : TxnRef) (answer : CommitAnswer) (world : World runtime) :
    Except Exception Unit → World runtime → Prop where
  | disposed {name : String} (gone : world.handle t = 0) :
      CommitEnds t answer world (.error (.objectDisposed name)) world
  | failed {message : String} (live : world.handle t ≠ 0) (refused : answer.ret ≠ .success) :
      CommitEnds t answer world (.error (.lmdb answer.ret message))
        (closing t (.commit answer) world)
  | plain (live : world.handle t ≠ 0) (succeeded : answer.ret = .success)
      (kind : world.isDatabaseTransaction t = false) :
      CommitEnds t answer world (.ok ()) (closing t (.commit answer) world)
  | database {result : Except Exception Unit} {done rest : List DbRef} {middle : World runtime}
      (live : world.handle t ≠ 0) (succeeded : answer.ret = .success)
      (kind : world.isDatabaseTransaction t = true)
      (list : (world.txns.obj t).newDatabases = done ++ rest)
      (promoted : Promoted done (closing t (.commit answer) world) middle)
      (outcome : result = .ok () ∧ rest = [] ∨ ∃ message d others,
        result = .error (.argument message) ∧ rest = d :: others ∧
        middle.environment.databases.containsKey (world.dbs.obj d).name = true) :
      CommitEnds t answer world result
        (if rest = [] then middle.onTxn t fun transaction =>
          { transaction with newDatabases := [] }
        else middle)

/-- A commit that returns or throws has gone one of these ways. -/
theorem commit_cases {result : Except Exception Unit} {after : World runtime}
    (returned : Transaction.commit t answer world = some (result, after)) :
    CommitEnds t answer world result after := by
  by_cases live : world.handle t = 0
  · rw [commit_of_disposed answer live] at returned
    cases returned
    exact .disposed live
  by_cases succeeded : answer.ret = .success
  · cases kind : world.isDatabaseTransaction t with
    | false =>
        rw [commit_of_plain live succeeded kind] at returned
        cases returned
        exact .plain live succeeded kind
    | true =>
        obtain ⟨_, _, _, _, list, promoted, ran, outcome⟩ :=
          commit_of_database live succeeded kind
        rw [ran] at returned
        cases returned
        exact .database live succeeded kind list promoted outcome
  · obtain ⟨message, threw⟩ := commit_of_failed live succeeded
    rw [threw] at returned
    cases returned
    exact .failed live succeeded

end Promotion

section Environment

variable (world : World runtime) (order : List TxnRef)

/-- The environment handle was exchanged, nothing else happened yet. -/
def World.handleCleared (world : World runtime) : World runtime :=
  { world with environment := { world.environment with env := 0 } }

/-- The world after the loop over the registered transactions. -/
def World.enumerated (world : World runtime) (order : List TxnRef) : World runtime :=
  order.foldl LmdbEnvironment.disposeEntry world.handleCleared

/-- The environment object after `Dispose`. -/
def World.cleared (world : World runtime) : LmdbEnvironment runtime :=
  ⟨0, none, .empty, .empty, world.environment.instanceHandle,
    if world.environment.instanceHandle then world.environment.instanceHandleFrees + 1
    else world.environment.instanceHandleFrees⟩

/-- The loop only ever ends registered transactions that are live. -/
theorem enumerated_invariant {world : World runtime} {order : List TxnRef}
    (holds : World runtime → Prop) (initial : holds world.handleCleared)
    (ended : ∀ {before : World runtime} {t}, holds before →
      t ∈ before.environment.transactions.values → before.handle t ≠ 0 →
      holds (closing t .abort before)) : holds (world.enumerated order) := by
  have loop (rest : List TxnRef) (current : World runtime) (held : holds current) :
      holds (rest.foldl LmdbEnvironment.disposeEntry current) := by
    induction rest generalizing current with
    | nil => exact held
    | cons t rest ih =>
        refine ih _ ?_
        unfold LmdbEnvironment.disposeEntry
        split
        · rename_i member
          by_cases live : current.handle t = 0
          · rw [dispose_of_disposed live]
            exact held
          · rw [dispose_of_live live]
            exact ended held member live
        · exact held
  exact loop order _ initial

/-- The loop, with the transactions that it has not come to yet. -/
theorem enumerated_induction {world : World runtime} {order : List TxnRef}
    (holds : List TxnRef → World runtime → Prop) (initial : holds order world.handleCleared)
    (round : ∀ {t rest current}, holds (t :: rest) current →
      holds rest (LmdbEnvironment.disposeEntry current t)) : holds [] (world.enumerated order) := by
  have loop (rest : List TxnRef) (current : World runtime) (held : holds rest current) :
      holds [] (rest.foldl LmdbEnvironment.disposeEntry current) := by
    induction rest generalizing current with
    | nil => exact held
    | cons t rest ih => exact ih _ (round held)
  exact loop order _ initial

/-- `activeDbTxn` stays empty. -/
theorem closing_activeDbTxn {t : TxnRef} {ending : Ending}
    (idle : world.environment.activeDbTxn = none) :
    (closing t ending world).environment.activeDbTxn = none := by
  rw [closing_environment]
  split
  · rfl
  · exact idle

/-- The environment keeps its handle. -/
theorem closing_env (t : TxnRef) (ending : Ending) :
    (closing t ending world).environment.env = world.environment.env := by
  rw [closing_environment]
  split <;> rfl

/-- The registered databases are as they were. -/
theorem closing_databases (t : TxnRef) (ending : Ending) :
    (closing t ending world).environment.databases = world.environment.databases := by
  rw [closing_environment]
  split <;> rfl

/-- The `GCHandle` is as it was. -/
theorem closing_instanceHandle (t : TxnRef) (ending : Ending) :
    (closing t ending world).environment.instanceHandle = world.environment.instanceHandle ∧
    (closing t ending world).environment.instanceHandleFrees =
      world.environment.instanceHandleFrees := by
  rw [closing_environment]
  split <;> exact ⟨rfl, rfl⟩

/-- Disposing a disposed environment empties registries and frees the handle again. -/
theorem dispose_of_shut {world : World runtime} (shut : world.environment.env = 0) :
    LmdbEnvironment.dispose order world = { world with environment := world.cleared } := by
  unfold LmdbEnvironment.dispose LmdbEnvironment.disposeWith World.onEnvironment World.cleared
  simp only [shut, ne_eq, not_true_eq_false, if_false]
  split <;> rfl

/-- Disposing an open environment whose active transaction field is empty. -/
theorem dispose_of_open {world : World runtime} (opened : world.environment.env ≠ 0)
    (idle : world.environment.activeDbTxn = none) :
    LmdbEnvironment.dispose order world =
      { world.enumerated order with
        environment := world.cleared
        dbs := (world.enumerated order).dbs.modifyAll world.environment.databases.values
          Database.clearHandle
        native := (world.enumerated order).native.mdbEnvClose world.environment.env } := by
  have kept : (world.enumerated order).environment.env = 0 ∧
      (world.enumerated order).environment.activeDbTxn = none ∧
      (world.enumerated order).environment.databases = world.environment.databases ∧
      (world.enumerated order).environment.instanceHandle = world.environment.instanceHandle ∧
      (world.enumerated order).environment.instanceHandleFrees =
        world.environment.instanceHandleFrees := by
    refine enumerated_invariant (fun current => current.environment.env = 0 ∧
      current.environment.activeDbTxn = none ∧
      current.environment.databases = world.environment.databases ∧
      current.environment.instanceHandle = world.environment.instanceHandle ∧
      current.environment.instanceHandleFrees = world.environment.instanceHandleFrees)
      ⟨rfl, idle, rfl, rfl, rfl⟩ ?_
    rintro before t ⟨env, idle', databases, handle, frees⟩ _ _
    exact ⟨(closing_env before t .abort).trans env, closing_activeDbTxn before idle',
      (closing_databases before t .abort).trans databases,
      (closing_instanceHandle before t .abort).1.trans handle,
      (closing_instanceHandle before t .abort).2.trans frees⟩
  obtain ⟨env, idle', databases, handle, frees⟩ := kept
  have managed : LmdbEnvironment.disposeManaged order world.handleCleared =
      { world.enumerated order with
        dbs := (world.enumerated order).dbs.modifyAll world.environment.databases.values
          Database.clearHandle } := by
    unfold LmdbEnvironment.disposeManaged
    dsimp only
    rw [← World.enumerated, idle', databases]
  unfold LmdbEnvironment.dispose LmdbEnvironment.disposeWith
  simp only [ne_eq, opened, not_false_eq_true, if_true]
  rw [show world.onEnvironment (fun environment => { environment with env := 0 }) =
    world.handleCleared from rfl, managed]
  simp only [World.onNative, World.onEnvironment, handle, frees, World.cleared]
  split <;> simp_all

end Environment

end KdSoftLmdb
