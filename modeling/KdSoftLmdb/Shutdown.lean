import KdSoftLmdb.Effects.Disposed
import KdSoftLmdb.Invariants.Shutdown
import KdSoftLmdb.Session

/-!
# Disposing an environment

`Dispose` ends the registered transactions, marks the registered databases as
disposed and closes the native environment. It misses the live database
transaction, which no field holds, with its databases; it misses every object
that some earlier path forgot to register; and `Database.Environment` goes on
handing out the closed environment. Orderly calls avoid all of these.
-/

namespace KdSoftLmdb

variable {runtime : Runtime}

/-- Every transaction, every cursor of a write transaction and every database is
disposed, and every native transaction was ended exactly once. -/
structure ShutDown (world : World runtime) : Prop where
  transactions : ∀ t, Transaction.isDisposed world t = true
  cursors : ∀ c, (world.cursors.obj c).isReadOnly = false → Cursor.isDisposed world c = true
  databases : ∀ d, Database.isDisposed world d = true
  ends : ∀ txn, 0 < txn → txn < world.native.txns.next → (world.native.txns.obj txn).ends = 1

/-- The call does not read `Database.Environment`. -/
def SparesEnvironment (_ : World runtime) : Op → Prop
  | .databaseEnvironment _ => False
  | _ => True

instance : ∀ (world : World runtime) (op : Op), Decidable (SparesEnvironment world op) := by
  intro world op
  apply op.casesOn (motive := fun op => Decidable (SparesEnvironment world op)) <;> intros <;>
    unfold SparesEnvironment <;> infer_instance

namespace ShutdownSound

variable {world after : World runtime} {op : Op}

private theorem shutDown (sound : ShutdownSound world) (closed : world.environment.env = 0) :
    ShutDown world := by
  obtain ⟨handles, dbis⟩ := sound.shut closed
  refine ⟨fun t => beq_iff_eq.mpr (handles t), fun c writes => ?_,
    fun d => beq_iff_eq.mpr (dbis d), fun txn positive known => ?_⟩
  · by_contra open'
    obtain ⟨t, _, live, _⟩ := sound.nesting.sound.cursors.owned c
      (by simpa [Cursor.isDisposed] using open') writes
    exact live (handles t)
  · rw [sound.once txn positive known, if_neg]
    intro live
    obtain ⟨t, holds⟩ := sound.held txn live
    rw [← holds, handles t] at positive
    exact Nat.lt_irrefl 0 positive

/-- Once everything is disposed, the order of the calls no longer matters. -/
theorem orderly_of_shut (sound : ShutdownSound world) (closed : world.environment.env = 0)
    (spares : SparesEnvironment world op) : Orderly world op := by
  obtain ⟨handles, _⟩ := sound.shut closed
  have keeps (t : TxnRef) : world.KeepsEntries t := .inl (handles t)
  have leaf (t : TxnRef) : world.Leaf t := .inl (handles t)
  cases op with
  | beginTransaction | beginReadOnlyTransaction => exact ⟨trivial, .inl closed⟩
  | commit t => exact ⟨leaf t, keeps t, .inl (handles t)⟩
  | disposeTransaction t => exact ⟨leaf t, keeps t⟩
  | databaseEnvironment => exact spares.elim
  | disposeEnvironment =>
      exact ⟨fun t _ => leaf t, fun t _ live => live.2 (handles t), fun t _ => keeps t⟩
  | _ => exact ⟨trivial, trivial⟩

/-- The environment handle is never set again. -/
theorem shut_step (sound : ShutdownSound world) (closed : world.environment.env = 0)
    (transition : Step world op after) : after.environment.env = 0 := by
  cases treeEffect_of_effect sound.nesting.sound.natives (effect_of_step transition) with
  | begun _ _ begins => exact absurd closed begins.opened
  | ended _ _ leaves => exact leaves.env.trans closed
  | disposed _ _ equal =>
      rw [equal, dispose_of_shut _ closed]
      rfl
  | kept keeps => exact keeps.env.trans closed

private theorem shut_run (sound : ShutdownSound world) (closed : world.environment.env = 0)
    {ops : List Op} (run : Run Step SparesEnvironment world ops after) :
    ShutdownSound after ∧ after.environment.env = 0 :=
  run.invariant (fun current => ShutdownSound current ∧ current.environment.env = 0)
    ⟨sound, closed⟩ fun held spares transition =>
      ⟨held.1.effect (held.1.orderly_of_shut held.2 spares) (effect_of_step transition),
        held.1.shut_step held.2 transition⟩

/-- No member of a transaction or a database calls LMDB any more. -/
theorem silent_of_shut (sound : ShutdownSound world) (closed : world.environment.env = 0)
    (member : op.transaction? ≠ none ∨ op.database? ≠ none) (spares : SparesEnvironment world op)
    (transition : Step world op after) : after.native.calls = world.native.calls := by
  obtain ⟨handles, dbis⟩ := sound.shut closed
  rcases member with transaction | database
  · obtain ⟨t, named⟩ := Option.ne_none_iff_exists'.mp transaction
    rw [transaction_disposed_step (handles t) named transition]
  · obtain ⟨d, named⟩ := Option.ne_none_iff_exists'.mp database
    rcases database_disposed_step (dbis d) named transition with same | ⟨rfl, _⟩
    · rw [same]
    · exact spares.elim

end ShutdownSound

/-- `Dispose` of an open environment, after orderly calls: it returns with the
native environment closed, then and in every later state everything is disposed
and was ended exactly once, and no member of a transaction or a database other
than `Database.Environment` calls LMDB. -/
theorem dispose_shuts_down {flags : LmdbEnvironmentOptions} {lastTxnId : Nat} {ops : List Op}
    {world after : World runtime} {order : List TxnRef} {result : Except Exception Returned}
    (history : History Orderly flags lastTxnId ops world) (opened : world.environment.env ≠ 0)
    (orderly : Orderly world (.disposeEnvironment order))
    (executed : execute world (.disposeEnvironment order) = some (result, after)) :
    result = .ok .nothing ∧
    after.native.calls.head? = some ⟨.mdbEnvClose, [.env world.environment.env], false⟩ ∧
    ∀ laterOps later, Run Step SparesEnvironment after laterOps later → ShutDown later ∧
      ∀ op next, op.transaction? ≠ none ∨ op.database? ≠ none → SparesEnvironment later op →
        Step later op next → next.native.calls = later.native.calls := by
  have sound := (ShutdownSound.opened flags lastTxnId).run history
  have afterSound := sound.effect orderly (effect_of_step ⟨_, executed⟩)
  obtain ⟨_, returned⟩ := execute_eq_some_iff.mp executed
  obtain ⟨_, rfl, rfl⟩ := disposeEnvironment_cases returned
  have asOpen := dispose_of_open order opened sound.nesting.sound.transactions.idle
  have closed : (LmdbEnvironment.dispose order world).environment.env = 0 := by
    rw [asOpen]
    rfl
  refine ⟨rfl, ?_, fun laterOps later run => ?_⟩
  · rw [asOpen]
    rfl
  · obtain ⟨laterSound, laterClosed⟩ := afterSound.shut_run closed run
    exact ⟨laterSound.shutDown laterClosed, fun op next member spares transition =>
      laterSound.silent_of_shut laterClosed member spares transition⟩

/-- A committed database, a write transaction and a reader with a cursor each. -/
def orderlyHistory : List Op :=
  [.beginDatabaseTransaction .none none .success, plainOpen 0 "a" 2, .commit 0 ⟨.success, true⟩,
    .beginTransaction .none none ⟨.success, .success⟩, .openCursor 0 1 .success,
    .beginReadOnlyTransaction .none none ⟨.success, .success⟩, .openCursor 0 2 .success]

/-- Two open transactions and a database, shut down by one disposal. -/
theorem dispose_shuts_down_orderly : ∃ world after : World .ascii,
    History Orderly .none 0 orderlyHistory world ∧
    execute world (.disposeEnvironment [1, 2]) = some (.ok .nothing, after) ∧
    world.handle 1 ≠ 0 ∧ world.handle 2 ≠ 0 ∧ world.dbi 0 ≠ 0 ∧ ShutDown after := by
  obtain ⟨world, history, opened, orderly, handles, returned⟩ := history_of_replay Orderly .none 0
    orderlyHistory (fun world : World .ascii => world.environment.env ≠ 0 ∧
      Orderly world (.disposeEnvironment [1, 2]) ∧
      (world.handle 1 ≠ 0 ∧ world.handle 2 ≠ 0 ∧ world.dbi 0 ≠ 0) ∧
      (execute world (.disposeEnvironment [1, 2])).isSome = true) (by decide +kernel)
  obtain ⟨⟨result, after⟩, executed⟩ := Option.isSome_iff_exists.mp returned
  obtain ⟨rfl, _, later⟩ := dispose_shuts_down history opened orderly executed
  exact ⟨world, after, history, executed, handles.1, handles.2.1, handles.2.2,
    (later [] after .nil).1⟩

/-- A database transaction is live when the environment is disposed: nothing
disposes it or its database, LMDB never ends it before it closes, and its own
`Abort` hands LMDB the transaction afterwards. -/
theorem dispose_leaves_live : ∃ world after later : World .ascii,
    History Always .none 0
      [.beginDatabaseTransaction .none none .success, plainOpen 0 "a" 2] world ∧
    execute world (.disposeEnvironment []) = some (.ok .nothing, after) ∧
    ¬ShutDown after ∧ after.handle 0 ≠ 0 ∧ after.dbi 0 ≠ 0 ∧
    (after.native.txns.obj (after.handle 0)).ends = 0 ∧
    Step after (.disposeTransaction 0) later ∧
    later.native.calls.head? = some ⟨.mdbTxnAbort, [.txn (after.handle 0)], false⟩ := by
  obtain ⟨world, history, observed⟩ := history_of_replay Always .none 0
    [.beginDatabaseTransaction .none none .success, plainOpen 0 "a" 2]
    (fun world : World .ascii =>
      ((execute world (.disposeEnvironment [])).any fun outcome =>
        decide (outcome.1 = .ok .nothing ∧ outcome.2.handle 0 ≠ 0 ∧ outcome.2.dbi 0 ≠ 0 ∧
          (outcome.2.native.txns.obj (outcome.2.handle 0)).ends = 0) &&
        (stepTo outcome.2 (.disposeTransaction 0)).any fun later =>
          decide (later.native.calls.head? =
            some ⟨.mdbTxnAbort, [.txn (outcome.2.handle 0)], false⟩)) = true) (by decide +kernel)
  obtain ⟨⟨result, after⟩, executed, observed⟩ := (Option.any_eq_true _ _).mp observed
  obtain ⟨left, ended⟩ := Bool.and_eq_true_iff.mp observed
  obtain ⟨later, stepped, call⟩ := (Option.any_eq_true _ _).mp ended
  obtain ⟨rfl, handle, dbi, ends⟩ := of_decide_eq_true left
  refine ⟨world, after, later, history, executed, fun shut => ?_, handle, dbi, ends,
    step_of_stepTo stepped, of_decide_eq_true call⟩
  exact handle (beq_iff_eq.mp (shut.transactions 0))

end KdSoftLmdb
