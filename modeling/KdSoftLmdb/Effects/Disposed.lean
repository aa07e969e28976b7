import KdSoftLmdb.Effects.Effect

/-!
# Calls on disposed objects

A call on a disposed transaction or database throws, or does nothing, before
LMDB is asked. `Database.Environment` is the exception: it asks LMDB for the
context of the environment handle without a look at the database handle.
-/

namespace KdSoftLmdb

variable {runtime : Runtime}

/-- The transaction that a call is made on. -/
def Op.transaction? : Op → Option TxnRef
  | .commit t _ | .disposeTransaction t | .transactionId t | .transactionEnvironment t
  | .reset t | .renew t _ | .openDatabase t _ _ _ | .openMultiValueDatabase t _ _ _
  | .openFixedMultiValueDatabase t _ _ _ => some t
  | _ => none

/-- The database that a call is made on. -/
def Op.database? : Op → Option DbRef
  | .disposeDatabase d | .drop d _ _ | .databaseMember _ d _ _ | .databaseEnvironment d
  | .openCursor d _ _ => some d
  | _ => none

variable {world after : World runtime} {t : TxnRef} {d : DbRef} {op : Op}
  {result : Except Exception Returned}

/-- A body that throws at once leaves everything as it is. -/
theorem after_of_threw {α : Type} {wrap : α → Returned} {body : Call runtime α}
    {exception : Exception} (fails : body world = some (.error exception, world))
    (returned : returning wrap body world = some (result, after)) : after = world := by
  rw [returning, Method.bind_of_error fails] at returned
  cases returned
  rfl

private theorem after_of_threw_void {body : Call runtime Unit} {exception : Exception}
    (fails : body world = some (.error exception, world))
    (returned : void body world = some (result, after)) : after = world := by
  rw [void, Method.bind_of_error fails] at returned
  cases returned
  rfl

/-- On a disposed database, no call but `Environment` changes anything. -/
theorem database_disposed_step (disposed : world.dbi d = 0) (named : op.database? = some d)
    (transition : Step world op after) : after = world ∨
      op = .databaseEnvironment d ∧ after = Database.environment d world := by
  obtain ⟨name, check⟩ := Database.checkDisposed_of_disposed disposed
  obtain ⟨result, executed⟩ := transition
  obtain ⟨_, returned⟩ := execute_eq_some_iff.mp executed
  cases op with
  | disposeDatabase =>
      cases named
      obtain ⟨_, ran⟩ := void_cases returned
      cases ran
      refine .inl ?_
      rw [Database.dispose, Database.exchange]
      dsimp only
      rw [if_neg (not_not_intro disposed), World.onDb, Heap.modify_eq_self]
      rw [World.dbi] at disposed
      cases object : world.dbs.obj d
      simp_all [Database.clearHandle]
  | drop =>
      cases named
      exact .inl (after_of_threw_void (Method.bind_of_error check) returned)
  | databaseMember member =>
      cases named
      cases member
      case truncate => exact .inl (after_of_threw_void (Method.bind_of_error check) returned)
      all_goals exact .inl (after_of_threw (Method.bind_of_error check) returned)
  | databaseEnvironment =>
      cases named
      obtain ⟨_, ran⟩ := void_cases returned
      cases ran
      exact .inr ⟨rfl, rfl⟩
  | openCursor =>
      cases named
      exact .inl (after_of_threw (Method.bind_of_error (Method.bind_of_error check)) returned)
  | _ => cases named

/-- The open methods look at their arguments and at the registry first. -/
theorem openDatabaseInternal_of_disposed (disposed : world.handle t = 0) (name : Option String)
    (options : BitVec 32) (holder : CompareHolder) (answer : DatabaseTransaction.OpenAnswer) :
    ∃ exception, DatabaseTransaction.openDatabaseInternal t name options holder answer world =
      some (.error exception, world) := by
  rw [DatabaseTransaction.openDatabaseInternal, Method.get_bind]
  cases name with
  | none => exact ⟨_, rfl⟩
  | some text =>
      dsimp only
      cases taken : world.environment.databases.containsKey text with
      | true => exact ⟨_, rfl⟩
      | false => exact ⟨_, Method.bind_of_error (checkDisposed_of_disposed disposed)⟩

private theorem openDuplicates_of_disposed (disposed : world.handle t = 0) (kind : DatabaseKind)
    (forced : BitVec 32) (name : Option String) (config : Option MultiValueDatabaseConfiguration)
    (answer : DatabaseTransaction.OpenAnswer) :
    ∃ exception, DatabaseTransaction.openDuplicates kind forced t name config answer world =
      some (.error exception, world) := by
  cases config with
  | none => exact ⟨_, rfl⟩
  | some config =>
      obtain ⟨exception, fails⟩ := openDatabaseInternal_of_disposed disposed name
        (config.options ||| config.dupOptions ||| forced) config.compareHolder answer
      exact ⟨exception, Method.bind_of_error fails⟩

/-- On a disposed transaction, no call changes anything. -/
theorem transaction_disposed_step (disposed : world.handle t = 0)
    (named : op.transaction? = some t) (transition : Step world op after) : after = world := by
  have check := checkDisposed_of_disposed disposed
  obtain ⟨result, executed⟩ := transition
  obtain ⟨_, returned⟩ := execute_eq_some_iff.mp executed
  cases op with
  | commit _ answer =>
      cases named
      exact after_of_threw_void (commit_of_disposed answer disposed) returned
  | disposeTransaction =>
      cases named
      obtain ⟨_, ran⟩ := void_cases returned
      rw [Method.modify_apply, dispose_of_disposed disposed] at ran
      cases ran
      rfl
  | transactionId =>
      cases named
      exact after_of_threw (Method.bind_of_error check) returned
  | transactionEnvironment | reset | renew =>
      cases named
      exact after_of_threw_void (Method.bind_of_error check) returned
  | openDatabase _ name config answer =>
      cases named
      cases config with
      | none =>
          have fails : DatabaseTransaction.openDatabase t name none answer world =
              some (.error (.argumentNull "config"), world) := rfl
          exact after_of_threw fails returned
      | some config =>
          obtain ⟨_, fails⟩ := openDatabaseInternal_of_disposed disposed name config.options
            config.compareHolder answer
          exact after_of_threw (Method.bind_of_error fails) returned
  | openMultiValueDatabase =>
      cases named
      obtain ⟨_, fails⟩ := openDuplicates_of_disposed disposed _ _ _ _ _
      exact after_of_threw fails returned
  | openFixedMultiValueDatabase =>
      cases named
      obtain ⟨_, fails⟩ := openDuplicates_of_disposed disposed _ _ _ _ _
      exact after_of_threw fails returned
  | _ => cases named

end KdSoftLmdb
