import KdSoftLmdb.Effects.Ending
import KdSoftLmdb.Effects.Recording

/-!
# What the members of databases and cursors do

Most members check a handle, make one native call and translate its code; they
leave the objects of the wrapper alone. The few others give or take one handle.
-/

namespace KdSoftLmdb

variable {runtime : Runtime} {world after : World runtime} {t : TxnRef} {d : DbRef} {c : CursorRef}

section Checks

/-- A database that has its handle passes the check. -/
theorem Database.checkDisposed_of_live (live : world.dbi d ≠ 0) :
    Database.checkDisposed d world = some (.ok (world.dbi d), world) := by
  rw [Database.checkDisposed, Method.get_bind]
  exact congrFun (if_neg live) world

/-- A database without its handle fails the check. -/
theorem Database.checkDisposed_of_disposed (disposed : world.dbi d = 0) :
    ∃ name, Database.checkDisposed d world = some (.error (.objectDisposed name), world) := by
  rw [Database.checkDisposed, Method.get_bind]
  exact ⟨_, congrFun (if_pos disposed) world⟩

/-- A cursor that has its handle passes the check. -/
theorem Cursor.checkDisposed_of_live (live : world.cur c ≠ 0) :
    Cursor.checkDisposed c world = some (.ok (world.cur c), world) := by
  rw [Cursor.checkDisposed, Method.get_bind, if_neg live, Method.pure_apply]

/-- A cursor without its handle fails the check. -/
theorem Cursor.checkDisposed_of_disposed (disposed : world.cur c = 0) :
    ∃ name, Cursor.checkDisposed c world = some (.error (.objectDisposed name), world) := by
  rw [Cursor.checkDisposed, Method.get_bind, if_pos disposed, Method.throw_apply]
  exact ⟨_, rfl⟩

/-- What follows the check of a database runs on an undisposed one only. -/
theorem Database.checkDisposed_cases {α : Type} {next : Nat → Call runtime α}
    {result : Except Exception α}
    (returned : (Database.checkDisposed d >>= next) world = some (result, after)) :
    world.dbi d = 0 ∧ after = world ∧ (∃ name, result = .error (.objectDisposed name)) ∨
      world.dbi d ≠ 0 ∧ next (world.dbi d) world = some (result, after) := by
  by_cases disposed : world.dbi d = 0
  · obtain ⟨name, threw⟩ := Database.checkDisposed_of_disposed disposed
    rw [Method.bind_of_error threw] at returned
    cases returned
    exact .inl ⟨disposed, rfl, name, rfl⟩
  · rw [Method.bind_of_ok (Database.checkDisposed_of_live disposed)] at returned
    exact .inr ⟨disposed, returned⟩

/-- What follows the check of a cursor runs on an undisposed one only. -/
theorem Cursor.checkDisposed_cases {α : Type} {next : IntPtr → Call runtime α}
    {result : Except Exception α}
    (returned : (Cursor.checkDisposed c >>= next) world = some (result, after)) :
    world.cur c = 0 ∧ after = world ∧ (∃ name, result = .error (.objectDisposed name)) ∨
      world.cur c ≠ 0 ∧ next (world.cur c) world = some (result, after) := by
  by_cases disposed : world.cur c = 0
  · obtain ⟨name, threw⟩ := Cursor.checkDisposed_of_disposed disposed
    rw [Method.bind_of_error threw] at returned
    cases returned
    exact .inl ⟨disposed, rfl, name, rfl⟩
  · rw [Method.bind_of_ok (Cursor.checkDisposed_of_live disposed)] at returned
    exact .inr ⟨disposed, returned⟩

/-- The handles that a database member hands over are held by objects. -/
theorem holds_pair (world : World runtime) (t : TxnRef) (dbi : Nat) :
    ∀ handle ∈ [NativeHandle.txn (world.handle t), .dbi dbi], world.Holds handle := by
  intro handle given
  simp only [List.mem_cons, List.not_mem_nil, or_false] at given
  rcases given with rfl | rfl
  · exact ⟨t, rfl⟩
  · trivial

/-- So is the handle that a cursor member hands over. -/
theorem holds_cursor (world : World runtime) (c : CursorRef) :
    ∀ handle ∈ [NativeHandle.cursor (world.cur c)], world.Holds handle := by
  intro handle given
  rw [List.mem_singleton.mp given]
  exact ⟨c, rfl⟩

/-- The code of a call that only reports `true` or `false` changes nothing. -/
theorem flag_after {benign : Option DbRetCode} {ret : DbRetCode} {result : Except Exception Bool}
    (returned : (if benign = some ret then pure false
      else do
        checkRetCode ret
        pure true : Call runtime Bool) world = some (result, after)) : after = world := by
  split at returned
  · cases returned
    rfl
  · rcases Method.bind_eq_some_iff.mp returned with ⟨_, threw, _⟩ | ⟨_, _, checked, rest⟩
    · exact checkRetCode_after threw
    · cases rest
      exact checkRetCode_after checked

end Checks

section Quiet

private theorem databaseAccess_recorded {function : LibFunc} {benign : Option DbRetCode}
    {ret : DbRetCode}
    {result : Except Exception Bool}
    (returned : Database.access function benign d t ret world = some (result, after)) :
    Recorded world after := by
  rw [Database.access] at returned
  rcases Database.checkDisposed_cases returned with ⟨_, rfl, _⟩ | ⟨_, returned⟩
  · exact .refl _
  · rw [Method.get_bind, Method.modify_bind] at returned
    rw [flag_after returned]
    exact .call world function (holds_pair world t _)

private theorem truncate_recorded {answer : DbRetCode} {result : Except Exception Unit}
    (returned : Database.truncate d t answer world = some (result, after)) :
    Recorded world after := by
  rw [Database.truncate] at returned
  rcases Database.checkDisposed_cases returned with ⟨_, rfl, _⟩ | ⟨_, returned⟩
  · exact .refl _
  · rw [Method.get_bind, Method.bind_apply, Method.await_apply, World.awaitNative] at returned
    have recorded := Recorded.call world .mdbDrop (holds_pair world t (world.dbi d))
    have answered {value : DbRetCode × Native} (gave : Native.mdbDrop (world.handle t)
        (world.dbi d) false answer world.native = some value) :
        value.2 = world.native.record .mdbDrop [.txn (world.handle t), .dbi (world.dbi d)] := by
      unfold Native.mdbDrop at gave
      dsimp only at gave
      split at gave
      · split at gave
        · cases gave
          rfl
        · cases gave
      · cases gave
        rfl
    cases gave : Native.mdbDrop (world.handle t) (world.dbi d) false answer world.native with
    | none => simp [gave] at returned
    | some value =>
        simp only [gave, Option.map_some] at returned
        rw [checkRetCode_after returned, answered gave]
        exact recorded

/-- The members of a database that only call LMDB record that call. -/
theorem databaseMember_recorded {member : DatabaseMember} {answer : DbRetCode}
    {result : Except Exception Returned}
    (returned : member.body d t answer world = some (result, after)) : Recorded world after := by
  have flagged {function : LibFunc} {benign : Option DbRetCode} {ret : DbRetCode}
      (ran : returning .flag (Database.access function benign d t ret) world =
        some (result, after)) : Recorded world after := by
    obtain ⟨_, accessed, _⟩ := returning_cases ran
    exact databaseAccess_recorded accessed
  cases member
  case truncate =>
    obtain ⟨_, truncated⟩ := void_cases returned
    exact truncate_recorded truncated
  all_goals exact flagged returned

/-- The members of a cursor record their call too. -/
theorem cursorMember_recorded {member : CursorMember} {answer : DbRetCode}
    {result : Except Exception Returned}
    (returned : member.body c answer world = some (result, after)) : Recorded world after := by
  have accessed {function : LibFunc} {benign : Option DbRetCode} {ret : DbRetCode}
      {flag : Except Exception Bool} {after : World runtime}
      (ran : Cursor.access function benign c ret world = some (flag, after)) :
      Recorded world after := by
    rw [Cursor.access] at ran
    rcases Cursor.checkDisposed_cases ran with ⟨_, rfl, _⟩ | ⟨_, ran⟩
    · exact .refl _
    · rw [Method.modify_bind] at ran
      rw [flag_after ran]
      exact .call world function (holds_cursor world c)
  have flagged {function : LibFunc} {benign : Option DbRetCode} {ret : DbRetCode}
      (ran : returning .flag (Cursor.access function benign c ret) world =
        some (result, after)) : Recorded world after := by
    obtain ⟨_, returned, _⟩ := returning_cases ran
    exact accessed returned
  cases member
  all_goals exact flagged returned

/-- `Transaction.Id` records its call. -/
theorem getId_recorded {result : Except Exception Nat}
    (returned : Transaction.getId t world = some (result, after)) : Recorded world after := by
  rw [Transaction.getId] at returned
  rcases checkDisposed_cases returned with ⟨_, rfl, _⟩ | ⟨_, returned⟩
  · exact .refl _
  · cases returned
    refine .call world .mdbTxnId fun handle given => ?_
    rw [List.mem_singleton.mp given]
    exact ⟨t, rfl⟩

/-- `Transaction.Environment` records its calls. -/
theorem environment_recorded {result : Except Exception Unit}
    (returned : Transaction.environment t world = some (result, after)) : Recorded world after := by
  rw [Transaction.environment] at returned
  rcases checkDisposed_cases returned with ⟨_, rfl, _⟩ | ⟨_, returned⟩
  · exact .refl _
  · cases returned
    have asked : CallsFrom world (world.native.record .mdbTxnEnv [.txn (world.handle t)]) := by
      refine .first .mdbTxnEnv fun handle given => ?_
      rw [List.mem_singleton.mp given]
      exact ⟨t, rfl⟩
    refine ⟨_, rfl, (Native.unchanged_record _ _ _).record .mdbEnvGetUserctx [.env envHandle],
      asked.recordHeld _ (fun _ => rfl) fun handle given => ?_⟩
    rw [List.mem_singleton.mp given]
    trivial

end Quiet

section Callbacks

variable (world : World runtime) (d : DbRef) (c : CursorRef)

@[simp] theorem databaseCallback_dbs : (Database.invokeDisposed d world).dbs = world.dbs := by
  unfold Database.invokeDisposed
  split <;> rfl

@[simp] theorem databaseCallback_cursors :
    (Database.invokeDisposed d world).cursors = world.cursors := by
  unfold Database.invokeDisposed
  split <;> rfl

@[simp] theorem databaseCallback_native :
    (Database.invokeDisposed d world).native = world.native := by
  unfold Database.invokeDisposed
  split <;> rfl

/-- The callback of a database takes it off the list that it is on. -/
theorem databaseCallback_txns : (Database.invokeDisposed d world).txns =
    match (world.dbs.obj d).disposed with
    | .newDatabaseDisposed t => world.txns.modify t fun transaction =>
        { transaction with newDatabases := transaction.newDatabases.erase d }
    | .databaseDisposed => world.txns := by
  unfold Database.invokeDisposed
  cases (world.dbs.obj d).disposed <;> rfl

/-- The callback of a database may unregister it with the environment. -/
theorem databaseCallback_environment : (Database.invokeDisposed d world).environment =
    match (world.dbs.obj d).disposed with
    | .newDatabaseDisposed _ => world.environment
    | .databaseDisposed => { world.environment with
        databases := world.environment.databases.remove (world.dbs.obj d).name } := by
  unfold Database.invokeDisposed
  cases (world.dbs.obj d).disposed <;> rfl

/-- The callback of a database changes a transaction in its list of new databases only. -/
theorem databaseCallback_txn (t : TxnRef) : ∃ newDatabases,
    (Database.invokeDisposed d world).txns.obj t =
      { world.txns.obj t with newDatabases := newDatabases } ∧
    newDatabases.Sublist (world.txns.obj t).newDatabases := by
  rw [databaseCallback_txns]
  cases (world.dbs.obj d).disposed with
  | databaseDisposed => exact ⟨_, rfl, .refl _⟩
  | newDatabaseDisposed u =>
      by_cases same : t = u
      · subst same
        exact ⟨_, Heap.modify_obj_self _ _ _, List.erase_sublist⟩
      · exact ⟨_, Heap.modify_obj_of_ne _ _ same, .refl _⟩

@[simp] theorem databaseCallback_next :
    (Database.invokeDisposed d world).txns.next = world.txns.next := by
  rw [databaseCallback_txns]
  cases (world.dbs.obj d).disposed <;> rfl

@[simp] theorem cursorCallback_dbs : (Cursor.invokeDisposed c world).dbs = world.dbs := by
  unfold Cursor.invokeDisposed
  split <;> rfl

@[simp] theorem cursorCallback_cursors :
    (Cursor.invokeDisposed c world).cursors = world.cursors := by
  unfold Cursor.invokeDisposed
  split <;> rfl

@[simp] theorem cursorCallback_native :
    (Cursor.invokeDisposed c world).native = world.native := by
  unfold Cursor.invokeDisposed
  split <;> rfl

@[simp] theorem cursorCallback_environment :
    (Cursor.invokeDisposed c world).environment = world.environment := by
  unfold Cursor.invokeDisposed
  split <;> rfl

@[simp] theorem cursorCallback_next :
    (Cursor.invokeDisposed c world).txns.next = world.txns.next := by
  unfold Cursor.invokeDisposed
  split <;> rfl

/-- The callback of a cursor removes it from its transaction. -/
theorem cursorCallback_txns : (Cursor.invokeDisposed c world).txns =
    match (world.cursors.obj c).disposed with
    | some t => world.txns.modify t fun transaction =>
        { transaction with cursors := transaction.cursors.erase c }
    | none => world.txns := by
  unfold Cursor.invokeDisposed
  cases (world.cursors.obj c).disposed <;> rfl

/-- The callback of a cursor changes a transaction in its set of cursors only,
where every other cursor stays. -/
theorem cursorCallback_txn (t : TxnRef) : ∃ cursors,
    (Cursor.invokeDisposed c world).txns.obj t = { world.txns.obj t with cursors := cursors } ∧
    cursors.Sublist (world.txns.obj t).cursors ∧
    ∀ other, other ≠ c → other ∈ (world.txns.obj t).cursors → other ∈ cursors := by
  rw [cursorCallback_txns]
  cases (world.cursors.obj c).disposed with
  | none => exact ⟨_, rfl, .refl _, fun _ _ member => member⟩
  | some u =>
      by_cases same : t = u
      · subst same
        exact ⟨_, Heap.modify_obj_self _ _ _, List.erase_sublist,
          fun _ different member => (List.mem_erase_of_ne different).mpr member⟩
      · exact ⟨_, Heap.modify_obj_of_ne _ _ same, .refl _, fun _ _ member => member⟩

end Callbacks

end KdSoftLmdb
