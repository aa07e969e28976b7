import KdSoftLmdb.Effects.Disposed
import KdSoftLmdb.Invariants.Ancestry
import KdSoftLmdb.Session

/-!
# Operations with a transaction that has ended

`Database`, `MultiValueDatabase` and `Cursor.Renew` check the object they are
called on and take the handle of the transaction as it is. An ended transaction
is therefore refused only when the other object refuses the call first.
-/

namespace KdSoftLmdb

variable {runtime : Runtime}

/-- The transaction that an operation of a database or a cursor is given. -/
def Op.argument? : Op → Option TxnRef
  | .drop _ t _ | .databaseMember _ _ t _ | .openCursor _ t _ | .renewCursor _ t _ => some t
  | _ => none

/-- The object that such an operation is called on is disposed; only read-only
cursors are looked at. -/
def Op.OnDisposed (world : World runtime) : Op → Prop
  | .drop d _ _ | .databaseMember _ d _ _ | .openCursor d _ _ => world.dbi d = 0
  | .renewCursor c _ _ => (world.cursors.obj c).isReadOnly = true ∧ world.cur c = 0
  | _ => False

/-- An ended transaction is refused with an `ObjectDisposedException` before any
native call, and no native call is given a null transaction handle. -/
structure RefusesEnded (t : TxnRef) (world : World runtime) (result : Except Exception Returned)
    (after : World runtime) : Prop where
  refused : world.fate t ≠ .live →
    (∃ name, result = .error (.objectDisposed name)) ∧ after.native.calls = world.native.calls
  given : ∃ calls, after.native.calls = calls ++ world.native.calls ∧
    ∀ call ∈ calls, NativeHandle.txn 0 ∉ call.handles

/-- The native library was called once, with the transaction's handle and
another handle that is no transaction's. -/
def HandsOver (txn : IntPtr) (before after : Native) : Prop :=
  ∃ function handle dangling, (∀ other, handle ≠ NativeHandle.txn other) ∧
    after.calls = ⟨function, [.txn txn, handle], dangling⟩ :: before.calls

section Members

variable {world after : World runtime} {t : TxnRef} {d : DbRef} {c : CursorRef} {txn : IntPtr}

private theorem HandsOver.of_record {function : LibFunc} {handle : NativeHandle}
    (other : ∀ other, handle ≠ .txn other) {before after : Native}
    (calls : after.calls = (before.record function [.txn txn, handle]).calls) :
    HandsOver txn before after :=
  ⟨function, handle, _, other, calls⟩

private theorem mdbDrop_handsOver {dbi : Nat} {del : Bool} {answer ret : DbRetCode}
    {native left : Native}
    (gave : native.mdbDrop txn dbi del answer = some (ret, left)) : HandsOver txn native left := by
  refine @HandsOver.of_record _ .mdbDrop (.dbi dbi) (fun _ => nofun) _ _ ?_
  rw [Native.mdbDrop] at gave
  split at gave
  · split at gave
    · split at gave <;> (cases gave; rfl)
    · cases gave
  · cases gave
    rfl

private theorem mdbCursorOpen_handsOver {dbi : Nat} {answer : DbRetCode}
    {opened : DbRetCode × IntPtr}
    {native left : Native} (gave : native.mdbCursorOpen txn dbi answer = some (opened, left)) :
    HandsOver txn native left := by
  refine @HandsOver.of_record _ .mdbCursorOpen (.dbi dbi) (fun _ => nofun) _ _ ?_
  rw [Native.mdbCursorOpen] at gave
  split at gave
  · split at gave
    · cases gave
      rfl
    · cases gave
  · cases gave
    rfl

private theorem mdbCursorRenew_handsOver {cursor : IntPtr} {answer ret : DbRetCode}
    {native left : Native}
    (gave : native.mdbCursorRenew txn cursor answer = some (ret, left)) :
    HandsOver txn native left := by
  refine @HandsOver.of_record _ .mdbCursorRenew (.cursor cursor) (fun _ => nofun) _ _ ?_
  rw [Native.mdbCursorRenew] at gave
  split at gave
  · split at gave
    · cases gave
      rfl
    · cases gave
  · cases gave
    rfl

/-- A body that waits for a native function first. -/
theorem awaited {α β : Type} {function : Native → Option (β × Native)}
    {next : β → Call runtime α} {result : Except Exception α}
    (returned : (Method.await (World.awaitNative function) >>= next) world = some (result, after)) :
    ∃ answer native, function world.native = some (answer, native) ∧
      next answer { world with native := native } = some (result, after) := by
  rw [Method.bind_apply, Method.await_apply, World.awaitNative] at returned
  cases gave : function world.native with
  | none => simp [gave] at returned
  | some value =>
      simp only [gave, Option.map_some] at returned
      exact ⟨value.1, value.2, rfl, returned⟩

private theorem databaseAccess_handsOver (live : world.dbi d ≠ 0) {function : LibFunc}
    {benign : Option DbRetCode} {ret : DbRetCode} {result : Except Exception Bool}
    (returned : Database.access function benign d t ret world = some (result, after)) :
    HandsOver (world.handle t) world.native after.native := by
  rw [Database.access, Method.bind_of_ok (Database.checkDisposed_of_live live), Method.get_bind,
    Method.modify_bind] at returned
  rw [flag_after returned]
  exact @HandsOver.of_record _ function (.dbi (world.dbi d)) (by simp) _ _ rfl

private theorem truncate_handsOver (live : world.dbi d ≠ 0) {answer : DbRetCode}
    {result : Except Exception Unit}
    (returned : Database.truncate d t answer world = some (result, after)) :
    HandsOver (world.handle t) world.native after.native := by
  rw [Database.truncate, Method.bind_of_ok (Database.checkDisposed_of_live live),
    Method.get_bind] at returned
  obtain ⟨_, native, gave, checked⟩ := awaited returned
  rw [checkRetCode_after checked]
  exact mdbDrop_handsOver gave

private theorem drop_handsOver (live : world.dbi d ≠ 0) {answer : DbRetCode}
    {result : Except Exception Unit}
    (returned : Database.drop d t answer world = some (result, after)) :
    HandsOver (world.handle t) world.native after.native := by
  rw [Database.drop, Method.bind_of_ok (Database.checkDisposed_of_live live),
    Method.get_bind] at returned
  obtain ⟨_, native, gave, rest⟩ := awaited returned
  have handed := mdbDrop_handsOver gave
  rcases Method.bind_eq_some_iff.mp rest with ⟨_, threw, _⟩ | ⟨_, _, checked, disposed⟩
  · rw [checkRetCode_after threw]
    exact handed
  · cases disposed
    rw [Database.setDisposed, databaseCallback_native, checkRetCode_after checked]
    exact handed

private theorem databaseMember_handsOver (live : world.dbi d ≠ 0) {member : DatabaseMember}
    {answer : DbRetCode} {result : Except Exception Returned}
    (returned : member.body d t answer world = some (result, after)) :
    HandsOver (world.handle t) world.native after.native := by
  cases member
  case truncate =>
    obtain ⟨_, ran⟩ := void_cases returned
    exact truncate_handsOver live ran
  all_goals
    obtain ⟨_, ran, _⟩ := returning_cases returned
    exact databaseAccess_handsOver live ran

private theorem openCursorHandle_handsOver (live : world.dbi d ≠ 0) {answer : DbRetCode}
    {result : Except Exception IntPtr}
    (returned : Database.openCursorHandle d t answer world = some (result, after)) :
    HandsOver (world.handle t) world.native after.native := by
  rw [Database.openCursorHandle, Method.bind_of_ok (Database.checkDisposed_of_live live),
    Method.get_bind] at returned
  obtain ⟨⟨ret, cur⟩, native, gave, rest⟩ := awaited returned
  have handed := mdbCursorOpen_handsOver gave
  rcases Method.bind_eq_some_iff.mp rest with ⟨_, threw, _⟩ | ⟨_, _, checked, made⟩
  · rw [checkRetCode_after threw]
    exact handed
  · cases made
    rw [checkRetCode_after checked]
    exact handed

private theorem openCursor_handsOver (live : world.dbi d ≠ 0) {answer : DbRetCode}
    {result : Except Exception CursorRef}
    (returned : Database.openCursor d t answer world = some (result, after)) :
    HandsOver (world.handle t) world.native after.native := by
  rcases Method.bind_eq_some_iff.mp returned with ⟨_, threw, _⟩ | ⟨_, middle, opened, rest⟩
  · exact openCursorHandle_handsOver live threw
  · have native : after.native = middle.native := by
      cases rest
      rfl
    rw [native]
    exact openCursorHandle_handsOver live opened

private theorem renew_handsOver (readOnly : (world.cursors.obj c).isReadOnly = true)
    (live : world.cur c ≠ 0) {answer : DbRetCode} {result : Except Exception Unit}
    (returned : Cursor.renew c t answer world = some (result, after)) :
    HandsOver (world.handle t) world.native after.native := by
  rw [Cursor.renew, Method.get_bind, readOnly] at returned
  rw [if_neg (by decide), Method.bind_of_ok (Cursor.checkDisposed_of_live live)] at returned
  obtain ⟨_, native, gave, checked⟩ := awaited returned
  rw [checkRetCode_after checked]
  exact mdbCursorRenew_handsOver gave

variable {op : Op} {result : Except Exception Returned}

/-- An operation on an object that is not disposed reaches LMDB. -/
theorem argument_handsOver (given : op.argument? = some t) (open' : ¬op.OnDisposed world)
    (executed : execute world op = some (result, after)) :
    HandsOver (world.handle t) world.native after.native ∨
      (∃ message, result = .error (.invalidOperation message)) ∧ after = world := by
  obtain ⟨_, returned⟩ := execute_eq_some_iff.mp executed
  cases op with
  | drop =>
      cases given
      obtain ⟨_, ran⟩ := void_cases returned
      exact .inl (drop_handsOver open' ran)
  | databaseMember =>
      cases given
      exact .inl (databaseMember_handsOver open' returned)
  | openCursor =>
      cases given
      obtain ⟨_, ran, _⟩ := returning_cases returned
      exact .inl (openCursor_handsOver open' ran)
  | renewCursor c =>
      cases given
      cases readOnly : (world.cursors.obj c).isReadOnly with
      | true =>
          obtain ⟨_, ran⟩ := void_cases returned
          exact .inl (renew_handsOver readOnly (fun gone => open' ⟨readOnly, gone⟩) ran)
      | false =>
          -- the cursor is refused before the transaction is looked at
          have body := returned
          rw [Op.body, void, Cursor.renew] at body
          simp only [Method.bind_apply, Method.get_apply, readOnly] at body
          cases body
          exact .inr ⟨⟨_, rfl⟩, rfl⟩
  | _ => cases given

/-- An operation on a disposed object is refused there. -/
theorem argument_of_disposed (given : op.argument? = some t) (disposed : op.OnDisposed world)
    (executed : execute world op = some (result, after)) :
    (∃ name, result = .error (.objectDisposed name)) ∧ after = world := by
  obtain ⟨_, returned⟩ := execute_eq_some_iff.mp executed
  cases op with
  | drop =>
      obtain ⟨name, check⟩ := Database.checkDisposed_of_disposed disposed
      cases returned.symm.trans (Method.bind_of_error (Method.bind_of_error check))
      exact ⟨⟨name, rfl⟩, rfl⟩
  | databaseMember member =>
      obtain ⟨name, check⟩ := Database.checkDisposed_of_disposed disposed
      cases member
      all_goals
        cases returned.symm.trans (Method.bind_of_error (Method.bind_of_error check))
        exact ⟨⟨name, rfl⟩, rfl⟩
  | openCursor =>
      obtain ⟨name, check⟩ := Database.checkDisposed_of_disposed disposed
      cases returned.symm.trans
        (Method.bind_of_error (Method.bind_of_error (Method.bind_of_error check)))
      exact ⟨⟨name, rfl⟩, rfl⟩
  | renewCursor c _ answer =>
      obtain ⟨readOnly, gone⟩ := disposed
      obtain ⟨name, check⟩ := Cursor.checkDisposed_of_disposed gone
      have fails : Cursor.renew c t answer world = some (.error (.objectDisposed name), world) := by
        rw [Cursor.renew, Method.get_bind, readOnly, if_neg (by decide)]
        exact Method.bind_of_error check
      cases given
      cases returned.symm.trans (Method.bind_of_error fails)
      exact ⟨⟨name, rfl⟩, rfl⟩
  | _ => cases given

private theorem argument_known (given : op.argument? = some t)
    (executed : execute world op = some (result, after)) : t < world.txns.next := by
  obtain ⟨typed, _⟩ := execute_eq_some_iff.mp executed
  cases op with
  | drop | openCursor =>
      cases given
      simp only [Op.typed, Bool.and_eq_true, decide_eq_true_eq] at typed
      exact typed.2
  | databaseMember | renewCursor =>
      cases given
      simp only [Op.typed, Bool.and_eq_true, decide_eq_true_eq] at typed
      exact typed.1.2
  | _ => cases given

end Members

/-- An operation with a transaction keeps ended transactions and null handles
away from LMDB exactly when the transaction has not ended or the object that the
operation is called on is disposed itself. -/
theorem refusesEnded_iff {world after : World runtime} (reachable : Reachable world) {op : Op}
    {t : TxnRef} {result : Except Exception Returned} (given : op.argument? = some t)
    (executed : execute world op = some (result, after)) :
    RefusesEnded t world result after ↔ world.fate t = .live ∨ op.OnDisposed world := by
  constructor
  · intro refuses
    by_contra neither
    obtain ⟨ended, open'⟩ := not_or.mp neither
    obtain ⟨⟨name, threw⟩, quiet⟩ := refuses.refused ended
    rcases argument_handsOver given open' executed with handed | ⟨⟨message, invalid⟩, _⟩
    · obtain ⟨_, _, _, _, calls⟩ := handed
      exact List.cons_ne_self _ _ (calls.symm.trans quiet)
    · cases threw.symm.trans invalid
  · intro condition
    by_cases disposed : op.OnDisposed world
    · obtain ⟨threw, rfl⟩ := argument_of_disposed given disposed executed
      exact ⟨fun _ => ⟨threw, rfl⟩, [], rfl, nofun⟩
    · have alive := condition.resolve_right disposed
      refine ⟨fun ended => absurd alive ended, ?_⟩
      rcases argument_handsOver given disposed executed with handed | ⟨_, rfl⟩
      · obtain ⟨function, handle, dangling, other, calls⟩ := handed
        have held : world.handle t ≠ 0 := by
          intro gone
          have dead := (FatesSound.of_reachable reachable).gone t (argument_known given executed) gone
          rw [World.fate] at alive
          simp [Native.live, alive] at dead
        refine ⟨[_], calls, ?_⟩
        intro call made
        rw [List.mem_singleton.mp made]
        simp only [List.mem_cons, List.not_mem_nil, or_false, NativeHandle.txn.injEq, not_or]
        exact ⟨held.symm, (other 0).symm⟩
      · exact ⟨[], rfl, nofun⟩

/-- A committed transaction with a registered database. -/
def committedHistory : List Op :=
  [.beginDatabaseTransaction .none none .success, plainOpen 0 "a" 2, .commit 0 ⟨.success, true⟩]

/-- The disposed database refuses the committed transaction. -/
theorem refusesEnded_disposed : ∃ (world after : World .ascii) (result : Except Exception Returned),
    History Always .none 0 (committedHistory ++ [.disposeDatabase 0]) world ∧
    world.fate 0 = .committed ∧ RefusesEnded 0 world result after := by
  obtain ⟨world, history, fate, disposed, ran⟩ := history_of_replay Always .none 0
    (committedHistory ++ [.disposeDatabase 0]) (fun world : World .ascii =>
      world.fate 0 = .committed ∧ world.dbi 0 = 0 ∧
      (execute world (.databaseMember .compare 0 0 .success)).isSome) (by decide +kernel)
  obtain ⟨⟨result, after⟩, executed⟩ := Option.isSome_iff_exists.mp ran
  exact ⟨world, after, result, history, fate,
    (refusesEnded_iff (reachable_of_history history) rfl executed).mpr (.inr disposed)⟩

/-- `Compare` with the committed transaction: LMDB is given a null transaction,
which `mdb_cmp` dereferences. -/
theorem compare_null_transaction : ∃ (world after : World .ascii) (result : Except Exception Returned),
    History Always .none 0 committedHistory world ∧ world.fate 0 = .committed ∧
    execute world (.databaseMember .compare 0 0 .success) = some (result, after) ∧
    after.native.calls.head? = some ⟨.mdbCmp, [.txn 0, .dbi 2], false⟩ ∧
    ¬RefusesEnded 0 world result after := by
  obtain ⟨world, history, fate, ran⟩ := history_of_replay Always .none 0 committedHistory
    (fun world : World .ascii => world.fate 0 = .committed ∧
      ((execute world (.databaseMember .compare 0 0 .success)).any fun (_, after) =>
        decide (after.native.calls.head? = some ⟨.mdbCmp, [.txn 0, .dbi 2], false⟩ ∧
          world.native.calls.length ≠ after.native.calls.length)) = true) (by decide +kernel)
  obtain ⟨⟨result, after⟩, executed, observed⟩ := (Option.any_eq_true _ _).mp ran
  obtain ⟨handed, more⟩ := of_decide_eq_true observed
  refine ⟨world, after, result, history, fate, executed, handed, ?_⟩
  intro refuses
  have ended : world.fate 0 ≠ .live := by simp [fate]
  exact more (congrArg List.length (refuses.refused ended).2.symm)

end KdSoftLmdb
