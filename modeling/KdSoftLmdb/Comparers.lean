import KdSoftLmdb.Threads.Alone
import KdSoftLmdb.Effects.Opening

/-!
# Opening with comparison functions

An open reaches `mdb_dbi_open` and then registers up to two comparison functions.
When LMDB rejects one of them the handle is closed and an exception thrown;
otherwise a new database object is added. `Reaches` is the part before that
point, and `opened_of_accepted` and `opened_of_rejected` say what follows.
-/

namespace KdSoftLmdb

variable {runtime : Runtime}

/-- LMDB rejects the function that the holder registers. -/
def CompareHolder.rejected (holder : CompareHolder) (ret : DbRetCode) : Bool :=
  holder.registered.isSome && ret ≠ .success

namespace OpenCall

/-- The open method, once it has its configuration. -/
def opened (call : OpenCall) : Call runtime DbRef :=
  DatabaseTransaction.openDatabaseInternal call.t call.name call.options call.compareHolder
    call.answer >>= call.finish

/-- LMDB rejects the comparison function for keys or the one for duplicates. -/
def rejected (call : OpenCall) : Bool :=
  call.compareHolder.rejected call.answer.compare ||
    call.dupCompareHolder.any fun holder => holder.rejected call.answer.dupsort

/-- The open gets a handle: `mdb_dbi_open` gave `dbi` for the name and left LMDB so. -/
structure Reaches (call : OpenCall) (world : World runtime) (text : String) (dbi : Nat)
    (native : Native) : Prop where
  named : call.name = some text
  free : world.environment.databases.containsKey text = false
  live : world.handle call.t ≠ 0
  opened : Native.mdbDbiOpen (world.handle call.t) (runtime.marshal text) call.options
    call.answer.ret call.answer.slot world.native = some ((.success, dbi), native)

end OpenCall

/-- The calls of the three open methods that have a configuration. -/
theorem body_of_openCall {op : Op} {call : OpenCall} (opens : op.frame? = some (.nameCheck call)) :
    (op.body : Call runtime Returned) = returning .database call.opened :=
  (run_frame opens).symm.trans (Frame.run_open call)

/-- What registering does on LMDB's side. -/
def Native.install (set : Comparer → IntPtr → Nat → DbRetCode → Native → DbRetCode × Native)
    (holder : CompareHolder) (txn : IntPtr) (dbi : Nat) (ret : DbRetCode) (native : Native) :
    Native :=
  match holder.registered with
  | some comparer => (set comparer txn dbi ret native).2
  | none => native

section Register

variable {set : Comparer → IntPtr → Nat → DbRetCode → Native → DbRetCode × Native}
  {holder : CompareHolder} {txn : IntPtr} {dbi : Nat} {ret : DbRetCode}

private theorem setOrder_code (function : LibFunc) (change : NativeDbi → NativeDbi)
    (native : Native) :
    (Native.setOrder function change txn dbi ret native).1 = ret := by
  rw [Native.setOrder]
  split <;> rfl

private theorem setOrder_others (function : LibFunc) (change : NativeDbi → NativeDbi)
    (native : Native)
    {other : Nat} (different : other ≠ dbi) :
    (Native.setOrder function change txn dbi ret native).2.dbis.obj other =
      native.dbis.obj other := by
  rw [Native.setOrder]
  split
  · exact if_neg different
  · rfl

/-- Registering a function touches no other slot. -/
theorem install_others {other : Nat} (kept : ∀ comparer native,
    (set comparer txn dbi ret native).2.dbis.obj other = native.dbis.obj other) (native : Native) :
    (Native.install set holder txn dbi ret native).dbis.obj other = native.dbis.obj other := by
  rw [Native.install]
  cases holder.registered with
  | none => rfl
  | some comparer => exact kept comparer native

private theorem register_of_accepted (world : World runtime)
    (code : ∀ comparer, (set comparer txn dbi ret world.native).1 = ret)
    (accepted : holder.rejected ret = false) :
    DatabaseTransaction.register set holder txn dbi envHandle ret world =
      some (.ok (), { world with
        native := Native.install set holder txn dbi ret world.native }) := by
  rw [DatabaseTransaction.register, Native.install]
  cases registered : holder.registered with
  | none => rfl
  | some comparer =>
      have succeeded : ret = .success := by
        simpa [CompareHolder.rejected, registered] using accepted
      simp only [Method.call_bind, World.callNative, code]
      rw [if_neg (not_not_intro succeeded), succeeded]
      rfl

private theorem register_of_rejected (world : World runtime)
    (code : ∀ comparer, (set comparer txn dbi ret world.native).1 = ret)
    (rejected : holder.rejected ret = true) :
    ∃ exception, DatabaseTransaction.register set holder txn dbi envHandle ret world =
      some (.error exception, { world with
        native := (Native.install set holder txn dbi ret world.native).mdbDbiClose envHandle
          dbi }) := by
  obtain ⟨given, failed⟩ := Bool.and_eq_true_iff.mp rejected
  obtain ⟨comparer, registered⟩ := Option.isSome_iff_exists.mp given
  have failed : ret ≠ .success := of_decide_eq_true failed
  obtain ⟨message, threw⟩ := checkRetCode_failed failed { world with
    native := (set comparer txn dbi ret world.native).2.mdbDbiClose envHandle dbi }
  refine ⟨.lmdb ret message, ?_⟩
  rw [DatabaseTransaction.register, Native.install]
  simp only [registered, Method.call_bind, World.callNative, code]
  rw [if_pos failed, Method.modify_bind]
  exact threw

end Register

namespace OpenCall

variable {call : OpenCall} {world : World runtime} {text : String} {dbi : Nat} {native : Native}

/-- LMDB's side after the comparison function for keys. -/
def compared (call : OpenCall) (handle : IntPtr) (dbi : Nat) (native : Native) : Native :=
  Native.install Native.mdbSetCompare call.compareHolder handle dbi call.answer.compare
    (native.record .mdbTxnEnv [.txn handle])

/-- LMDB's side after both comparison functions. -/
def dupCompared (call : OpenCall) (handle : IntPtr) (dbi : Nat) (native : Native) : Native :=
  match call.dupCompareHolder with
  | some holder => Native.install Native.mdbSetDupsort holder handle dbi call.answer.dupsort
      (call.compared handle dbi native)
  | none => call.compared handle dbi native

/-- Such an open did not fail in LMDB. -/
theorem Reaches.accepted (reaches : call.Reaches world text dbi native) :
    call.answer.ret = .success := by
  have opened := reaches.opened
  rw [Native.mdbDbiOpen] at opened
  by_contra failed
  rw [if_neg failed] at opened
  exact failed (congrArg (fun outcome => outcome.1.1) (Option.some.inj opened))

/-- The transaction of such an open may write. -/
theorem Reaches.writable (reaches : call.Reaches world text dbi native) :
    world.native.canWrite (world.handle call.t) = true := by
  have opened := reaches.opened
  rw [reaches.accepted] at opened
  exact (opens_mdbDbiOpen opened).2.writable

/-- The handle is the one that is open under the name, or a free one, which gets no
comparison function yet. -/
theorem Reaches.slots (reaches : call.Reaches world text dbi native) :
    world.native.openSlot? (runtime.marshal text) = some dbi ∧
      native.dbis = world.native.dbis ∨
    world.native.openSlot? (runtime.marshal text) = none ∧ world.native.dbis.obj dbi = none ∧
      (∀ other, other ≠ dbi → native.dbis.obj other = world.native.dbis.obj other) ∧
      native.dbis.obj dbi = some
        ⟨runtime.marshal text, world.handle call.t, call.options, none, none⟩ := by
  have opened := reaches.opened
  rw [reaches.accepted, Native.mdbDbiOpen, if_pos rfl] at opened
  split at opened
  · cases found : world.native.openSlot? (runtime.marshal text) with
    | some existing =>
        rw [Native.openSlot?_record, found] at opened
        cases opened
        exact .inl ⟨rfl, rfl⟩
    | none =>
        rw [Native.openSlot?_record, found] at opened
        dsimp only at opened
        split at opened
        · rename_i free
          cases opened
          exact .inr ⟨rfl, free.2.2, fun other different => if_neg different, if_pos rfl⟩
        · cases opened
  · cases opened

/-- `mdb_dbi_open` is recorded once. -/
theorem Reaches.calls (reaches : call.Reaches world text dbi native) :
    native.calls = (world.native.record .mdbDbiOpen [.txn (world.handle call.t)]).calls := by
  have opened := reaches.opened
  rw [reaches.accepted, Native.mdbDbiOpen, if_pos rfl] at opened
  split at opened
  · split at opened
    · cases opened
      rfl
    · split at opened
      · cases opened
        rfl
      · cases opened
  · cases opened

/-- A name that is open gives its handle again. -/
theorem reaches_of_open (named : call.name = some text)
    (free : world.environment.databases.containsKey text = false)
    (live : world.handle call.t ≠ 0) (accepted : call.answer.ret = .success)
    (writable : world.native.canWrite (world.handle call.t) = true)
    (found : world.native.openSlot? (runtime.marshal text) = some dbi) :
    call.Reaches world text dbi (world.native.record .mdbDbiOpen [.txn (world.handle call.t)]) := by
  refine ⟨named, free, live, ?_⟩
  rw [Native.mdbDbiOpen, if_pos accepted, Native.canWrite_record, if_pos writable,
    Native.openSlot?_record, found, accepted]

/-- From the handle on, the open is the rest of its body. -/
theorem Reaches.opened_eq (reaches : call.Reaches world text dbi native) :
    call.opened world = (DatabaseTransaction.register Native.mdbSetCompare call.compareHolder
      (world.handle call.t) dbi envHandle call.answer.compare >>= fun _ =>
        call.finish (dbi, world.handle call.t, envHandle, text))
      { world with native := native.record .mdbTxnEnv [.txn (world.handle call.t)] } := by
  rw [OpenCall.opened, DatabaseTransaction.openDatabaseInternal, Method.bind_assoc,
    Method.get_bind, reaches.named]
  simp only [reaches.free, Bool.false_eq_true, if_false, Method.bind_assoc]
  rw [Method.bind_of_ok (checkDisposed_of_live reaches.live), Method.await_bind,
    World.awaitNative, reaches.opened]
  rfl

private theorem mdbSetCompare_code (dbi : Nat) (handle : IntPtr) (ret : DbRetCode) (native : Native)
    (comparer : Comparer) : (Native.mdbSetCompare comparer handle dbi ret native).1 = ret :=
  setOrder_code _ _ _

private theorem mdbSetDupsort_code (dbi : Nat) (handle : IntPtr) (ret : DbRetCode) (native : Native)
    (comparer : Comparer) : (Native.mdbSetDupsort comparer handle dbi ret native).1 = ret :=
  setOrder_code _ _ _

/-- If LMDB accepts the comparison functions there is a new database object. -/
theorem Reaches.opened_of_accepted (reaches : call.Reaches world text dbi native)
    (accepted : call.rejected = false) :
    call.opened world = some (.ok world.dbs.next, world.added call.t call.kind dbi text
      (call.dupCompared (world.handle call.t) dbi native)) := by
  obtain ⟨compare, dupsort⟩ := Bool.or_eq_false_iff.mp accepted
  have first := register_of_accepted { world with
    native := native.record .mdbTxnEnv [.txn (world.handle call.t)] }
    (mdbSetCompare_code dbi (world.handle call.t) call.answer.compare _) compare
  rw [reaches.opened_eq, Method.bind_of_ok first, dupCompared, finish]
  cases dup : call.dupCompareHolder with
  | none => rfl
  | some holder =>
      rw [dup, Option.any_some] at dupsort
      have second := register_of_accepted { world with
        native := call.compared (world.handle call.t) dbi native }
        (mdbSetDupsort_code dbi (world.handle call.t) call.answer.dupsort _) dupsort
      exact Method.bind_of_ok second

/-- If LMDB rejects one of them the handle is closed. -/
theorem Reaches.opened_of_rejected (reaches : call.Reaches world text dbi native)
    (rejected : call.rejected = true) :
    ∃ exception, ∃ native' : Native, call.opened world = some (.error exception, { world with
      native := native'.mdbDbiClose envHandle dbi }) ∧
      ∀ other, other ≠ dbi → native'.dbis.obj other = native.dbis.obj other := by
  have compared (other : Nat) (different : other ≠ dbi) :
      (call.compared (world.handle call.t) dbi native).dbis.obj other = native.dbis.obj other :=
    install_others (fun _ _ => setOrder_others _ _ _ different) _
  cases compare : call.compareHolder.rejected call.answer.compare with
  | true =>
      obtain ⟨exception, threw⟩ := register_of_rejected { world with
        native := native.record .mdbTxnEnv [.txn (world.handle call.t)] }
        (mdbSetCompare_code dbi (world.handle call.t) call.answer.compare _) compare
      refine ⟨exception, call.compared (world.handle call.t) dbi native, ?_, compared⟩
      rw [reaches.opened_eq, Method.bind_of_error threw]
      rfl
  | false =>
      rw [OpenCall.rejected, compare, Bool.false_or, Option.any_eq_true] at rejected
      obtain ⟨holder, dup, rejected⟩ := rejected
      have first := register_of_accepted { world with
        native := native.record .mdbTxnEnv [.txn (world.handle call.t)] }
        (mdbSetCompare_code dbi (world.handle call.t) call.answer.compare _) compare
      obtain ⟨exception, threw⟩ := register_of_rejected { world with
        native := call.compared (world.handle call.t) dbi native }
        (mdbSetDupsort_code dbi (world.handle call.t) call.answer.dupsort _) rejected
      refine ⟨exception, Native.install Native.mdbSetDupsort holder (world.handle call.t) dbi
        call.answer.dupsort (call.compared (world.handle call.t) dbi native), ?_,
        fun other different => ?_⟩
      · rw [reaches.opened_eq, Method.bind_of_ok first, finish]
        simp only [dup]
        exact Method.bind_of_error threw
      · rw [← compared other different]
        exact install_others (fun _ _ => setOrder_others _ _ _ different) _

/-- An open that gets no handle does not return, or throws and changes nothing. -/
theorem opened_of_not_reaches
    (stopped : ¬∃ text dbi native, call.Reaches world text dbi native) :
    call.opened world = none ∨
    ∃ exception native, call.opened world = some (.error exception, { world with
      native := native }) ∧ world.native.Unchanged native := by
  rw [OpenCall.opened, DatabaseTransaction.openDatabaseInternal, Method.bind_assoc,
    Method.get_bind]
  cases named : call.name with
  | none => exact .inr ⟨.argumentNull "key", world.native, rfl, .refl _⟩
  | some text =>
      cases taken : world.environment.databases.containsKey text with
      | true =>
          refine .inr ⟨.lmdbText s!"Database '{text}' exists already.", world.native, ?_, .refl _⟩
          simp only [taken, if_true]
          rfl
      | false =>
          simp only [taken, Bool.false_eq_true, if_false, Method.bind_assoc]
          by_cases live : world.handle call.t = 0
          · exact .inr ⟨_, world.native, Method.bind_of_error (checkDisposed_of_disposed live),
              .refl _⟩
          rw [Method.bind_of_ok (checkDisposed_of_live live), Method.await_bind, World.awaitNative]
          cases opened : Native.mdbDbiOpen (world.handle call.t) (runtime.marshal text) call.options
              call.answer.ret call.answer.slot world.native with
          | none => exact .inl rfl
          | some outcome =>
              by_cases succeeded : call.answer.ret = .success
              · obtain ⟨⟨ret, dbi⟩, native⟩ := outcome
                have accepted := opened
                rw [succeeded] at accepted
                obtain ⟨rfl, _⟩ := opens_mdbDbiOpen accepted
                exact absurd ⟨text, dbi, native, named, taken, live, opened⟩ stopped
              · rw [Native.mdbDbiOpen, if_neg succeeded] at opened
                cases opened
                obtain ⟨message, threw⟩ := checkRetCode_failed succeeded { world with
                  native := world.native.record .mdbDbiOpen [.txn (world.handle call.t)] }
                exact .inr ⟨_, _, Method.bind_of_error threw, Native.unchanged_record _ _ _⟩

/-- An open that returns a database got a handle, and LMDB accepted its functions. -/
theorem opened_ok {d : DbRef} {after : World runtime}
    (returned : call.opened world = some (.ok d, after)) :
    ∃ text dbi native, call.Reaches world text dbi native ∧ d = world.dbs.next ∧
      after = world.added call.t call.kind dbi text
        (call.dupCompared (world.handle call.t) dbi native) := by
  by_cases reached : ∃ text dbi native, call.Reaches world text dbi native
  · obtain ⟨text, dbi, native, reaches⟩ := reached
    cases rejected : call.rejected with
    | true =>
        obtain ⟨_, _, threw, _⟩ := reaches.opened_of_rejected rejected
        cases returned.symm.trans threw
    | false =>
        cases returned.symm.trans (reaches.opened_of_accepted rejected)
        exact ⟨text, dbi, native, reaches, rfl, rfl⟩
  · rcases opened_of_not_reaches reached with none | ⟨_, _, threw, _⟩
    · cases returned.symm.trans none
    · cases returned.symm.trans threw

end OpenCall

end KdSoftLmdb
