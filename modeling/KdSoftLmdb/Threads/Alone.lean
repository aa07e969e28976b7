import KdSoftLmdb.Threads.Frames

/-!
# A call without interleaving

The steps of a call, made one after the other without another thread in between,
are the sequential call. So what holds of every run of a pool of threads is
about the same code as what holds of every single-threaded history.
-/

namespace KdSoftLmdb

variable {runtime : Runtime}

open LmdbEnvironment (BeginAnswer)
open Transaction (CommitAnswer)
open DatabaseTransaction (OpenAnswer)

/-- What an open method does after `OpenDatabaseInternal`. -/
def OpenCall.finish (call : OpenCall) : Nat × IntPtr × IntPtr × String → Call runtime DbRef
  | (dbi, handle, env, name) =>
      let addNew := DatabaseTransaction.addNew call.t call.kind dbi env name
      match call.dupCompareHolder with
      | some holder =>
          DatabaseTransaction.register Native.mdbSetDupsort holder handle dbi env
            call.answer.dupsort >>= fun _ => addNew
      | none => addNew

namespace Frame

/-- Run a frame to the end of its call without another thread in between. -/
def run (steps : Nat) (frame : Frame) : Call runtime Returned := (machine runtime).alone steps frame

/-- Go on after a step. -/
def onward (steps : Nat) : Progress Frame Returned → Call runtime Returned
  | .more frame => run steps frame
  | .finish value => pure value

/-- The first step and what follows it. -/
theorem run_succ (steps : Nat) (frame : Frame) :
    (run (steps + 1) frame : Call runtime Returned) = frame.body >>= onward steps := by
  funext world
  rw [run, Machine.alone, Method.bind_apply, machine]
  dsimp only
  rw [advance]
  rcases frame.body world with _ | ⟨_ | _ | _, _⟩ <;> rfl

private theorem run_begin (modes : TransactionModes) (parent : Option TxnRef)
    (answer : BeginAnswer) :
    (run 7 (begin modes parent answer) : Call runtime Returned) =
      returning .transaction (LmdbEnvironment.beginTransaction modes parent answer) := by
  simp only [run_succ, body, returning, LmdbEnvironment.beginTransaction,
    LmdbEnvironment.beginTransactionInternal, Method.bind_assoc, Method.pure_then, onward]
  refine Method.bind_congr fun world => Method.bind_congr fun handle =>
    Method.bind_congr fun ⟨ret, txn⟩ => ?_
  simp only [Method.bind_assoc, Method.pure_then, Method.ite_bind, Method.throw_then, onward,
    run_succ, body]
  cases modes.isReadOnly <;> rfl

private theorem run_beginDatabase (modes : TransactionModes) (parent : Option TxnRef)
    (answer : DbRetCode) :
    (run 7 (beginDatabase modes parent answer) : Call runtime Returned) =
      returning .transaction (LmdbEnvironment.beginDatabaseTransaction modes parent answer) := by
  simp only [run_succ, body, returning, LmdbEnvironment.beginDatabaseTransaction,
    LmdbEnvironment.beginTransactionInternal, Method.bind_assoc, Method.pure_then, Method.ite_bind,
    Method.throw_then, onward]
  split
  · rfl
  · funext world
    rw [Method.get_bind, Method.get_bind]
    split <;> rfl

private theorem run_commit (t : TxnRef) (answer : CommitAnswer) :
    (run 7 (commit t answer) : Call runtime Returned) = void (Transaction.commit t answer) := by
  simp only [run_succ, body, void, Transaction.commit, Ending.native, Ending.forCommit,
    Method.bind_assoc, Method.pure_then, Method.ite_bind, onward]

private theorem run_dispose (t : TxnRef) :
    (run 7 (exchange t .abort) : Call runtime Returned) =
      void (.modify (Transaction.dispose t)) := by
  simp only [run_succ, body, void, Ending.native, Ending.forCommit, Method.bind_assoc,
    Method.pure_then, Method.ite_bind, onward]
  funext world
  by_cases disposed : world.handle t = 0
  · simp [Transaction.dispose, Transaction.exchange, disposed]
  · simp [Transaction.dispose, Transaction.exchange, World.callNative, disposed]

section Open

/-- A rejected comparison function ends the open; the frame for it has no other way out. -/
theorem register_then {set : Comparer → IntPtr → Nat → DbRetCode → Native → DbRetCode × Native}
    {holder : CompareHolder} {handle dbi env : Nat} {answer : DbRetCode} {α : Type}
    (next : Call runtime α) (closed : Call runtime α) :
    (DatabaseTransaction.register set holder handle dbi env answer >>= fun _ => next) =
      setComparer set (some holder) handle dbi answer >>= fun ret =>
        if ret ≠ .success then
          .modify (.onNative (Native.mdbDbiClose env dbi)) >>= fun _ =>
            checkRetCode ret >>= fun _ => closed
        else next := by
  have tail (ret : DbRetCode) :
      ((if ret ≠ .success then
          .modify (.onNative (Native.mdbDbiClose env dbi)) >>= fun _ => checkRetCode ret
        else checkRetCode ret : Call runtime Unit) >>= fun _ => next) =
        if ret ≠ .success then
          .modify (.onNative (Native.mdbDbiClose env dbi)) >>= fun _ =>
            checkRetCode ret >>= fun _ => closed
        else next := by
    funext world
    by_cases succeeded : ret = .success
    · subst succeeded
      rfl
    · rw [if_pos succeeded, if_pos succeeded]
      obtain ⟨message, threw⟩ := checkRetCode_failed succeeded
        (world.onNative (Native.mdbDbiClose env dbi))
      rw [Method.bind_assoc, Method.modify_bind, Method.modify_bind, Method.bind_of_error threw,
        Method.bind_of_error threw]
  rw [DatabaseTransaction.register, setComparer, Option.bind_some]
  cases holder.registered with
  | none => exact tail .success
  | some comparer =>
      simp only [Method.bind_assoc]
      exact Method.bind_congr tail

/-- The steps of the open calls, one after the other, are their body. -/
theorem run_open (call : OpenCall) :
    (run 7 (nameCheck call) : Call runtime Returned) = returning .database
      (DatabaseTransaction.openDatabaseInternal call.t call.name call.options call.compareHolder
        call.answer >>= call.finish) := by
  simp only [run_succ, body, returning, DatabaseTransaction.openDatabaseInternal,
    Method.bind_assoc]
  refine Method.bind_congr fun world => ?_
  cases call.name with
  | none => rfl
  | some name =>
      cases dup : call.dupCompareHolder with
      | none =>
          simp only [Method.ite_bind, Method.throw_then, Method.bind_assoc, Method.pure_then,
            onward, run_succ, body, OpenCall.afterCompare, OpenCall.finish, dup]
          split
          · rfl
          refine Method.bind_congr fun handle => Method.bind_congr fun ⟨ret, dbi⟩ => ?_
          refine Method.bind_congr fun _ => Method.bind_congr fun env => ?_
          exact (register_then _ (pure Returned.nothing)).symm
      | some holder =>
          simp only [Method.ite_bind, Method.throw_then, Method.bind_assoc, Method.pure_then,
            onward, run_succ, body, OpenCall.afterCompare, OpenCall.finish, dup]
          split
          · rfl
          refine Method.bind_congr fun handle => Method.bind_congr fun ⟨ret, dbi⟩ => ?_
          refine Method.bind_congr fun _ => Method.bind_congr fun env => ?_
          refine Eq.trans ?_ (register_then _ (pure Returned.nothing)).symm
          refine Method.bind_congr fun ret => ite_congr rfl (fun _ => rfl) fun _ => ?_
          exact (register_then _ (pure Returned.nothing)).symm

end Open

end Frame

section Alone

variable {world : World runtime} {op : Op} {frame : Frame}

/-- The steps of a call, one after the other, are its body. -/
theorem run_frame (starts : op.frame? = some frame) :
    (frame.run 7 : Call runtime Returned) = op.body := by
  cases op
  case beginTransaction =>
    cases starts
    exact Frame.run_begin _ _ _
  case beginReadOnlyTransaction =>
    cases starts
    exact Frame.run_begin _ _ _
  case beginDatabaseTransaction =>
    cases starts
    exact Frame.run_beginDatabase _ _ _
  case commit =>
    cases starts
    exact Frame.run_commit _ _
  case disposeTransaction =>
    cases starts
    exact Frame.run_dispose _
  case openDatabase t name config answer =>
    obtain ⟨config, rfl, rfl⟩ := Option.map_eq_some_iff.mp starts
    exact Frame.run_open _
  case openMultiValueDatabase t name config answer =>
    obtain ⟨config, rfl, rfl⟩ := Option.map_eq_some_iff.mp starts
    exact Frame.run_open _
  case openFixedMultiValueDatabase t name config answer =>
    obtain ⟨config, rfl, rfl⟩ := Option.map_eq_some_iff.mp starts
    exact Frame.run_open _
  all_goals cases starts

/-- Without another thread in between a call does what it does in a
single-threaded history, and does it in at most seven steps. -/
theorem alone_eq_execute (enters : (machine runtime).enter world op = some frame) :
    (machine runtime).alone 7 frame world = execute world op := by
  dsimp only [machine] at enters
  split at enters
  · rename_i typed
    rw [execute, if_pos typed]
    exact congrFun (run_frame enters) world
  · cases enters

/-- A call of a single-threaded history is a run of a pool whose other threads
are idle. -/
theorem run_of_execute {τ : Type} [DecidableEq τ] {pool : Pool τ (World runtime) Frame}
    {result : Except Exception Returned} {after : World runtime} (thread : τ)
    (idle : ∀ other, pool.frames other = none)
    (enters : (machine runtime).enter pool.shared op = some frame)
    (executed : execute pool.shared op = some (result, after)) :
    ∃ labels, Run (Pool.Step (machine runtime)) Always pool labels
      (pool.set thread none after) := by
  have entered := Pool.Step.call (idle thread) enters
  have ran : (machine runtime).alone 7 frame (pool.set thread (some frame) pool.shared).shared =
      some (result, after) := (alone_eq_execute enters).trans executed
  have others (other : τ) (different : other ≠ thread) :
      (pool.set thread (some frame) pool.shared).frames other = none := by
    rw [Pool.set_frames_of_ne _ _ _ different, idle]
  obtain ⟨labels, rest⟩ := Machine.run_of_alone ran
    (Pool.set_frames_self pool thread (some frame) pool.shared) others
  rw [Pool.set_set] at rest
  exact ⟨_, (Run.single trivial entered).trans rest⟩

end Alone

end KdSoftLmdb
