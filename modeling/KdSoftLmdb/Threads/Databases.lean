import KdSoftLmdb.Library.Sums
import KdSoftLmdb.Threads.Persists

/-!
# Dropping, disposing and looking up databases as sequences of steps

`Drop` and `Dispose` of a database end in its callback, which takes `dbLock` of
the transaction that still lists the database as new, or `dbTxnLock`. The
callback is read before the lock is taken. The indexer and `Databases` are one
block under `dbTxnLock` each.
-/

namespace KdSoftLmdb

variable {runtime : Runtime}

/-- The calls on databases that may take `dbTxnLock`. `indexer` has a key that may be null. -/
inductive DatabaseCall where
  | drop (d : DbRef) (t : TxnRef) (answer : DbRetCode)
  | dispose (d : DbRef)
  | indexer (name : Option String)
  | databases

/-- What these calls return. `database none` is the indexer's `KeyNotFoundException`,
`databases` the live view `databases.Values`. -/
inductive DatabaseReturned where
  | nothing
  | database (d : Option DbRef)
  | databases
deriving DecidableEq

/-- The point that a thread has reached in such a call, with the values read so far. -/
inductive DatabaseFrame where
  -- Database.Drop
  | drop (d : DbRef) (t : TxnRef) (answer : DbRetCode)
  | mdbDrop (d : DbRef) (t : TxnRef) (handle : Nat) (answer : DbRetCode)
  | clearHandle (d : DbRef)
  -- Database.Dispose
  | exchange (d : DbRef)
  | mdbDbiClose (d : DbRef) (handle : Nat)
  -- the callback of both
  | disposed (d : DbRef)
  | newDatabaseDisposed (t : TxnRef) (d : DbRef)
  | databaseDisposed (d : DbRef)
  -- the views of the environment
  | indexer (name : Option String)
  | databases

namespace DatabaseFrame

/-- The next step of a frame: the frame after it, or the result of the call. -/
def body : DatabaseFrame → Call runtime (Progress DatabaseFrame DatabaseReturned)
  | drop d t answer => do
      let handle ← Database.checkDisposed d
      pure (.more (mdbDrop d t handle answer))
  | mdbDrop d t handle answer => do
      let world ← .get
      let ret ← .await (World.awaitNative (Native.mdbDrop (world.handle t) handle true answer))
      checkRetCode ret
      pure (.more (clearHandle d))
  | clearHandle d => do
      .modify (.onDb d Database.clearHandle)
      pure (.more (disposed d))
  | exchange d => do
      let handle ← .call (Database.exchange d)
      if handle ≠ 0 then pure (.more (mdbDbiClose d handle)) else pure (.finish .nothing)
  | mdbDbiClose d handle => do
      let world ← .get
      .modify (.onNative (Native.mdbDbiClose (world.dbs.obj d).env handle))
      pure (.more (disposed d))
  | disposed d => do
      let world ← .get
      match (world.dbs.obj d).disposed with
      | .newDatabaseDisposed t => pure (.more (newDatabaseDisposed t d))
      | .databaseDisposed => pure (.more (databaseDisposed d))
  | newDatabaseDisposed t d => do
      .modify (DatabaseTransaction.newDatabaseDisposed t d)
      pure (.finish .nothing)
  | databaseDisposed d => do
      .modify (LmdbEnvironment.databaseDisposed d)
      pure (.finish .nothing)
  | indexer name => do
      let world ← .get
      match name with
      | none => .throw (.argumentNull "key")
      | some name => pure (.finish (.database (world.environment.databases.find? name)))
  | databases => pure (.finish .databases)

/-- An exception ends the call like a result does. -/
def settle : Except Exception (Progress DatabaseFrame DatabaseReturned) →
    Progress DatabaseFrame (Except Exception DatabaseReturned)
  | .ok (.more frame) => .more frame
  | .ok (.finish value) => .finish (.ok value)
  | .error exception => .finish (.error exception)

/-- One step of a frame. -/
def advance (frame : DatabaseFrame) (world : World runtime) :
    Option (Progress DatabaseFrame (Except Exception DatabaseReturned) × World runtime) :=
  (frame.body world).map fun outcome => (settle outcome.1, outcome.2)

/-- The lock that the next step takes. -/
def needs : DatabaseFrame → Option Frame.Lock
  | newDatabaseDisposed t _ => some (.dbLock t)
  | databaseDisposed _ | indexer _ | databases => some .dbTxnLock
  | _ => none

end DatabaseFrame

/-- The first frame of a call. -/
def DatabaseCall.frame : DatabaseCall → DatabaseFrame
  | drop d t answer => .drop d t answer
  | dispose d => .exchange d
  | indexer name => .indexer name
  | databases => .databases

/-- Every object that the call names exists. -/
def DatabaseCall.typed (world : World runtime) : DatabaseCall → Bool
  | drop d t _ => d < world.dbs.next && t < world.txns.next
  | dispose d => d < world.dbs.next
  | indexer _ | databases => true

/-- The calls on databases as a machine. -/
def databaseMachine (runtime : Runtime) : Machine (World runtime) DatabaseFrame DatabaseCall
    (Except Exception DatabaseReturned) Frame.Lock where
  enter world call := if call.typed world then some call.frame else none
  advance := DatabaseFrame.advance
  needs _ := DatabaseFrame.needs
  holds _ := none

section Alone

namespace DatabaseFrame

/-- Run a frame to the end of its call without another thread in between. -/
def run (steps : Nat) (frame : DatabaseFrame) : Call runtime DatabaseReturned :=
  (databaseMachine runtime).alone steps frame

/-- Go on after a step. -/
def onward (steps : Nat) : Progress DatabaseFrame DatabaseReturned → Call runtime DatabaseReturned
  | .more frame => run steps frame
  | .finish value => pure value

/-- The first step and what follows it. -/
theorem run_succ (steps : Nat) (frame : DatabaseFrame) :
    (run (steps + 1) frame : Call runtime DatabaseReturned) = frame.body >>= onward steps := by
  funext world
  rw [run, Machine.alone, Method.bind_apply, databaseMachine]
  dsimp only
  rw [advance]
  rcases frame.body world with _ | ⟨_ | _ | _, _⟩ <;> rfl

/-- The callback is read in one step and invoked in the next. -/
theorem run_disposed (d : DbRef) (world : World runtime) :
    run 2 (disposed d) world = some (.ok .nothing, Database.invokeDisposed d world) := by
  rw [run_succ, body, Method.bind_assoc, Method.get_bind, Database.invokeDisposed]
  cases (world.dbs.obj d).disposed <;> rfl

/-- The steps of `Drop`, one after the other, are its body. -/
theorem run_drop (d : DbRef) (t : TxnRef) (answer : DbRetCode) :
    (run 5 (drop d t answer) : Call runtime DatabaseReturned) =
      Database.drop d t answer >>= fun _ => pure .nothing := by
  simp only [run_succ 4, run_succ 3, body, Database.drop, Method.bind_assoc, Method.pure_then,
    onward]
  refine Method.bind_congr fun handle => Method.bind_congr fun world =>
    Method.bind_congr fun ret => Method.bind_congr fun _ => ?_
  funext world
  rw [run_succ, body, Method.bind_assoc, Method.modify_bind]
  exact run_disposed d _

/-- The steps of `Dispose`, one after the other, are its body. -/
theorem run_dispose (d : DbRef) (world : World runtime) :
    run 4 (exchange d) world = some (.ok .nothing, Database.dispose d world) := by
  rw [run_succ, body, Method.bind_assoc, Method.call_bind, Database.dispose]
  by_cases live : (Database.exchange d world).1 ≠ 0
  · rw [if_pos live]
    dsimp only
    rw [if_pos live]
    exact run_disposed d _
  · rw [if_neg live]
    dsimp only
    rw [if_neg live]
    rfl

end DatabaseFrame

end Alone

section Persists

open Method

variable {world after : World runtime} {frame : DatabaseFrame}
  {progress : Progress DatabaseFrame (Except Exception DatabaseReturned)}

private theorem mdbDrop_txns {native left : Native} {txn : IntPtr} {dbi : Nat} {del : Bool}
    {ret code : DbRetCode} (returned : native.mdbDrop txn dbi del ret = some (code, left)) :
    left.txns = native.txns := by
  unfold Native.mdbDrop at returned
  dsimp only at returned
  repeat' split at returned
  all_goals cases returned
  all_goals rfl

/-- Only the callback of a new database changes a transaction object, and no step
changes a native transaction or closes the environment. -/
theorem keeps_databaseFrame (other : ∀ t d, frame ≠ .newDatabaseDisposed t d) :
    Keeps (fun world : World runtime => (world.txns, world.native.txns, world.environment.env))
      frame.body := by
  cases frame with
  | newDatabaseDisposed => exact absurd rfl (other _ _)
  | drop =>
      refine Keeps.bind (.get_bind fun world => ?_) fun handle => keeps_pure _
      dsimp only
      split
      · exact keeps_throw _
      · exact keeps_pure _
  | mdbDrop =>
      refine .get_bind fun world => Keeps.bind (keeps_await fun state value left ran => ?_) fun ret =>
        Keeps.bind ?_ fun _ => keeps_pure _
      · obtain ⟨⟨_, native⟩, returned, equal⟩ := Option.map_eq_some_iff.mp ran
        cases equal
        exact congrArg (fun txns => (state.txns, txns, state.environment.env)) (mdbDrop_txns returned)
      · intro state result left checked
        rw [checkRetCode_after checked]
  | clearHandle =>
      refine Keeps.bind (keeps_modify ?_) fun _ => keeps_pure _
      exact fun _ => rfl
  | exchange =>
      refine Keeps.bind (keeps_call ?_) fun handle => ?_
      · exact fun _ => rfl
      · split <;> exact keeps_pure _
  | mdbDbiClose =>
      refine .get_bind fun world => Keeps.bind (keeps_modify ?_) fun _ => keeps_pure _
      exact fun _ => rfl
  | disposed =>
      refine .get_bind fun world => ?_
      split <;> exact keeps_pure _
  | databaseDisposed =>
      refine Keeps.bind (keeps_modify ?_) fun _ => keeps_pure _
      exact fun _ => rfl
  | indexer =>
      refine .get_bind fun world => ?_
      split
      · exact keeps_throw _
      · exact keeps_pure _
  | databases => exact keeps_pure _

/-- No step of these calls begins or ends a transaction. -/
theorem databaseAdvance_keeps
    (stepped : (databaseMachine runtime).advance frame world = some (progress, after)) :
    after.native.txns = world.native.txns ∧ Persists world after ∧
      ∀ t, after.handle t = world.handle t := by
  obtain ⟨⟨outcome, _⟩, returned, equal⟩ := Option.map_eq_some_iff.mp stepped
  cases equal
  by_cases callback : ∃ t d, frame = .newDatabaseDisposed t d
  · obtain ⟨t, d, rfl⟩ := callback
    cases returned
    refine ⟨rfl, .of_modify (World.onTxn_txns t _ world) rfl (fun _ => ⟨rfl, rfl⟩) rfl, fun u => ?_⟩
    rw [World.handle, DatabaseTransaction.newDatabaseDisposed, World.onTxn_txns, Heap.modify_obj]
    split <;> rfl
  · have kept := keeps_databaseFrame (fun t d equal => callback ⟨t, d, equal⟩) _ _ _ returned
    injection kept with txns kept
    injection kept with native env
    refine ⟨native, .of_eq (congrArg Heap.next txns) (fun u => ?_) native env, fun u => ?_⟩
    · rw [World.nativeTxn, World.isDatabaseTransaction, txns]
      exact ⟨rfl, rfl⟩
    · rw [World.handle, txns, World.handle]

/-- Only the step that reads the callback leads before `dbTxnLock`. -/
theorem gives_databaseFrame (other : ∀ d, frame ≠ .disposed d) : Gives (fun progress =>
    ∀ next, progress = .more next → next.needs ≠ some .dbTxnLock)
      (frame.body : Call runtime (Progress DatabaseFrame DatabaseReturned)) := by
  have leads {next : DatabaseFrame} (free : next.needs = none) :
      ∀ following, (.more next : Progress DatabaseFrame DatabaseReturned) = .more following →
        following.needs ≠ some .dbTxnLock := by
    rintro _ ⟨⟩
    rw [free]
    nofun
  cases frame with
  | disposed d => exact absurd rfl (other d)
  | drop | clearHandle => exact gives_bind fun _ => gives_pure (leads rfl)
  | mdbDbiClose => exact gives_bind fun _ => gives_bind fun _ => gives_pure (leads rfl)
  | mdbDrop =>
      exact gives_bind fun _ => gives_bind fun _ => gives_bind fun _ => gives_pure (leads rfl)
  | exchange =>
      refine gives_bind fun handle => ?_
      split
      · exact gives_pure (leads rfl)
      · exact gives_pure nofun
  | newDatabaseDisposed | databaseDisposed => exact gives_bind fun _ => gives_pure nofun
  | indexer =>
      refine gives_bind fun world => ?_
      split
      · exact gives_throw _
      · exact gives_pure nofun
  | databases => exact gives_pure nofun

/-- The callback of a committed database is the only one that comes before `dbTxnLock`. -/
theorem disposed_of_needs {next : DatabaseFrame}
    (stepped : (databaseMachine runtime).advance frame world = some (.more next, after))
    (needs : next.needs = some .dbTxnLock) :
    ∃ d, frame = .disposed d ∧ (world.dbs.obj d).disposed = .databaseDisposed := by
  obtain ⟨⟨outcome, _⟩, returned, equal⟩ := Option.map_eq_some_iff.mp stepped
  cases outcome with
  | error => cases equal
  | ok taken =>
      cases taken with
      | finish => cases equal
      | more following =>
          cases equal
          by_cases callback : ∃ d, frame = .disposed d
          · obtain ⟨d, rfl⟩ := callback
            refine ⟨d, rfl, ?_⟩
            rw [DatabaseFrame.body, Method.get_bind] at returned
            cases kind : (world.dbs.obj d).disposed with
            | databaseDisposed => rfl
            | newDatabaseDisposed t =>
                rw [kind] at returned
                cases returned
                cases needs
          · exact absurd needs (gives_databaseFrame (fun d equal => callback ⟨d, equal⟩)
              _ _ _ returned next rfl)

end Persists

end KdSoftLmdb
