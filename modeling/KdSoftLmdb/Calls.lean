import KdSoftLmdb.LmdbEnvironment
import KdSoftLmdb.Library.Runs

/-!
# Calls and runs

`Op` lists the public calls on an environment and its objects, each with the
answers LMDB gives to the native calls it makes. `execute` runs one call to its
end, so a run of `Step` is a single-threaded history; a call that LMDB would not
return from with the given answers is no step.
-/

namespace KdSoftLmdb

variable {runtime : Runtime}

open LmdbEnvironment (BeginAnswer)
open Transaction (CommitAnswer)
open DatabaseTransaction (OpenAnswer)

/-- The members of `Database` and `MultiValueDatabase` that hand the handles of
a database and a transaction to one native function. -/
inductive DatabaseMember where
  | truncate | getStats | getAllOptions | getOptions | getMultiValueOptions
  | get | put | delete | compare | dupCompare
deriving DecidableEq

/-- The members of `Cursor` and its subclasses that hand its handle to one
native function. -/
inductive CursorMember where
  | get | put | delete | count | txnHandle | dbiHandle
deriving DecidableEq

/-- The public calls. `disposeTransaction` is also `Abort`, `disposeDatabase`,
`disposeCursor` and `disposeEnvironment` are also `Close`. -/
inductive Op where
  | beginTransaction (modes : TransactionModes) (parent : Option TxnRef) (answer : BeginAnswer)
  | beginReadOnlyTransaction (modes : TransactionModes) (parent : Option TxnRef)
      (answer : BeginAnswer)
  | beginDatabaseTransaction (modes : TransactionModes) (parent : Option TxnRef)
      (answer : DbRetCode)
  | commit (t : TxnRef) (answer : CommitAnswer)
  | disposeTransaction (t : TxnRef)
  | transactionId (t : TxnRef)
  | transactionEnvironment (t : TxnRef)
  | reset (t : TxnRef)
  | renew (t : TxnRef) (answer : DbRetCode)
  | openDatabase (t : TxnRef) (name : Option String) (config : Option DatabaseConfiguration)
      (answer : OpenAnswer)
  | openMultiValueDatabase (t : TxnRef) (name : Option String)
      (config : Option MultiValueDatabaseConfiguration) (answer : OpenAnswer)
  | openFixedMultiValueDatabase (t : TxnRef) (name : Option String)
      (config : Option FixedMultiValueDatabaseConfiguration) (answer : OpenAnswer)
  | disposeDatabase (d : DbRef)
  | drop (d : DbRef) (t : TxnRef) (answer : DbRetCode)
  | databaseMember (member : DatabaseMember) (d : DbRef) (t : TxnRef) (answer : DbRetCode)
  | databaseEnvironment (d : DbRef)
  | openCursor (d : DbRef) (t : TxnRef) (answer : DbRetCode)
  | disposeCursor (c : CursorRef)
  | renewCursor (c : CursorRef) (t : TxnRef) (answer : DbRetCode)
  | cursorMember (member : CursorMember) (c : CursorRef) (answer : DbRetCode)
  | disposeEnvironment (order : List TxnRef)

/-- What a call returns. -/
inductive Returned where
  | nothing
  | transaction (t : TxnRef)
  | database (d : DbRef)
  | cursor (c : CursorRef)
  | id (txnId : Nat)
  | flag (value : Bool)
deriving DecidableEq

/-- A call without a result. -/
def void (body : Call runtime Unit) : Call runtime Returned := do
  body
  pure .nothing

/-- A call with a result. -/
def returning {α : Type} (wrap : α → Returned) (body : Call runtime α) : Call runtime Returned := do
  let value ← body
  pure (wrap value)

/-- A call that returns nothing ends like its body. -/
theorem void_cases {body : Call runtime Unit} {result : Except Exception Returned}
    {world after : World runtime} (returned : void body world = some (result, after)) :
    ∃ inner, body world = some (inner, after) := by
  rcases Method.bind_eq_some_iff.mp returned with ⟨_, threw, _⟩ | ⟨_, _, ran, rest⟩
  · exact ⟨_, threw⟩
  · cases rest
    exact ⟨_, ran⟩

/-- A call that returns something ends like its body. -/
theorem returning_cases {α : Type} {wrap : α → Returned} {body : Call runtime α}
    {result : Except Exception Returned} {world after : World runtime}
    (returned : returning wrap body world = some (result, after)) :
    ∃ inner, body world = some (inner, after) ∧ result = inner.map wrap := by
  rcases Method.bind_eq_some_iff.mp returned with ⟨_, threw, rfl⟩ | ⟨_, _, ran, rest⟩
  · exact ⟨_, threw, rfl⟩
  · cases rest
    exact ⟨_, ran, rfl⟩

/-- The member that a name stands for. -/
def DatabaseMember.body (member : DatabaseMember) (d : DbRef) (t : TxnRef) (answer : DbRetCode) :
    Call runtime Returned :=
  match member with
  | .truncate => void (Database.truncate d t answer)
  | .getStats => returning .flag (Database.getStats d t answer)
  | .getAllOptions => returning .flag (Database.getAllOptions d t answer)
  | .getOptions => returning .flag (Database.getOptions d t answer)
  | .getMultiValueOptions => returning .flag (Database.getMultiValueOptions d t answer)
  | .get => returning .flag (Database.get d t answer)
  | .put => returning .flag (Database.put d t answer)
  | .delete => returning .flag (Database.delete d t answer)
  | .compare => returning .flag (Database.compare d t)
  | .dupCompare => returning .flag (Database.dupCompare d t)

/-- The member that a name stands for. -/
def CursorMember.body (member : CursorMember) (c : CursorRef) (answer : DbRetCode) :
    Call runtime Returned :=
  match member with
  | .get => returning .flag (Cursor.get c answer)
  | .put => returning .flag (Cursor.put c answer)
  | .delete => returning .flag (Cursor.delete c answer)
  | .count => returning .flag (Cursor.count c answer)
  | .txnHandle => returning .flag (Cursor.txnHandle c)
  | .dbiHandle => returning .flag (Cursor.dbiHandle c)

/-- The body of a public call. The enumeration order of a dispose is any order
of the registered transactions. -/
def Op.body : Op → Call runtime Returned
  | .beginTransaction modes parent answer =>
      returning .transaction (LmdbEnvironment.beginTransaction modes parent answer)
  | .beginReadOnlyTransaction modes parent answer =>
      returning .transaction (LmdbEnvironment.beginReadOnlyTransaction modes parent answer)
  | .beginDatabaseTransaction modes parent answer =>
      returning .transaction (LmdbEnvironment.beginDatabaseTransaction modes parent answer)
  | .commit t answer => void (Transaction.commit t answer)
  | .disposeTransaction t => void (.modify (Transaction.dispose t))
  | .transactionId t => returning .id (Transaction.getId t)
  | .transactionEnvironment t => void (Transaction.environment t)
  | .reset t => void (ReadOnlyTransaction.reset t)
  | .renew t answer => void (ReadOnlyTransaction.renew t answer)
  | .openDatabase t name config answer =>
      returning .database (DatabaseTransaction.openDatabase t name config answer)
  | .openMultiValueDatabase t name config answer =>
      returning .database (DatabaseTransaction.openMultiValueDatabase t name config answer)
  | .openFixedMultiValueDatabase t name config answer =>
      returning .database (DatabaseTransaction.openFixedMultiValueDatabase t name config answer)
  | .disposeDatabase d => void (.modify (Database.dispose d))
  | .drop d t answer => void (Database.drop d t answer)
  | .databaseMember member d t answer => member.body d t answer
  | .databaseEnvironment d => void (.modify (Database.environment d))
  | .openCursor d t answer => returning .cursor (Database.openCursor d t answer)
  | .disposeCursor c => void (.modify (Cursor.dispose c))
  | .renewCursor c t answer => void (Cursor.renew c t answer)
  | .cursorMember member c answer => member.body c answer
  | .disposeEnvironment order => fun world =>
      if order.Perm world.environment.transactions.values then
        void (.modify (LmdbEnvironment.dispose order)) world
      else none

/-- A parent argument that exists. -/
def validParent (world : World runtime) (parent : Option TxnRef) : Bool :=
  parent.all (· < world.txns.next)

/-- The call type-checks: every object it names exists and has a class that
declares the member. -/
def Op.typed (world : World runtime) : Op → Bool
  | .beginTransaction _ parent _ | .beginReadOnlyTransaction _ parent _
  | .beginDatabaseTransaction _ parent _ => validParent world parent
  | .commit t _ | .disposeTransaction t | .transactionId t | .transactionEnvironment t =>
      t < world.txns.next
  | .reset t | .renew t _ =>
      t < world.txns.next && (world.txns.obj t).kind = .readOnlyTransaction
  | .openDatabase t _ _ _ | .openMultiValueDatabase t _ _ _
  | .openFixedMultiValueDatabase t _ _ _ =>
      t < world.txns.next && (world.txns.obj t).kind = .databaseTransaction
  | .disposeDatabase d | .databaseEnvironment d => d < world.dbs.next
  | .drop d t _ | .openCursor d t _ => d < world.dbs.next && t < world.txns.next
  | .databaseMember member d t _ =>
      d < world.dbs.next && t < world.txns.next &&
        (member ≠ .getMultiValueOptions && member ≠ .dupCompare ||
          (world.dbs.obj d).kind ≠ .database)
  | .disposeCursor c => c < world.cursors.next
  | .renewCursor c t _ =>
      c < world.cursors.next && t < world.txns.next &&
        (world.txns.obj t).kind = .readOnlyTransaction
  | .cursorMember member c _ =>
      c < world.cursors.next && (member ≠ .count || (world.cursors.obj c).kind ≠ .database)
  | .disposeEnvironment _ => true

/-- Run one public call that type-checks. -/
def execute (world : World runtime) (op : Op) :
    Option (Except Exception Returned × World runtime) :=
  if op.typed world then op.body world else none

/-- One public call, whether it returns or throws. -/
def Step (world : World runtime) (op : Op) (after : World runtime) : Prop :=
  ∃ result, execute world op = some (result, after)

/-- The state after a call, for replaying a history. -/
def stepTo (world : World runtime) (op : Op) : Option (World runtime) :=
  (execute world op).map Prod.snd

/-- A step that was computed is a step. -/
theorem step_of_stepTo {world after : World runtime} {op : Op}
    (stepped : stepTo world op = some after) : Step world op after := by
  obtain ⟨⟨result, state⟩, executed, rfl⟩ := Option.map_eq_some_iff.mp stepped
  exact ⟨result, executed⟩

/-- A single-threaded history of an environment that was opened with the given
options over a file whose last snapshot is `lastTxnId`. -/
abbrev History (allowed : World runtime → Op → Prop) (flags : LmdbEnvironmentOptions)
    (lastTxnId : Nat) (ops : List Op) (world : World runtime) : Prop :=
  Run Step allowed (World.opened runtime flags lastTxnId) ops world

/-- Some history leads to this state. -/
def Reachable (world : World runtime) : Prop :=
  ∃ flags lastTxnId ops, History Always flags lastTxnId ops world

end KdSoftLmdb
