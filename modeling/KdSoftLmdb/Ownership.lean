import KdSoftLmdb.Invariants.Slots
import KdSoftLmdb.Session

/-!
# Databases of nested transactions

LMDB hands a database that was opened in a nested transaction up one level at a
time. The wrapper promotes it into the registry when the nested transaction
commits, whatever becomes of the ancestors; when one of them aborts, the
registry keeps a database whose handle LMDB has closed. The two agree as long as
new databases are only committed by transactions with no ancestor left to commit.
-/

namespace KdSoftLmdb

variable {runtime : Runtime}

/-- The database handle is open in the shared environment, under the database's name. -/
def World.SharedOpen (world : World runtime) (d : DbRef) : Prop :=
  world.native.closed = false ∧
    ∃ slot, world.slot d = some slot ∧ slot.name = world.marshalled d ∧ slot.owner = 0

/-- The registry only holds databases whose transaction and all its ancestors
were committed, with handles that are open in the shared environment; and a
database with an aborted ancestor is disposed. -/
structure NestedSettled (world : World runtime) : Prop where
  committed : ∀ entry ∈ world.registry, world.fate (world.openedIn entry.2) = .committed ∧
    ∀ u, world.Descends (world.openedIn entry.2) u → world.fate u = .committed
  rolledBack : ∀ d u, world.Descends (world.openedIn d) u → world.fate u = .aborted →
    Database.isDisposed world d = true
  shared : ∀ entry ∈ world.registry, world.SharedOpen entry.2

private theorem SlotsSound.nestedSettled {world : World runtime} (sound : SlotsSound world) :
    NestedSettled world := by
  have transactions := sound.nesting.sound.transactions
  have registered {entry : String × DbRef} (member : entry ∈ world.registry) :
      world.dbi entry.2 ≠ 0 ∧ ∀ t, world.callback entry.2 ≠ .newDatabaseDisposed t := by
    obtain ⟨open', _, callback⟩ := sound.nesting.sound.databases.registered entry member
    exact ⟨open', fun t new => by cases callback.symm.trans new⟩
  refine ⟨fun entry member => ?_, fun d u descends aborted => ?_, fun entry member => ?_⟩
  · obtain ⟨open', promoted⟩ := registered member
    rcases (sound.settled entry.2 open').2 with ⟨new, _⟩ | ⟨committed, all⟩
    · exact absurd new (promoted _)
    · exact ⟨committed, fun u descends => all u (transactions.mem_ancestors_iff.mpr descends)⟩
  · by_contra undisposed
    have open' : world.dbi d ≠ 0 := by simpa [Database.isDisposed] using undisposed
    have member := transactions.mem_ancestors_iff.mpr descends
    rcases (sound.settled d open').2 with ⟨_, _, unaborted⟩ | ⟨_, all⟩
    · exact unaborted u member aborted
    · cases (all u member).symm.trans aborted
  · obtain ⟨open', promoted⟩ := registered member
    obtain ⟨slot, content, named, owner⟩ := sound.filled entry.2 open'
    refine ⟨?_, slot, content, named, owner.resolve_right fun ⟨t, new, _⟩ => promoted t new⟩
    cases closed : world.native.closed with
    | false => rfl
    | true =>
        rw [(sound.shut closed).2] at member
        cases member

/-- While the calls settle, the registry follows the ownership of LMDB's
handles in every state. -/
theorem nested_settled {flags : LmdbEnvironmentOptions} {lastTxnId : Nat} {ops : List Op}
    {world : World runtime} (history : History Settles flags lastTxnId ops world) :
    NestedSettled world :=
  (SlotsSound.of_history history).nestedSettled

/-- A nested transaction is rolled back; another one is begun under the same
parent after that has committed, and commits its database. -/
def settlingHistory : List Op :=
  [.beginTransaction .none none ⟨.success, .success⟩,
    .beginDatabaseTransaction .none (some 0) .success, plainOpen 1 "a" 2, .disposeTransaction 1,
    .commit 0 ⟨.success, true⟩, .beginDatabaseTransaction .none (some 0) .success,
    plainOpen 2 "b" 2, .commit 2 ⟨.success, true⟩]

/-- The database of a transaction that was begun under a parent which had committed. -/
theorem nested_settled_parent : ∃ world : World .ascii,
    History Settles .none 0 settlingHistory world ∧ world.registry = [("b", 1)] ∧
    world.parent (world.openedIn 1) = some 0 ∧ world.fate 0 = .committed ∧ world.dbi 0 = 0 ∧
    NestedSettled world := by
  obtain ⟨world, history, registry, parent, fate, dbi⟩ := history_of_replay Settles .none 0
    settlingHistory (fun world : World .ascii => world.registry = [("b", 1)] ∧
      world.parent (world.openedIn 1) = some 0 ∧ world.fate 0 = .committed ∧ world.dbi 0 = 0)
    (by decide +kernel)
  exact ⟨world, history, registry, parent, fate, dbi, nested_settled history⟩

/-- A database of a nested transaction that commits before its parent aborts. -/
def promotedEarly : List Op :=
  [.beginTransaction .none none ⟨.success, .success⟩,
    .beginDatabaseTransaction .none (some 0) .success, plainOpen 1 "a" 2,
    .commit 1 ⟨.success, true⟩]

/-- The database enters the registry while its parent is live; after the parent's
abort it is still registered and not disposed, and LMDB has closed its handle. -/
theorem promoted_before_parent : ∃ world after : World .ascii,
    History Always .none 0 promotedEarly world ∧ world.registry = [("a", 0)] ∧
    world.parent (world.openedIn 0) = some 0 ∧ world.handle 0 ≠ 0 ∧ ¬NestedSettled world ∧
    Step world (.disposeTransaction 0) after ∧ after.fate 0 = .aborted ∧
    after.registry = [("a", 0)] ∧ Database.isDisposed after 0 = false ∧ after.slot 0 = none ∧
    ¬NestedSettled after := by
  obtain ⟨world, history, registry, parent, live, fate, ended⟩ := history_of_replay Always .none 0
    promotedEarly (fun world : World .ascii => world.registry = [("a", 0)] ∧
      world.parent (world.openedIn 0) = some 0 ∧ world.handle 0 ≠ 0 ∧ world.fate 0 = .live ∧
      ((stepTo world (.disposeTransaction 0)).any fun after => decide (after.fate 0 = .aborted ∧
        after.registry = [("a", 0)] ∧ Database.isDisposed after 0 = false ∧
        after.slot 0 = none)) = true) (by decide +kernel)
  obtain ⟨after, stepped, observed⟩ := (Option.any_eq_true _ _).mp ended
  obtain ⟨aborted, kept, undisposed, closed⟩ := of_decide_eq_true observed
  refine ⟨world, after, history, registry, parent, live, fun settled => ?_, step_of_stepTo stepped,
    aborted, kept, undisposed, closed, fun settled => ?_⟩
  · have member : ("a", 0) ∈ world.registry := registry ▸ List.mem_singleton_self _
    cases fate.symm.trans ((settled.committed _ member).2 0 (.single parent))
  · have member : ("a", 0) ∈ after.registry := kept ▸ List.mem_singleton_self _
    obtain ⟨_, slot, content, _⟩ := settled.shared _ member
    cases closed.symm.trans content

end KdSoftLmdb
