import KdSoftLmdb.Exclusion
import KdSoftLmdb.Registration

/-!
# What `Dispose` of the environment relies on

`Dispose` knows transactions from their registry, new databases from their
transaction and committed databases from theirs. `Orderly` is how the calls must
be made for these to be complete, and `ShutdownSound` says that they are: every
live plain or read-only transaction is registered, every native transaction is
held by an object, and a database that is still private belongs to a live
transaction.
-/

namespace KdSoftLmdb

variable {runtime : Runtime}

open LmdbEnvironment (BeginAnswer)

/-- The entry under the transaction's present id, if there is one, is its own. -/
def World.KeepsEntries (world : World runtime) (t : TxnRef) : Prop :=
  world.handle t = 0 ∨ world.isDatabaseTransaction t = true ∨
    world.environment.transactions.find? (world.txnId t) = some t ∨
    world.environment.transactions.find? (world.txnId t) = none

instance (world : World runtime) (t : TxnRef) : Decidable (world.KeepsEntries t) :=
  inferInstanceAs (Decidable (_ ∨ _ ∨ _ ∨ _))

/-- The promotion loop of a commit comes through. -/
def World.PromotesAll (world : World runtime) (t : TxnRef) : Prop :=
  world.DistinctNames t ∧ ∀ d ∈ world.newDatabases t,
    world.environment.databases.containsKey (world.dbName d) = false

instance (world : World runtime) (t : TxnRef) : Decidable (world.PromotesAll t) := by
  unfold World.PromotesAll World.DistinctNames
  infer_instance

/-- With different names, none of them registered, the promotion comes through. -/
theorem committed_of_promotesAll {world : World runtime} {t : TxnRef}
    (promotes : world.isDatabaseTransaction t = true → world.PromotesAll t) :
    ∃ after, Transaction.committed t world = some (.ok (), after) := by
  rcases committed_cases t world with ⟨_, plain⟩ | ⟨database, same⟩
  · exact ⟨_, plain⟩
  obtain ⟨distinct, free⟩ := promotes database
  obtain ⟨result, done, rest, middle, list, promoted, ran, outcome⟩ :=
    databaseCommitted_cases t world
  rw [same, ran]
  rcases outcome with ⟨rfl, _⟩ | ⟨_, d, others, _, rfl, taken⟩
  · exact ⟨_, rfl⟩
  · -- the name at which the loop stopped was registered, or promoted before it
    have member : d ∈ world.newDatabases t := by
      rw [World.newDatabases, list]
      exact List.mem_append_right _ List.mem_cons_self
    obtain ⟨entry, registered, equal⟩ := Dictionary.containsKey_iff.mp taken
    obtain ⟨databases, entries, rfl⟩ := promoted
    rw [entries, List.mem_append] at registered
    rcases registered with old | new
    · have before : world.environment.databases.containsKey (world.dbs.obj d).name = true :=
        Dictionary.containsKey_iff.mpr ⟨entry, old, equal⟩
      cases before.symm.trans (free d member)
    · obtain ⟨earlier, named⟩ := DatabasesSound.mem_entriesOf.mp new
      rw [World.DistinctNames, World.newDatabases, list, List.pairwise_append] at distinct
      exact absurd (named ▸ equal) (distinct.2.2 entry.2 earlier d List.mem_cons_self)

/-- Calls that keep the registries complete. -/
def Registered (world : World runtime) : Op → Prop
  | .beginTransaction modes parent answer =>
      world.environment.env = 0 ∨ world.ReaderFree modes parent answer
  | .beginReadOnlyTransaction modes parent answer =>
      world.environment.env = 0 ∨ world.ReaderFree (modes ||| .readOnly) parent answer
  | .commit t answer => world.KeepsEntries t ∧ (world.handle t = 0 ∨
      if answer.ret = .success then world.PromotesAll t else world.newDatabases t = [])
  | .disposeTransaction t => world.KeepsEntries t
  | .databaseEnvironment _ => world.environment.env ≠ 0
  | .disposeEnvironment _ => world.NoDatabaseTransaction ∧
      ∀ t ∈ world.environment.transactions.values, world.KeepsEntries t
  | _ => True

/-- Calls that keep the registries complete and end leaves only. -/
def Orderly (world : World runtime) (op : Op) : Prop := EndsLeaves world op ∧ Registered world op

instance : ∀ (world : World runtime) (op : Op), Decidable (Registered world op) := by
  intro world op
  apply op.casesOn (motive := fun op => Decidable (Registered world op)) <;> intros <;>
    unfold Registered <;> infer_instance

instance (world : World runtime) (op : Op) : Decidable (Orderly world op) :=
  inferInstanceAs (Decidable (_ ∧ _))

/-- Every transaction that was begun and is not live was ended exactly once. -/
def Native.EndedOnce (native : Native) : Prop :=
  ∀ txn, 0 < txn → txn < native.txns.next →
    (native.txns.obj txn).ends = if native.live txn then 0 else 1

namespace Native.EndedOnce

variable {native after : Native}

private theorem of_eq (once : native.EndedOnce) (next : after.txns.next = native.txns.next)
    (live : ∀ txn, after.live txn = native.live txn)
    (ends : ∀ txn, (after.txns.obj txn).ends = (native.txns.obj txn).ends) : after.EndedOnce := by
  intro txn positive known
  rw [ends, live]
  exact once txn positive (next ▸ known)

private theorem ended (once : native.EndedOnce) (ending : Ending) {root : IntPtr}
    (alive : native.live root = true) : (ending.native root native).EndedOnce := by
  intro txn positive known
  rw [Native.ended_next] at known
  rw [Native.ends_ended ending native alive, Native.live_ended, once txn positive known]
  cases native.live txn <;> cases native.within txn root <;> rfl

private theorem begun {world : World runtime} {modes : TransactionModes} {parent : Option TxnRef}
    (once : world.native.EndedOnce) (begins : Begins world modes parent native) :
    native.EndedOnce := by
  have txns := begins.state.txns
  intro txn positive known
  rw [Native.live, txns, Heap.alloc_obj]
  by_cases same : txn = world.native.txns.next
  · rw [if_pos same]
    rfl
  · rw [txns] at known
    rw [if_neg same]
    exact once txn positive (Nat.lt_of_le_of_ne (Nat.le_of_lt_succ known) same)

end Native.EndedOnce

/-- What holds of every state of an orderly history. -/
structure ShutdownSound (world : World runtime) : Prop where
  nesting : NestingSound world
  listed : ∀ t, world.handle t ≠ 0 → world.isDatabaseTransaction t = false →
    t ∈ world.environment.transactions.values
  held : ∀ txn, world.native.live txn = true → ∃ t, world.handle t = txn
  once : world.native.EndedOnce
  pending : ∀ d t, world.dbi d ≠ 0 → world.callback d = .newDatabaseDisposed t →
    world.handle t ≠ 0
  shut : world.environment.env = 0 → (∀ t, world.handle t = 0) ∧ ∀ d, world.dbi d = 0

namespace ShutdownSound

variable {world after : World runtime} {op : Op}

/-- A step that begins and ends nothing, and opens databases in live transactions. -/
theorem quiet (sound : ShutdownSound world) (nesting : NestingSound after)
    (handle : ∀ t, after.handle t = world.handle t)
    (kind : ∀ t, after.isDatabaseTransaction t = world.isDatabaseTransaction t)
    (transactions : after.environment.transactions = world.environment.transactions)
    (env : after.environment.env = world.environment.env)
    (live : ∀ txn, after.native.live txn = true → world.native.live txn = true)
    (once : after.native.EndedOnce)
    (dbs : ∀ d, after.dbi d ≠ 0 →
      (∃ t, after.callback d = .newDatabaseDisposed t ∧ world.handle t ≠ 0) ∨
      world.dbi d ≠ 0 ∧ after.callback d = world.callback d) : ShutdownSound after where
  nesting := nesting
  listed t alive plain := by
    rw [handle] at alive
    rw [kind] at plain
    rw [transactions]
    exact sound.listed t alive plain
  held txn alive := by
    obtain ⟨t, holds⟩ := sound.held txn (live txn alive)
    exact ⟨t, (handle t).trans holds⟩
  once := once
  pending d t open' callback := by
    rw [handle]
    rcases dbs d open' with ⟨u, new, alive⟩ | ⟨before, same⟩
    · cases callback.symm.trans new
      exact alive
    · exact sound.pending d t before (same ▸ callback)
  shut closed := by
    rw [env] at closed
    obtain ⟨handles, dbis⟩ := sound.shut closed
    refine ⟨fun t => (handle t).trans (handles t), fun d => ?_⟩
    by_contra open'
    rcases dbs d open' with ⟨u, _, alive⟩ | ⟨before, _⟩
    · exact alive (handles u)
    · exact before (dbis d)

private theorem begun (sound : ShutdownSound world) {kind : TransactionKind}
    {modes : TransactionModes}
    {parent : Option TxnRef} {registry : Dictionary (id : IntPtr → IntPtr) TxnRef}
    {native : Native} (begins : Begins world modes parent native)
    (nesting : NestingSound (world.begun kind parent registry native))
    (kept : ∀ t ∈ world.environment.transactions.values, t ∈ registry.values)
    (added : kind ≠ .databaseTransaction → world.txns.next ∈ registry.values) :
    ShutdownSound (world.begun kind parent registry native) := by
  have oldHandle {t : TxnRef} (live : world.handle t ≠ 0) :
      (world.begun kind parent registry native).handle t = world.handle t :=
    begun_handle_of_ne (Nat.ne_of_lt (sound.nesting.sound.transactions.bound live))
  refine ⟨nesting, fun t live plain => ?_, fun txn live => ?_, sound.once.begun begins,
    fun d t open' callback => ?_, fun closed => absurd closed begins.opened⟩
  · by_cases same : t = world.txns.next
    · rw [World.isDatabaseTransaction, same, begun_txn_new] at plain
      rw [same]
      exact added (of_decide_eq_false plain)
    · rw [World.handle, begun_txn_of_ne same] at live
      rw [World.isDatabaseTransaction, begun_txn_of_ne same] at plain
      exact kept t (sound.listed t live plain)
  · rw [begun_native, Native.live, begins.state.txns, Heap.alloc_obj] at live
    by_cases same : txn = world.native.txns.next
    · exact ⟨world.txns.next, begun_handle_new.trans same.symm⟩
    · rw [if_neg same] at live
      obtain ⟨t, holds⟩ := sound.held txn live
      have positive := Nat.ne_of_gt (sound.nesting.sound.natives.txns txn live).1
      exact ⟨t, (oldHandle (holds ▸ positive)).trans holds⟩
  · have alive := sound.pending d t open' callback
    rw [oldHandle alive]
    exact alive

/-- No entry but its own goes when a transaction ends. -/
theorem listed_closing {t u : TxnRef} {ending : Ending} (live : world.handle t ≠ 0)
    (keeps : world.KeepsEntries t) (member : u ∈ world.environment.transactions.values)
    (different : u ≠ t) : u ∈ (closing t ending world).environment.transactions.values := by
  rw [closing_environment]
  split
  · exact member
  · rename_i plain
    obtain ⟨key, entry⟩ := Dictionary.mem_values.mp member
    refine Dictionary.mem_values.mpr ⟨key, Dictionary.mem_remove.mpr ⟨entry, fun same => ?_⟩⟩
    have found := Dictionary.find?_eq_some_of_mem entry same
    rcases (keeps.resolve_left live).resolve_left plain with own | none
    · exact different (Option.some.inj (found.symm.trans own))
    · cases found.symm.trans none

private theorem ended (sound : ShutdownSound world) {t : TxnRef} {ending : Ending}
    (live : world.handle t ≠ 0) (keeps : world.KeepsEntries t)
    (leaves : EndsAs t ending world after) (nesting : NestingSound after)
    (dbs : ∀ d u, after.dbi d ≠ 0 → after.callback d = .newDatabaseDisposed u →
      world.dbi d ≠ 0 ∧ world.callback d = .newDatabaseDisposed u ∧ u ≠ t) :
    ShutdownSound after := by
  have survivor {u : TxnRef} (alive : after.handle u ≠ 0) : u ≠ t ∧ world.handle u ≠ 0 :=
    survives_of_handle leaves.handle alive
  have alive := sound.nesting.tree.alive t live
  have recorded : (world.native.record .mdbTxnId [.txn (world.handle t)]).EndedOnce := sound.once
  refine ⟨nesting, fun u alive plain => ?_, fun txn alive => ?_, ?_, fun d u open' callback => ?_,
    fun closed => ?_⟩
  · obtain ⟨different, alive⟩ := survivor alive
    rw [World.isDatabaseTransaction, (leaves.same.object u).kind] at plain
    rw [leaves.transactions]
    exact listed_closing live keeps (sound.listed u alive plain) different
  · rw [leaves.native] at alive
    obtain ⟨u, different, holds⟩ := holder_of_closing sound.held alive
    exact ⟨u, by rw [leaves.handle, if_neg different, holds]⟩
  · rw [leaves.native, closing_native]
    exact recorded.ended ending alive
  · obtain ⟨before, same, different⟩ := dbs d u open' callback
    rw [leaves.handle, if_neg different]
    exact sound.pending d u before same
  · rw [leaves.env] at closed
    exact absurd ((sound.shut closed).1 t) live

/-- The databases that an end leaves open, if it keeps the conditions. -/
theorem closed_dbs (sound : ShutdownSound world) {t : TxnRef} {ending : Ending}
    (empty : ending.forCommit = true → world.newDatabases t = []) (d : DbRef) (u : TxnRef)
    (open' : (closing t ending world).dbi d ≠ 0)
    (callback : (closing t ending world).callback d = .newDatabaseDisposed u) :
    world.dbi d ≠ 0 ∧ world.callback d = .newDatabaseDisposed u ∧ u ≠ t := by
  rw [DatabasesSound.closing_callback] at callback
  rw [DatabasesSound.closing_dbi] at open'
  split at open'
  · exact (open' rfl).elim
  · rename_i kept
    refine ⟨open', callback, ?_⟩
    rintro rfl
    have listed := sound.nesting.sound.databases.listed d u open' callback
    cases database : world.isDatabaseTransaction u with
    | false =>
        rw [sound.nesting.sound.databases.plain u database] at listed
        cases listed
    | true =>
        cases commits : ending.forCommit with
        | true =>
            rw [empty commits] at listed
            cases listed
        | false =>
            refine kept ?_
            rw [discarded, database, commits]
            exact listed

/-- The state of the loop in `Dispose` before it comes to the transactions in
`rest`: every live transaction is among them and still registered. -/
structure Emptying (world : World runtime) (rest : List TxnRef) (current : World runtime) :
    Prop where
  nesting : NestingSound current
  plain : ∀ t, current.handle t ≠ 0 → current.isDatabaseTransaction t = false
  ahead : ∀ t, current.handle t ≠ 0 → t ∈ rest ∧ t ∈ current.environment.transactions.values
  leaves : ∀ t, current.handle t ≠ 0 → current.Leaf t ∧ current.KeepsEntries t
  held : ∀ txn, current.native.live txn = true → ∃ t, current.handle t = txn
  once : current.native.EndedOnce
  dbs : current.dbs = world.dbs

private theorem keepsEntries_closing {t u : TxnRef} {ending : Ending} (different : u ≠ t)
    (keeps : world.KeepsEntries u) : (closing t ending world).KeepsEntries u := by
  have handle : (closing t ending world).handle u = world.handle u := by
    rw [closing_handle, if_neg different]
  have id : (closing t ending world).txnId u = world.txnId u := by
    rw [World.txnId, handle, closing_native, Native.ended_txn]
    exact (Native.endOf_identity _ _ _ _ _).2.1
  rw [World.KeepsEntries, handle, closing_isDatabaseTransaction, id]
  refine keeps.imp_right (Or.imp_right fun found => ?_)
  cases later : (closing t ending world).environment.transactions.find? (world.txnId u) with
  | none => exact .inr rfl
  | some v =>
      obtain ⟨entry, member, key, rfl⟩ := Dictionary.exists_mem_of_find?_eq_some later
      have before : entry ∈ world.environment.transactions.entries := by
        rw [closing_environment] at member
        split at member
        · exact member
        · exact (Dictionary.mem_remove.mp member).1
      have first := Dictionary.find?_eq_some_of_mem before key
      rcases found with own | none
      · exact .inl (first.symm.trans own)
      · cases first.symm.trans none

private theorem Emptying.round {rest : List TxnRef} {current : World runtime} {t : TxnRef}
    (emptying : Emptying world (t :: rest) current) :
    Emptying world rest (LmdbEnvironment.disposeEntry current t) := by
  by_cases live : current.handle t = 0
  · -- a disposed transaction is passed over, or its dispose does nothing
    have same : LmdbEnvironment.disposeEntry current t = current := by
      unfold LmdbEnvironment.disposeEntry
      rw [dispose_of_disposed live]
      exact ite_self _
    rw [same]
    refine { emptying with ahead := fun u alive => ?_ }
    obtain ⟨member, registered⟩ := emptying.ahead u alive
    refine ⟨(List.mem_cons.mp member).resolve_left ?_, registered⟩
    rintro rfl
    exact alive live
  · have ended : LmdbEnvironment.disposeEntry current t = closing t .abort current := by
      unfold LmdbEnvironment.disposeEntry
      rw [if_pos (emptying.ahead t live).2, dispose_of_live live]
    rw [ended]
    obtain ⟨leaf, keeps⟩ := emptying.leaves t live
    have alive := emptying.nesting.tree.alive t live
    have survivor {u : TxnRef} (left : (closing t .abort current).handle u ≠ 0) :
        u ≠ t ∧ current.handle u ≠ 0 :=
      survives_of_handle (closing_handle current t .abort) left
    have recorded : (current.native.record .mdbTxnId [.txn (current.handle t)]).EndedOnce :=
      emptying.once
    refine ⟨emptying.nesting.ended live leaf (.of_closing current t .abort)
      (emptying.nesting.sound.closing live .abort), fun u left => ?_, fun u left => ?_,
      fun u left => ?_, fun txn left => ?_, ?_, ?_⟩
    · rw [closing_isDatabaseTransaction]
      exact emptying.plain u (survivor left).2
    · obtain ⟨different, left⟩ := survivor left
      obtain ⟨member, registered⟩ := emptying.ahead u left
      exact ⟨(List.mem_cons.mp member).resolve_left different,
        listed_closing live keeps registered different⟩
    · obtain ⟨different, left⟩ := survivor left
      exact ⟨NestingSound.leaf_closing .abort (emptying.leaves u left).1,
        keepsEntries_closing different (emptying.leaves u left).2⟩
    · obtain ⟨u, different, holds⟩ := holder_of_closing emptying.held left
      exact ⟨u, by rw [closing_handle, if_neg different, holds]⟩
    · rw [closing_native]
      exact recorded.ended .abort alive
    · rw [closing_dbs, discarded, emptying.plain t live]
      exact emptying.dbs

/-- When no database transaction is live, the loop leaves no transaction live. -/
theorem emptied (sound : ShutdownSound world) {order : List TxnRef}
    (perm : order.Perm world.environment.transactions.values)
    (orderly : Orderly world (.disposeEnvironment order)) :
    Emptying world [] (world.enumerated order) := by
  obtain ⟨leaves, none, keeps⟩ := orderly
  have plain (t : TxnRef) (live : world.handle t ≠ 0) : world.isDatabaseTransaction t = false := by
    cases database : world.isDatabaseTransaction t with
    | false => rfl
    | true => exact (sound.nesting.sound.transactions.none_live none t ⟨database, live⟩).elim
  refine enumerated_induction (Emptying world) ?_ Emptying.round
  refine ⟨⟨sound.nesting.sound.handleCleared, sound.nesting.tree.same rfl rfl,
    sound.nesting.cursors.kept (.of_eq rfl) rfl rfl (fun _ _ => rfl) sound.nesting.sound.cursors,
    sound.nesting.calls⟩, plain, fun t live => ?_, fun t live => ?_, sound.held, sound.once, rfl⟩
  · have listed := sound.listed t live (plain t live)
    exact ⟨perm.mem_iff.mpr listed, listed⟩
  · have listed := sound.listed t live (plain t live)
    exact ⟨leaves t listed, keeps t listed⟩

/-- After `Dispose` nothing is live. -/
theorem disposed (sound : ShutdownSound world) {order : List TxnRef}
    (perm : order.Perm world.environment.transactions.values)
    (orderly : Orderly world (.disposeEnvironment order))
    (nesting : NestingSound (LmdbEnvironment.dispose order world)) :
    ShutdownSound (LmdbEnvironment.dispose order world) := by
  by_cases shut : world.environment.env = 0
  · rw [dispose_of_shut order shut] at nesting ⊢
    obtain ⟨handles, dbis⟩ := sound.shut shut
    exact ⟨nesting, fun t live => absurd (handles t) live, sound.held, sound.once,
      fun d _ open' => absurd (dbis d) open', fun _ => ⟨handles, dbis⟩⟩
  have emptied := sound.emptied perm orderly
  have none (t : TxnRef) : (world.enumerated order).handle t = 0 := by
    by_contra live
    cases (emptied.ahead t live).1
  rw [dispose_of_open order shut sound.nesting.sound.transactions.idle, emptied.dbs] at nesting ⊢
  have closed (d : DbRef) : ((world.dbs.modifyAll world.environment.databases.values
      Database.clearHandle).obj d).dbi = 0 := by
    rw [Heap.modifyAll_obj _ _ Database.clearHandle_idempotent]
    split
    · rfl
    · rename_i unregistered
      by_contra open'
      cases callback : world.callback d with
      | newDatabaseDisposed t =>
          have live := sound.pending d t open' callback
          have listed := sound.nesting.sound.databases.listed d t open' callback
          cases database : world.isDatabaseTransaction t with
          | true =>
              exact sound.nesting.sound.transactions.none_live orderly.2.1 t ⟨database, live⟩
          | false =>
              rw [sound.nesting.sound.databases.plain t database] at listed
              cases listed
      | databaseDisposed =>
          exact unregistered (Dictionary.mem_values.mpr
            ⟨_, sound.nesting.sound.databases.promoted shut d open' callback⟩)
  exact ⟨nesting, fun t live => absurd (none t) live, emptied.held, emptied.once,
    fun d _ open' => absurd (closed d) open', fun _ => ⟨none, closed⟩⟩

private theorem reader_free {modes : TransactionModes} {parent : Option TxnRef}
    {answer : BeginAnswer}
    (registered : Registered world op) (begin : op.begin? = some (modes, parent, answer))
    (opened : world.environment.env ≠ 0) : world.ReaderFree modes parent answer := by
  cases op with
  | beginTransaction | beginReadOnlyTransaction =>
      cases begin
      exact registered.resolve_left opened
  | _ => cases begin

/-- What `Registered` asks of the end of a transaction. -/
theorem ending_registered {t : TxnRef} {ending : Ending} (registered : Registered world op)
    (ends : op.ending? = some (t, ending)) (live : world.handle t ≠ 0) : world.KeepsEntries t ∧
      (ending.forCommit = true → ending.fate = .aborted → world.newDatabases t = []) := by
  cases op with
  | commit _ answer =>
      cases ends
      refine ⟨registered.1, fun _ aborted => ?_⟩
      have condition := registered.2.resolve_left live
      have failed : answer.ret ≠ .success := fun succeeded => by
        simp [Ending.fate, succeeded] at aborted
      rwa [if_neg failed] at condition
  | disposeTransaction =>
      cases ends
      exact ⟨registered, by simp [Ending.forCommit]⟩
  | _ => cases ends

private theorem promoted (sound : ShutdownSound world) {t : TxnRef}
    {answer : Transaction.CommitAnswer}
    {done rest : List DbRef} {middle : World runtime} (live : world.handle t ≠ 0)
    (keeps : world.KeepsEntries t) (all : world.PromotesAll t)
    (list : world.newDatabases t = done ++ rest)
    (promoted : Promoted done (closing t (.commit answer) world) middle)
    (taken : ∀ d others, rest = d :: others →
      middle.environment.databases.containsKey (world.dbs.obj d).name = true)
    (finished : after = if rest = [] then middle.onTxn t fun transaction =>
      { transaction with newDatabases := [] } else middle)
    (nesting : NestingSound after) : ShutdownSound after := by
  have leaves := DatabasesSound.commitLeaves promoted finished
  have registry : after.registry = middle.registry := by
    rw [finished]
    split <;> rfl
  have through : rest = [] := by
    cases shape : rest with
    | nil => rfl
    | cons d others =>
        subst shape
        refine absurd ?_ (leaves.not_taken list all.1 fun d member =>
          Dictionary.containsKey_eq_false_iff.mp (all.2 d member))
        rw [registry]
        exact Dictionary.containsKey_iff.mp (taken d others rfl)
  have as : EndsAs t (.commit answer) world after := finished ▸ EndsAs.promoted promoted
  refine sound.ended live keeps as nesting fun d u open' callback => ?_
  rw [leaves.dbi] at open'
  rw [leaves.callback] at callback
  split at callback
  · cases callback
  · rename_i kept
    refine ⟨open', callback, ?_⟩
    rintro rfl
    have listed := sound.nesting.sound.databases.listed d u open' callback
    rw [list, through, List.append_nil] at listed
    exact kept listed

/-- A step that changes neither objects nor registries, and begins nothing. -/
theorem quietNative (sound : ShutdownSound world) {native : Native}
    (nesting : NestingSound { world with native := native })
    (live : ∀ txn, native.live txn = true → world.native.live txn = true)
    (once : native.EndedOnce) : ShutdownSound { world with native := native } :=
  sound.quiet nesting (fun _ => rfl) (fun _ => rfl) rfl rfl live once
    fun _ open' => .inr ⟨open', rfl⟩

/-- One orderly step. -/
theorem effect (sound : ShutdownSound world) (orderly : Orderly world op)
    (effect : Effect world op after) : ShutdownSound after := by
  have nesting := sound.nesting.effect orderly.1 effect
  have sameTxns {native : Native} (same : native.txns = world.native.txns) :
      (∀ txn, native.live txn = true → world.native.live txn = true) ∧ native.EndedOnce := by
    have live (txn : IntPtr) : native.live txn = world.native.live txn := by
      rw [Native.live, same]
      rfl
    exact ⟨fun txn alive => live txn ▸ alive,
      sound.once.of_eq (by rw [same]) live fun txn => by rw [same]⟩
  cases effect with
  | recorded unchanged =>
      exact sound.quietNative nesting (sameTxns unchanged.txns).1 (sameTxns unchanged.txns).2
  | begunDatabase _ _ _ begins =>
      exact sound.begun begins nesting (fun _ member => member) fun plain => absurd rfl plain
  | begun begin _ accepted begins _ free =>
      have entries := Dictionary.tryAdd_entries_of_free world.txns.next
        ((reader_free orderly.2 begin begins.opened).untaken accepted free)
      refine sound.begun begins nesting (fun t member => ?_) fun _ => ?_
      · obtain ⟨key, entry⟩ := Dictionary.mem_values.mp member
        exact Dictionary.mem_values.mpr ⟨key, entries ▸ List.mem_append_left _ entry⟩
      · exact Dictionary.mem_values.mpr
          ⟨_, entries ▸ List.mem_append_right _ (List.mem_singleton_self _)⟩
  | @begunTaken _ _ _ _ native _ _ begins =>
      have new : native.live world.native.txns.next = true := by
        rw [Native.live, begins.state.txns, Heap.alloc_obj_next]
        rfl
      refine sound.quietNative nesting (fun txn live => ?_)
        ((sound.once.begun begins).ended .abort new)
      have alive := Bool.and_eq_true_iff.mp
        ((Native.live_ended .abort world.native.txns.next native txn).symm.trans live)
      have older : txn ≠ world.native.txns.next := by
        rintro rfl
        simp [Native.within] at alive
      rw [Native.live, begins.state.txns, Heap.alloc_obj_of_ne _ _ older] at alive
      exact alive.1
  | begunLeaked begin accepted begins readOnly unflagged =>
      exact absurd (reader_free orderly.2 begin begins.opened accepted readOnly).1 unflagged
  | @closed _ t ending ends live plain =>
      obtain ⟨keeps, empty⟩ := ending_registered orderly.2 ends live
      refine sound.ended live keeps (.of_closing _ _ _) nesting (sound.closed_dbs fun commits => ?_)
      cases fate : ending.fate with
      | live => exact absurd fate (Native.fate_ne_live ending)
      | committed => exact sound.nesting.sound.databases.plain t (plain fate)
      | aborted => exact empty commits fate
  | promoted live succeeded _ list promoted taken =>
      have condition := orderly.2.2.resolve_left live
      rw [if_pos succeeded] at condition
      exact sound.promoted live orderly.2.1 condition list promoted taken rfl nesting
  | @reader _ t native _ _ _ _ state =>
      have live (txn : IntPtr) : native.live txn = world.native.live txn := by
        rw [Native.live, state.txns, Heap.modify_obj]
        split <;> rfl
      refine sound.quietNative nesting (fun txn alive => live txn ▸ alive)
        (sound.once.of_eq (by rw [state.txns]; rfl) live fun txn => ?_)
      rw [state.txns, Heap.modify_obj]
      split <;> rfl
  | @opened _ t text kind dbi native _ _ live _ slot =>
      have same := sameTxns slot.elsewhere.txns
      refine sound.quiet nesting added_handle added_isDatabaseTransaction rfl rfl same.1 same.2
        fun d open' => ?_
      by_cases new : d = world.dbs.next
      · refine .inl ⟨t, ?_, live⟩
        rw [new]
        exact congrArg Database.disposed (Heap.alloc_obj_next _ _)
      · refine .inr ⟨?_, ?_⟩
        · rw [World.dbi, added_dbs_of_ne new] at open'
          exact open'
        · rw [World.callback, added_dbs_of_ne new]
          rfl
  | openFailed _ _ slot =>
      exact sound.quietNative nesting (sameTxns slot.elsewhere.txns).1
        (sameTxns slot.elsewhere.txns).2
  | @databaseGone _ d native _ _ elsewhere =>
      have leaves := DatabasesSound.disposalLeaves world d native
      have same := sameTxns elsewhere.txns
      refine sound.quiet nesting leaves.handle leaves.kind ?_ leaves.env ?_ ?_ fun e open' => ?_
      · rw [databaseCallback_environment]
        split <;> rfl
      · rw [databaseCallback_native]
        exact same.1
      · rw [databaseCallback_native]
        exact same.2
      · rw [leaves.dbi] at open'
        rw [leaves.callback]
        split at open'
        · exact (open' rfl).elim
        · exact .inr ⟨open', rfl⟩
  | @cursorOpened d t native _ _ state =>
      have same := sameTxns state.txns
      refine sound.quiet nesting (fun u => ?_) (fun u => ?_) rfl rfl same.1 same.2
        fun _ open' => .inr ⟨open', rfl⟩
      · rw [World.handle, cursorAdded_txns, Heap.modify_obj]
        split <;> rfl
      · rw [World.isDatabaseTransaction, cursorAdded_txns, Heap.modify_obj]
        split <;> rfl
  | @cursorGone c native _ state =>
      have same := sameTxns state.txns
      refine sound.quiet nesting (fun u => ?_) (fun u => ?_) (by simp) (by simp) ?_ ?_
        fun d open' => .inr ?_
      · obtain ⟨_, equal, _⟩ := cursorCallback_txn _ _ u
        rw [World.handle, equal]
        rfl
      · obtain ⟨_, equal, _⟩ := cursorCallback_txn _ _ u
        rw [World.isDatabaseTransaction, equal]
        rfl
      · rw [cursorCallback_native]
        exact same.1
      · rw [cursorCallback_native]
        exact same.2
      · rw [World.dbi, cursorCallback_dbs] at open'
        rw [World.callback, cursorCallback_dbs]
        exact ⟨open', rfl⟩
  | cursorRenewed _ _ _ state =>
      exact sound.quietNative nesting (sameTxns state.txns).1 (sameTxns state.txns).2
  | environmentDisposed perm => exact sound.disposed perm orderly nesting

/-- A new environment has nothing to shut down. -/
theorem opened (flags : LmdbEnvironmentOptions) (lastTxnId : Nat) :
    ShutdownSound (World.opened runtime flags lastTxnId) where
  nesting := .opened flags lastTxnId
  listed _ live := (live rfl).elim
  held txn live := by simp [World.opened, Native.opened, Native.live, default] at live
  once txn positive known := absurd known (Nat.not_lt_of_le positive)
  pending _ _ open' := (open' rfl).elim
  shut closed := by cases closed

/-- The run lemma for orderly calls. -/
theorem run (sound : ShutdownSound world) {ops : List Op} (run : Run Step Orderly world ops after) :
    ShutdownSound after :=
  run.invariant ShutdownSound sound fun held orderly transition =>
    held.effect orderly (effect_of_step transition)

end ShutdownSound

end KdSoftLmdb
