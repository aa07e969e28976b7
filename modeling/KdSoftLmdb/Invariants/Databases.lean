import KdSoftLmdb.Invariants.Objects

/-!
# What holds of databases in every reachable state

A database that is not disposed is on the list of the transaction its callback
points to, or, while the environment is open, in the registry when the callback
is the environment's. The lists of live transactions and the registry hold
nothing else. No condition on the calls is needed for this; that two such
databases may share a native handle, or that the native side of one may be gone,
is not excluded.
-/

namespace KdSoftLmdb

variable {runtime : Runtime}

/-- The new databases of a transaction. -/
def World.newDatabases (world : World runtime) (t : TxnRef) : List DbRef :=
  (world.txns.obj t).newDatabases

/-- The name of a database. -/
def World.dbName (world : World runtime) (d : DbRef) : String := (world.dbs.obj d).name

/-- The `Disposed` callback of a database. -/
def World.callback (world : World runtime) (d : DbRef) : DatabaseCallback :=
  (world.dbs.obj d).disposed

/-- The entries of the registry of committed databases. -/
def World.registry (world : World runtime) : List (String × DbRef) :=
  world.environment.databases.entries

/-- No two new databases of the transaction have names that differ in case at most. -/
def World.DistinctNames (world : World runtime) (t : TxnRef) : Prop :=
  (world.newDatabases t).Pairwise fun d e =>
    runtime.ordinalIgnoreCase (world.dbName d) ≠ runtime.ordinalIgnoreCase (world.dbName e)

/-- The lists of new databases and the registry, against the database objects. -/
structure DatabasesSound (world : World runtime) : Prop where
  bound : ∀ d, world.dbi d ≠ 0 → d < world.dbs.next
  plain : ∀ t, world.isDatabaseTransaction t = false → world.newDatabases t = []
  listed : ∀ d t, world.dbi d ≠ 0 → world.callback d = .newDatabaseDisposed t →
    d ∈ world.newDatabases t
  pending : ∀ t, world.handle t ≠ 0 → ∀ d ∈ world.newDatabases t,
    world.dbi d ≠ 0 ∧ world.callback d = .newDatabaseDisposed t
  nodup : ∀ t, world.handle t ≠ 0 → (world.newDatabases t).Nodup
  registered : ∀ entry ∈ world.registry, world.dbi entry.2 ≠ 0 ∧
    world.dbName entry.2 = entry.1 ∧ world.callback entry.2 = .databaseDisposed
  promoted : world.environment.env ≠ 0 → ∀ d, world.dbi d ≠ 0 →
    world.callback d = .databaseDisposed → (world.dbName d, d) ∈ world.registry

namespace DatabasesSound

variable {world after : World runtime}

/-- A step that leaves the databases, their lists and the registry alone. -/
theorem transfer (sound : DatabasesSound world) (dbs : after.dbs = world.dbs)
    (registry : after.registry = world.registry)
    (env : after.environment.env ≠ 0 → world.environment.env ≠ 0)
    (kept : ∀ t, (after.handle t ≠ 0 → world.handle t ≠ 0) ∧
      (after.txns.obj t).kind = (world.txns.obj t).kind ∧
      after.newDatabases t = world.newDatabases t) : DatabasesSound after where
  bound d live := by
    rw [World.dbi, dbs] at live
    exact dbs ▸ sound.bound d live
  plain t plain := by
    rw [World.isDatabaseTransaction, (kept t).2.1] at plain
    rw [(kept t).2.2]
    exact sound.plain t plain
  listed d t live callback := by
    rw [World.dbi, dbs] at live
    rw [World.callback, dbs] at callback
    rw [(kept t).2.2]
    exact sound.listed d t live callback
  pending t live d member := by
    rw [(kept t).2.2] at member
    rw [World.dbi, World.callback, dbs]
    exact sound.pending t ((kept t).1 live) d member
  nodup t live := by
    rw [(kept t).2.2]
    exact sound.nodup t ((kept t).1 live)
  registered entry member := by
    rw [registry] at member
    rw [World.dbi, World.dbName, World.callback, dbs]
    exact sound.registered entry member
  promoted opened d live callback := by
    rw [World.dbi, dbs] at live
    rw [World.callback, dbs] at callback
    rw [World.dbName, dbs, registry]
    exact sound.promoted (env opened) d live callback

/-- A new database of one live transaction is not one of another. -/
theorem pending_unique (sound : DatabasesSound world) {t u : TxnRef} {d : DbRef}
    (live : world.handle t ≠ 0) (member : d ∈ world.newDatabases t)
    (liveOther : world.handle u ≠ 0) (memberOther : d ∈ world.newDatabases u) : u = t := by
  have callback := (sound.pending t live d member).2
  rw [(sound.pending u liveOther d memberOther).2] at callback
  cases callback
  rfl

/-- A registered database is on no list. -/
theorem registered_ne (sound : DatabasesSound world) {t : TxnRef} {d : DbRef}
    {entry : String × DbRef} (live : world.handle t ≠ 0) (member : d ∈ world.newDatabases t)
    (registered : entry ∈ world.registry) : d ≠ entry.2 := by
  rintro rfl
  have callback := (sound.pending t live _ member).2
  rw [(sound.registered entry registered).2.2] at callback
  cases callback

private theorem begun (sound : DatabasesSound world) (transactions : TransactionsSound world)
    {kind : TransactionKind} {parent : Option TxnRef}
    {registry : Dictionary (id : IntPtr → IntPtr) TxnRef} {native : Native} :
    DatabasesSound (world.begun kind parent registry native) := by
  have fresh : (world.begun kind parent registry native).newDatabases world.txns.next = [] :=
    congrArg Transaction.newDatabases begun_txn_new
  have none : world.newDatabases world.txns.next = [] := by
    rw [World.newDatabases, transactions.unborn _ (Nat.le_refl _)]
    rfl
  have lists (t : TxnRef) : (world.begun kind parent registry native).newDatabases t =
      world.newDatabases t := by
    by_cases same : t = world.txns.next
    · rw [same, fresh, none]
    · rw [World.newDatabases, begun_txn_of_ne same]
      rfl
  refine ⟨sound.bound, fun t plain => ?_, fun d t live callback => ?_, fun t live d member => ?_,
    fun t live => ?_, sound.registered, sound.promoted⟩
  · by_cases same : t = world.txns.next
    · rw [same, fresh]
    · rw [World.isDatabaseTransaction, begun_txn_of_ne same] at plain
      rw [lists]
      exact sound.plain t plain
  · rw [lists]
    exact sound.listed d t live callback
  · by_cases same : t = world.txns.next
    · rw [same, fresh] at member
      cases member
    · rw [World.handle, begun_txn_of_ne same] at live
      rw [lists] at member
      exact sound.pending t live d member
  · by_cases same : t = world.txns.next
    · rw [same, fresh]
      exact .nil
    · rw [World.handle, begun_txn_of_ne same] at live
      rw [lists]
      exact sound.nodup t live

section Closing

variable {t : TxnRef} {ending : Ending}

/-- Only new databases of the transaction are discarded. -/
theorem discarded_subset {d : DbRef} (member : d ∈ discarded world t ending) :
    d ∈ world.newDatabases t := by
  unfold discarded at member
  split at member
  · exact member
  · cases member

/-- The databases that are discarded lose their handle. -/
theorem closing_dbi (d : DbRef) : (KdSoftLmdb.closing t ending world).dbi d =
    if d ∈ discarded world t ending then 0 else world.dbi d := by
  rw [World.dbi, closing_db]
  split <;> rfl

/-- No database gets another callback before the promotion. -/
theorem closing_callback (d : DbRef) :
    (KdSoftLmdb.closing t ending world).callback d = world.callback d := by
  rw [World.callback, closing_db]
  split <;> rfl

/-- No database gets another name. -/
theorem closing_dbName (d : DbRef) :
    (KdSoftLmdb.closing t ending world).dbName d = world.dbName d := by
  rw [World.dbName, closing_db]
  split <;> rfl

/-- Nothing is registered before the promotion. -/
theorem closing_registry : (KdSoftLmdb.closing t ending world).registry = world.registry :=
  congrArg Dictionary.entries (closing_databases world t ending)

/-- What the end of a transaction discards is off its list, the rest stays on it. -/
theorem closing_newDatabases (u : TxnRef) :
    (KdSoftLmdb.closing t ending world).newDatabases u =
      if u = t ∧ world.isDatabaseTransaction t = true ∧ ending.forCommit = false then []
      else world.newDatabases u := by
  unfold World.newDatabases World.isDatabaseTransaction
  by_cases same : u = t
  · subst same
    rw [closing_txn_self]
    simp [Transaction.closed, Transaction.released]
  · rw [closing_txn_of_ne _ _ _ same, if_neg fun both => same both.1]

/-- The invariant survives the end of a transaction. -/
theorem closing (sound : DatabasesSound world) (live : world.handle t ≠ 0) :
    DatabasesSound (KdSoftLmdb.closing t ending world) := by
  have before {d : DbRef} (open' : (KdSoftLmdb.closing t ending world).dbi d ≠ 0) :
      d ∉ discarded world t ending ∧ world.dbi d ≠ 0 := by
    rw [closing_dbi] at open'
    split at open'
    · exact (open' rfl).elim
    · exact ⟨‹_›, open'⟩
  have owner {u : TxnRef} (alive : (KdSoftLmdb.closing t ending world).handle u ≠ 0) :
      u ≠ t ∧ world.handle u ≠ 0 :=
    survives_of_handle (closing_handle world t ending) alive
  refine ⟨fun d open' => ?_, fun u plain => ?_, fun d u open' callback => ?_,
    fun u alive d member => ?_, fun u alive => ?_, fun entry member => ?_,
    fun opened d open' callback => ?_⟩
  · simpa using sound.bound d (before open').2
  · rw [closing_isDatabaseTransaction] at plain
    rw [closing_newDatabases, sound.plain u plain]
    exact ite_self []
  · rw [closing_callback] at callback
    have member := sound.listed d u (before open').2 callback
    rw [closing_newDatabases]
    split
    · rename_i gone
      refine absurd ?_ (before open').1
      rw [discarded, if_pos (by simp [gone.2.1, gone.2.2])]
      exact gone.1 ▸ member
    · exact member
  · obtain ⟨different, alive⟩ := owner alive
    rw [closing_newDatabases, if_neg fun both => different both.1] at member
    have kept : d ∉ discarded world t ending := fun gone =>
      different (sound.pending_unique live (discarded_subset gone) alive member)
    rw [closing_dbi, closing_callback, if_neg kept]
    exact sound.pending u alive d member
  · obtain ⟨different, alive⟩ := owner alive
    rw [closing_newDatabases, if_neg fun both => different both.1]
    exact sound.nodup u alive
  · rw [closing_registry] at member
    have kept : entry.2 ∉ discarded world t ending := fun gone =>
      sound.registered_ne live (discarded_subset gone) member rfl
    rw [closing_dbi, closing_dbName, closing_callback, if_neg kept]
    exact sound.registered entry member
  · rw [closing_callback] at callback
    rw [closing_dbName, closing_registry]
    rw [closing_env] at opened
    exact sound.promoted opened d (before open').2 callback

end Closing

section Promotion

variable {middle : World runtime} {t : TxnRef} {answer : Transaction.CommitAnswer}
  {done rest : List DbRef}

private theorem promoted_dbi (promoted : Promoted done world after) (d : DbRef) :
    after.dbi d = world.dbi d := by
  obtain ⟨_, _, rfl⟩ := promoted
  rw [World.dbi, Heap.modifyAll_obj _ _ Database.promoted_idempotent]
  split <;> rfl

private theorem promoted_callback (promoted : Promoted done world after) (d : DbRef) :
    after.callback d = if d ∈ done then .databaseDisposed else world.callback d := by
  obtain ⟨_, _, rfl⟩ := promoted
  rw [World.callback, Heap.modifyAll_obj _ _ Database.promoted_idempotent]
  split <;> rfl

private theorem promoted_registry (promoted : Promoted done world after) :
    after.registry = world.registry ++ entriesOf world done := by
  obtain ⟨_, added, rfl⟩ := promoted
  exact added

private theorem promoted_txns (promoted : Promoted done world after) : after.txns = world.txns := by
  obtain ⟨_, _, rfl⟩ := promoted
  rfl

/-- The entries are those of the databases that were promoted. -/
theorem mem_entriesOf {entry : String × DbRef} :
    entry ∈ entriesOf world done ↔ entry.2 ∈ done ∧ world.dbName entry.2 = entry.1 := by
  unfold entriesOf World.dbName
  constructor
  · intro member
    obtain ⟨d, known, rfl⟩ := List.mem_map.mp member
    exact ⟨known, rfl⟩
  · rintro ⟨known, named⟩
    exact List.mem_map.mpr ⟨entry.2, known, Prod.ext named rfl⟩

/-- What a successful commit of a database transaction leaves: `done` are the
databases that were promoted, `rest` those that were not. -/
structure CommitLeaves (t : TxnRef) (done rest : List DbRef) (world after : World runtime) : Prop where
  handle : ∀ u, after.handle u = if u = t then 0 else world.handle u
  kind : ∀ u, after.isDatabaseTransaction u = world.isDatabaseTransaction u
  newDatabases : ∀ u, after.newDatabases u = if u = t ∧ rest = [] then [] else world.newDatabases u
  next : after.dbs.next = world.dbs.next
  dbi : ∀ d, after.dbi d = world.dbi d
  dbName : ∀ d, after.dbName d = world.dbName d
  callback : ∀ d, after.callback d = if d ∈ done then .databaseDisposed else world.callback d
  registry : after.registry = world.registry ++ entriesOf world done
  env : after.environment.env = world.environment.env

/-- A commit promotes its new databases until a name is taken. -/
theorem commitLeaves (promoted : Promoted done (KdSoftLmdb.closing t (.commit answer) world) middle)
    (finished : after = if rest = [] then middle.onTxn t fun transaction =>
      { transaction with newDatabases := [] } else middle) : CommitLeaves t done rest world after := by
  have txns := promoted_txns promoted
  have dbs : after.dbs = middle.dbs := by
    rw [finished]
    split <;> rfl
  have environment : after.environment = middle.environment := by
    rw [finished]
    split <;> rfl
  have object (u : TxnRef) : after.txns.obj u = if u = t ∧ rest = [] then
      { (KdSoftLmdb.closing t (.commit answer) world).txns.obj u with newDatabases := [] }
      else (KdSoftLmdb.closing t (.commit answer) world).txns.obj u := by
    rw [finished]
    by_cases finished' : rest = []
    · simp only [finished', if_true, and_true, World.onTxn, Heap.modify_obj, txns]
    · simp only [finished', if_false, and_false, txns]
  refine ⟨fun u => ?_, fun u => ?_, fun u => ?_, ?_, fun d => ?_, fun d => ?_, fun d => ?_, ?_, ?_⟩
  · rw [World.handle, object, ← closing_handle world t (.commit answer)]
    split <;> rfl
  · rw [World.isDatabaseTransaction, object,
      ← closing_isDatabaseTransaction world t (.commit answer)]
    split <;> rfl
  · rw [World.newDatabases, object]
    split
    · rfl
    · rw [← World.newDatabases, closing_newDatabases,
        if_neg fun both => by simp [Ending.forCommit] at both]
  · obtain ⟨_, _, rfl⟩ := promoted
    rw [dbs]
    simp
  · rw [World.dbi, dbs, ← World.dbi, promoted_dbi promoted, closing_dbi, if_neg]
    simp [discarded, Ending.forCommit]
  · obtain ⟨_, _, rfl⟩ := promoted
    rw [World.dbName, dbs, Heap.modifyAll_obj _ _ Database.promoted_idempotent,
      ← @closing_dbName runtime world t (.commit answer)]
    split <;> rfl
  · rw [World.callback, dbs, ← World.callback, promoted_callback promoted, closing_callback]
  · have same : entriesOf (KdSoftLmdb.closing t (.commit answer) world) done =
        entriesOf world done :=
      List.map_congr_left fun d _ => Prod.ext (closing_dbName d) rfl
    have added := promoted_registry promoted
    rw [same, closing_registry] at added
    rw [World.registry, environment]
    exact added
  · obtain ⟨_, _, rfl⟩ := promoted
    rw [environment]
    exact closing_env world t _

/-- With different names, none of them registered, no name is taken when its turn comes. -/
theorem CommitLeaves.not_taken {others : List DbRef} {d : DbRef}
    (leaves : CommitLeaves t done (d :: others) world after)
    (list : world.newDatabases t = done ++ d :: others) (distinct : world.DistinctNames t)
    (free : ∀ d ∈ world.newDatabases t, ∀ entry ∈ world.registry,
      runtime.ordinalIgnoreCase entry.1 ≠ runtime.ordinalIgnoreCase (world.dbName d)) :
    ¬∃ entry ∈ after.registry,
      runtime.ordinalIgnoreCase entry.1 = runtime.ordinalIgnoreCase (world.dbName d) := by
  rintro ⟨entry, member, same⟩
  rw [leaves.registry, List.mem_append] at member
  rcases member with old | new
  · refine free d ?_ entry old same
    rw [list]
    exact List.mem_append_right _ List.mem_cons_self
  · obtain ⟨promoted, named⟩ := mem_entriesOf.mp new
    rw [World.DistinctNames, list, List.pairwise_append] at distinct
    refine distinct.2.2 entry.2 promoted d List.mem_cons_self ?_
    rw [named, same]

/-- The registry gains what left the list; what could not be promoted stays on
the list of the transaction, which has ended. -/
theorem promotion (sound : DatabasesSound world) (live : world.handle t ≠ 0)
    (list : world.newDatabases t = done ++ rest) (leaves : CommitLeaves t done rest world after) :
    DatabasesSound after := by
  have own {d : DbRef} (member : d ∈ done) : world.dbi d ≠ 0 ∧
      world.callback d = .newDatabaseDisposed t :=
    sound.pending t live d (list ▸ List.mem_append_left rest member)
  have owner {u : TxnRef} (alive : after.handle u ≠ 0) : u ≠ t ∧ world.handle u ≠ 0 :=
    survives_of_handle leaves.handle alive
  refine ⟨fun d open' => ?_, fun u plain => ?_, fun d u open' callback => ?_,
    fun u alive d member => ?_, fun u alive => ?_, fun entry member => ?_,
    fun opened d open' callback => ?_⟩
  · rw [leaves.dbi] at open'
    rw [leaves.next]
    exact sound.bound d open'
  · rw [leaves.kind] at plain
    rw [leaves.newDatabases, sound.plain u plain]
    exact ite_self []
  · rw [leaves.dbi] at open'
    rw [leaves.callback] at callback
    split at callback
    · cases callback
    · rename_i kept
      have member := sound.listed d u open' callback
      rw [leaves.newDatabases, if_neg]
      · exact member
      · rintro ⟨rfl, rfl⟩
        rw [list, List.append_nil] at member
        exact kept member
  · obtain ⟨different, alive⟩ := owner alive
    rw [leaves.newDatabases, if_neg fun both => different both.1] at member
    rw [leaves.dbi, leaves.callback, if_neg]
    · exact sound.pending u alive d member
    · intro promoted
      have callback := (sound.pending u alive d member).2
      rw [(own promoted).2] at callback
      cases callback
      exact different rfl
  · obtain ⟨different, alive⟩ := owner alive
    rw [leaves.newDatabases, if_neg fun both => different both.1]
    exact sound.nodup u alive
  · rw [leaves.registry] at member
    rw [leaves.dbi, leaves.dbName, leaves.callback]
    rcases List.mem_append.mp member with old | new
    · obtain ⟨open', named, callback⟩ := sound.registered entry old
      exact ⟨open', named, by rw [callback]; exact ite_self _⟩
    · obtain ⟨promoted, named⟩ := mem_entriesOf.mp new
      exact ⟨(own promoted).1, named, if_pos promoted⟩
  · rw [leaves.dbi] at open'
    rw [leaves.callback] at callback
    rw [leaves.registry, leaves.dbName]
    split at callback
    · exact List.mem_append_right _ (mem_entriesOf.mpr ⟨‹_›, rfl⟩)
    · rw [leaves.env] at opened
      exact List.mem_append_left _ (sound.promoted opened d open' callback)

end Promotion

section Disposal

variable {d : DbRef}

/-- What the disposal or the drop of a database leaves. -/
structure DisposalLeaves (d : DbRef) (world after : World runtime) : Prop where
  handle : ∀ u, after.handle u = world.handle u
  kind : ∀ u, after.isDatabaseTransaction u = world.isDatabaseTransaction u
  newDatabases : ∀ u, after.newDatabases u =
    if world.callback d = .newDatabaseDisposed u then (world.newDatabases u).erase d
    else world.newDatabases u
  next : after.dbs.next = world.dbs.next
  dbi : ∀ e, after.dbi e = if e = d then 0 else world.dbi e
  dbName : ∀ e, after.dbName e = world.dbName e
  callback : ∀ e, after.callback e = world.callback e
  registry : ∀ entry, entry ∈ after.registry ↔ entry ∈ world.registry ∧
    (world.callback d = .databaseDisposed →
      runtime.ordinalIgnoreCase entry.1 ≠ runtime.ordinalIgnoreCase (world.dbName d))
  env : after.environment.env = world.environment.env

/-- The disposal of a database changes that database only. -/
theorem disposalLeaves (world : World runtime) (d : DbRef) (native : Native) :
    DisposalLeaves d world (Database.invokeDisposed d { world with
      dbs := world.dbs.modify d Database.clearHandle
      native := native }) := by
  have object (e : DbRef) : (world.dbs.modify d Database.clearHandle).obj e =
      if e = d then (world.dbs.obj e).clearHandle else world.dbs.obj e := rfl
  have self : ((world.dbs.modify d Database.clearHandle).obj d).disposed = world.callback d := by
    rw [object, if_pos rfl]
    rfl
  have name : ((world.dbs.modify d Database.clearHandle).obj d).name = world.dbName d := by
    rw [object, if_pos rfl]
    rfl
  refine ⟨fun u => ?_, fun u => ?_, fun u => ?_, ?_, fun e => ?_, fun e => ?_, fun e => ?_,
    fun entry => ?_, ?_⟩
  · obtain ⟨_, equal, _⟩ := databaseCallback_txn { world with
      dbs := world.dbs.modify d Database.clearHandle
      native := native } d u
    rw [World.handle, equal]
    rfl
  · obtain ⟨_, equal, _⟩ := databaseCallback_txn { world with
      dbs := world.dbs.modify d Database.clearHandle
      native := native } d u
    rw [World.isDatabaseTransaction, equal]
    rfl
  · rw [World.newDatabases, databaseCallback_txns, self]
    cases world.callback d with
    | databaseDisposed => rw [if_neg (by simp)]; rfl
    | newDatabaseDisposed t =>
        by_cases same : u = t
        · subst same
          rw [if_pos rfl]
          exact congrArg Transaction.newDatabases (Heap.modify_obj_self _ _ _)
        · rw [if_neg fun equal => same (by cases equal; rfl)]
          exact congrArg Transaction.newDatabases (Heap.modify_obj_of_ne _ _ same)
  · rw [databaseCallback_dbs]
    rfl
  · rw [World.dbi, databaseCallback_dbs, object]
    split <;> rfl
  · rw [World.dbName, databaseCallback_dbs, object]
    split <;> rfl
  · rw [World.callback, databaseCallback_dbs, object]
    split <;> rfl
  · rw [World.registry, databaseCallback_environment, self]
    cases world.callback d with
    | newDatabaseDisposed t => simp [World.registry]
    | databaseDisposed =>
        rw [Dictionary.mem_remove, name]
        simp [World.registry]
  · rw [databaseCallback_environment]
    split <;> rfl

private theorem disposal (sound : DatabasesSound world) (live : world.dbi d ≠ 0)
    (leaves : DisposalLeaves d world after) : DatabasesSound after := by
  have other {e : DbRef} (open' : after.dbi e ≠ 0) : e ≠ d ∧ world.dbi e ≠ 0 := by
    rw [leaves.dbi] at open'
    split at open'
    · exact (open' rfl).elim
    · exact ⟨‹_›, open'⟩
  have fewer (u : TxnRef) : (after.newDatabases u).Sublist (world.newDatabases u) := by
    rw [leaves.newDatabases]
    split
    · exact List.erase_sublist
    · exact .refl _
  refine ⟨fun e open' => ?_, fun u plain => ?_, fun e u open' callback => ?_,
    fun u alive e member => ?_, fun u alive => ?_, fun entry member => ?_,
    fun opened e open' callback => ?_⟩
  · rw [leaves.next]
    exact sound.bound e (other open').2
  · rw [leaves.kind] at plain
    exact List.sublist_nil.mp (sound.plain u plain ▸ fewer u)
  · rw [leaves.callback] at callback
    have member := sound.listed e u (other open').2 callback
    rw [leaves.newDatabases]
    split
    · exact (List.mem_erase_of_ne (other open').1).mpr member
    · exact member
  · rw [leaves.handle] at alive
    have before := sound.pending u alive e ((fewer u).subset member)
    rw [leaves.dbi, leaves.callback, if_neg]
    · exact before
    · rintro rfl
      rw [leaves.newDatabases, if_pos before.2] at member
      exact (sound.nodup u alive).not_mem_erase member
  · rw [leaves.handle] at alive
    exact (sound.nodup u alive).sublist (fewer u)
  · obtain ⟨old, differs⟩ := (leaves.registry entry).mp member
    obtain ⟨open', named, callback⟩ := sound.registered entry old
    rw [leaves.dbi, leaves.dbName, leaves.callback, if_neg]
    · exact ⟨open', named, callback⟩
    · rintro rfl
      exact differs callback (by rw [named])
  · rw [leaves.callback] at callback
    rw [leaves.env] at opened
    have entry := sound.promoted opened e (other open').2 callback
    rw [leaves.dbName]
    refine (leaves.registry _).mpr ⟨entry, fun registered same => (other open').1 ?_⟩
    have both := Dictionary.entry_unique entry (sound.promoted opened d live registered) same
    exact congrArg Prod.snd both

end Disposal

private theorem opened (sound : DatabasesSound world) {t : TxnRef} {kind : DatabaseKind} {dbi : Nat}
    {text : String} {native : Native} (database : world.isDatabaseTransaction t = true)
    (positive : dbi ≠ 0) : DatabasesSound (world.added t kind dbi text native) := by
  have oldDb (d : DbRef) (different : d ≠ world.dbs.next) :
      (world.added t kind dbi text native).dbs.obj d = world.dbs.obj d :=
    Heap.alloc_obj_of_ne _ _ different
  have newDb : (world.added t kind dbi text native).dbs.obj world.dbs.next =
      ⟨kind, dbi, envHandle, text, .newDatabaseDisposed t, t⟩ := Heap.alloc_obj_next _ _
  have lists (u : TxnRef) : (world.added t kind dbi text native).newDatabases u =
      if u = t then world.newDatabases u ++ [world.dbs.next] else world.newDatabases u := by
    simp only [World.newDatabases, World.added, Heap.modify_obj]
    split <;> rfl
  have handles (u : TxnRef) : (world.added t kind dbi text native).handle u = world.handle u := by
    simp only [World.handle, World.added, Heap.modify_obj]
    split <;> rfl
  have kinds (u : TxnRef) : (world.added t kind dbi text native).isDatabaseTransaction u =
      world.isDatabaseTransaction u := by
    simp only [World.isDatabaseTransaction, World.added, Heap.modify_obj]
    split <;> rfl
  have older {d : DbRef} (open' : world.dbi d ≠ 0) : d ≠ world.dbs.next :=
    Nat.ne_of_lt (sound.bound d open')
  refine ⟨fun d open' => ?_, fun u plain => ?_, fun d u open' callback => ?_,
    fun u alive d member => ?_, fun u alive => ?_, fun entry member => ?_,
    fun opened d open' callback => ?_⟩
  · by_cases same : d = world.dbs.next
    · rw [same]
      exact Nat.lt_succ_self _
    · rw [World.dbi, oldDb d same] at open'
      exact Nat.lt_succ_of_lt (sound.bound d open')
  · rw [kinds] at plain
    rw [lists, if_neg]
    · exact sound.plain u plain
    · rintro rfl
      rw [database] at plain
      cases plain
  · rw [lists]
    by_cases same : d = world.dbs.next
    · rw [World.callback, same, newDb] at callback
      cases callback
      rw [if_pos rfl, same]
      exact List.mem_append_right _ (List.mem_singleton_self _)
    · rw [World.dbi, oldDb d same] at open'
      rw [World.callback, oldDb d same] at callback
      have member := sound.listed d u open' callback
      split
      · exact List.mem_append_left _ member
      · exact member
  · rw [handles] at alive
    rw [lists] at member
    have cases : d ∈ world.newDatabases u ∨ u = t ∧ d = world.dbs.next := by
      split at member
      · rcases List.mem_append.mp member with old | new
        · exact .inl old
        · exact .inr ⟨‹_›, List.mem_singleton.mp new⟩
      · exact .inl member
    rcases cases with old | ⟨rfl, rfl⟩
    · have before := sound.pending u alive d old
      rw [World.dbi, World.callback, oldDb d (older before.1)]
      exact before
    · rw [World.dbi, World.callback, newDb]
      exact ⟨positive, rfl⟩
  · rw [handles] at alive
    rw [lists]
    split
    · refine List.nodup_append.mpr ⟨sound.nodup u alive, List.nodup_singleton _, ?_⟩
      intro d old e new
      rw [List.mem_singleton.mp new]
      exact older (sound.pending u alive d old).1
    · exact sound.nodup u alive
  · have before := sound.registered entry member
    rw [World.dbi, World.dbName, World.callback, oldDb _ (older before.1)]
    exact before
  · by_cases same : d = world.dbs.next
    · rw [World.callback, same, newDb] at callback
      cases callback
    · rw [World.dbi, oldDb d same] at open'
      rw [World.callback, oldDb d same] at callback
      rw [World.dbName, oldDb d same]
      exact sound.promoted opened d open' callback

/-- Disposing a disposed environment forgets the registry without a look at it. -/
theorem forgotten (sound : DatabasesSound world) {environment : LmdbEnvironment runtime}
    (empty : environment.databases.entries = []) (shut : environment.env = 0) :
    DatabasesSound { world with environment := environment } where
  bound := sound.bound
  plain := sound.plain
  listed := sound.listed
  pending := sound.pending
  nodup := sound.nodup
  registered entry member := by
    rw [World.registry, empty] at member
    cases member
  promoted opened := (opened shut).elim

/-- Handles of the registered databases are cleared together with the registry. -/
theorem cleared (sound : DatabasesSound world) :
    DatabasesSound { world with
      dbs := world.dbs.modifyAll world.environment.databases.values Database.clearHandle
      environment := world.cleared } := by
  have object (d : DbRef) : (world.dbs.modifyAll world.environment.databases.values
      Database.clearHandle).obj d = if d ∈ world.environment.databases.values
        then (world.dbs.obj d).clearHandle else world.dbs.obj d :=
    Heap.modifyAll_obj _ _ Database.clearHandle_idempotent d
  have before {d : DbRef} (open' : ((world.dbs.modifyAll world.environment.databases.values
      Database.clearHandle).obj d).dbi ≠ 0) :
      d ∉ world.environment.databases.values ∧ world.dbi d ≠ 0 := by
    rw [object] at open'
    split at open'
    · exact (open' rfl).elim
    · exact ⟨‹_›, open'⟩
  have callback (d : DbRef) : ((world.dbs.modifyAll world.environment.databases.values
      Database.clearHandle).obj d).disposed = world.callback d := by
    rw [object]
    split <;> rfl
  refine ⟨fun d open' => ?_, sound.plain, fun d u open' new => ?_, fun u alive d member => ?_,
    sound.nodup, nofun, fun opened => (opened rfl).elim⟩
  · simpa using sound.bound d (before open').2
  · exact sound.listed d u (before open').2 ((callback d).symm.trans new)
  · have pending := sound.pending u alive d member
    have unregistered : d ∉ world.environment.databases.values := by
      intro registered
      obtain ⟨name, entry⟩ := Dictionary.mem_values.mp registered
      exact sound.registered_ne alive member entry rfl
    refine ⟨?_, (callback d).trans pending.2⟩
    rw [World.dbi, object, if_neg unregistered]
    exact pending.1

/-- Neither the native side nor the rest of the environment object matters. -/
theorem same (sound : DatabasesSound world) (txns : after.txns = world.txns)
    (dbs : after.dbs = world.dbs) (registry : after.registry = world.registry)
    (env : after.environment.env ≠ 0 → world.environment.env ≠ 0) : DatabasesSound after :=
  sound.transfer dbs registry env fun t => by
    rw [World.handle, World.newDatabases, txns]
    exact ⟨id, rfl, rfl⟩

private theorem environmentDisposed (sound : DatabasesSound world)
    (idle : world.environment.activeDbTxn = none) (order : List TxnRef) :
    DatabasesSound (LmdbEnvironment.dispose order world) := by
  by_cases shut : world.environment.env = 0
  · rw [dispose_of_shut order shut]
    exact sound.forgotten rfl rfl
  · rw [dispose_of_open order shut idle]
    have looped : DatabasesSound (world.enumerated order) ∧
        (world.enumerated order).environment.databases = world.environment.databases :=
      enumerated_invariant (fun current => DatabasesSound current ∧
        current.environment.databases = world.environment.databases)
        ⟨sound.same rfl rfl rfl fun opened => (opened rfl).elim, rfl⟩
        fun held _ live => ⟨held.1.closing live, (closing_databases _ _ _).trans held.2⟩
    rw [← looped.2]
    exact looped.1.cleared.same rfl rfl rfl id

/-- The step lemma: whatever a call does. -/
theorem effect (sound : DatabasesSound world) (transactions : TransactionsSound world)
    (natives : NativeSound world.native) {op : Op} (effect : Effect world op after) :
    DatabasesSound after := by
  cases effect with
  | recorded => exact sound.same rfl rfl rfl id
  | begunDatabase => exact sound.begun transactions
  | begun => exact sound.begun transactions
  | begunTaken => exact sound.same rfl rfl rfl id
  | begunLeaked => exact sound.same rfl rfl rfl id
  | closed _ live => exact sound.closing live
  | promoted live _ _ list promoted => exact sound.promotion live list (commitLeaves promoted rfl)
  | reader => exact sound.same rfl rfl rfl id
  | opened _ database _ _ slot =>
      obtain ⟨_, _, given⟩ := slot.slot
      refine sound.opened database fun zero => ?_
      have behind := natives.slotFor given
      rw [zero] at behind
      exact absurd behind (by decide)
  | openFailed => exact sound.same rfl rfl rfl id
  | databaseGone _ live => exact sound.disposal live (disposalLeaves _ _ _)
  | cursorOpened =>
      refine sound.transfer rfl rfl id fun t => ?_
      simp only [World.handle, World.newDatabases, cursorAdded_txns, Heap.modify_obj]
      split <;> exact ⟨id, rfl, rfl⟩
  | cursorGone =>
      refine sound.transfer (by simp) (by simp [World.registry]) (by simp) fun t => ?_
      obtain ⟨_, equal, _⟩ := cursorCallback_txn _ _ t
      rw [World.handle, World.newDatabases, equal]
      exact ⟨id, rfl, rfl⟩
  | cursorRenewed => exact sound.same rfl rfl rfl id
  | environmentDisposed => exact sound.environmentDisposed transactions.idle _

end DatabasesSound

/-- A database object before and after a step: only its callback may change, and
its handle may be cleared. -/
structure SameDatabase (before after : Database) : Prop where
  kind : after.kind = before.kind
  env : after.env = before.env
  name : after.name = before.name
  openedIn : after.openedIn = before.openedIn
  dbi : after.dbi = before.dbi ∨ after.dbi = 0

private theorem SameDatabase.refl (database : Database) : SameDatabase database database :=
  ⟨rfl, rfl, rfl, rfl, .inl rfl⟩

private theorem SameDatabase.trans {before middle after : Database}
    (first : SameDatabase before middle)
    (second : SameDatabase middle after) : SameDatabase before after where
  kind := second.kind.trans first.kind
  env := second.env.trans first.env
  name := second.name.trans first.name
  openedIn := second.openedIn.trans first.openedIn
  dbi := by
    rcases second.dbi with same | cleared
    · rcases first.dbi with same' | cleared
      · exact .inl (same.trans same')
      · exact .inr (same.trans cleared)
    · exact .inr cleared

/-- No database object was created, and each one is the same object still. -/
structure SameDatabases (world after : World runtime) : Prop where
  next : after.dbs.next = world.dbs.next
  object : ∀ d, SameDatabase (world.dbs.obj d) (after.dbs.obj d)

namespace SameDatabases

variable {world middle after : World runtime}

/-- The database objects are not touched. -/
theorem of_eq (same : after.dbs = world.dbs) : SameDatabases world after :=
  ⟨by rw [same], fun d => by rw [same]; exact .refl _⟩

/-- Two steps, one after the other. -/
theorem trans (first : SameDatabases world middle) (second : SameDatabases middle after) :
    SameDatabases world after :=
  ⟨second.next.trans first.next, fun d => (first.object d).trans (second.object d)⟩

private theorem cleared {list : List DbRef}
    (dbs : after.dbs = world.dbs.modifyAll list Database.clearHandle) :
    SameDatabases world after := by
  refine ⟨by rw [dbs, Heap.modifyAll_next], fun d => ?_⟩
  rw [dbs, Heap.modifyAll_obj _ _ Database.clearHandle_idempotent]
  split
  · exact ⟨rfl, rfl, rfl, rfl, .inr rfl⟩
  · exact .refl _

/-- The end of a transaction creates no database. -/
theorem closing (world : World runtime) (t : TxnRef) (ending : Ending) :
    SameDatabases world (closing t ending world) :=
  cleared (closing_dbs world t ending)

/-- Nor does the promotion. -/
theorem promoted {done : List DbRef} (promoted : Promoted done world after) :
    SameDatabases world after := by
  obtain ⟨_, _, rfl⟩ := promoted
  refine ⟨by simp, fun d => ?_⟩
  rw [Heap.modifyAll_obj _ _ Database.promoted_idempotent]
  split
  · exact ⟨rfl, rfl, rfl, rfl, .inl rfl⟩
  · exact .refl _

private theorem environmentDisposed (idle : world.environment.activeDbTxn = none)
    (order : List TxnRef) :
    SameDatabases world (LmdbEnvironment.dispose order world) := by
  by_cases shut : world.environment.env = 0
  · rw [dispose_of_shut order shut]
    exact of_eq rfl
  · rw [dispose_of_open order shut idle]
    have looped : SameDatabases world (world.enumerated order) :=
      enumerated_invariant (SameDatabases world) (of_eq rfl)
        fun held _ _ => held.trans (closing _ _ _)
    exact looped.trans (cleared rfl)

end SameDatabases

/-- A step creates one database object, or none. -/
theorem databases_of_effect {world after : World runtime}
    (idle : world.environment.activeDbTxn = none) {op : Op} (effect : Effect world op after) :
    (∃ t kind dbi text native, op.open? = some (t, some text) ∧
      after = world.added t kind dbi text native) ∨ SameDatabases world after := by
  cases effect with
  | opened opens => exact .inl ⟨_, _, _, _, _, opens, rfl⟩
  | closed => exact .inr (.closing _ _ _)
  | promoted _ _ _ _ promoted =>
      refine .inr (((SameDatabases.closing _ _ _).trans (.promoted promoted)).trans ?_)
      split <;> exact .of_eq rfl
  | databaseGone =>
      refine .inr ⟨by simp, fun d => ?_⟩
      rw [databaseCallback_dbs, Heap.modify_obj]
      split
      · exact ⟨rfl, rfl, rfl, rfl, .inr rfl⟩
      · exact .refl _
  | cursorGone => exact .inr (.of_eq (by simp))
  | environmentDisposed => exact .inr (.environmentDisposed idle _)
  | recorded | begunDatabase | begun | begunTaken | begunLeaked | reader | openFailed |
      cursorOpened | cursorRenewed => exact .inr (.of_eq rfl)

/-- A disposed database stays disposed. -/
theorem disposed_of_effect {world after : World runtime}
    (idle : world.environment.activeDbTxn = none) {op : Op} (effect : Effect world op after)
    {d : DbRef} (known : d < world.dbs.next) (disposed : world.dbi d = 0) :
    d < after.dbs.next ∧ after.dbi d = 0 := by
  rcases databases_of_effect idle effect with ⟨t, kind, dbi, text, native, _, rfl⟩ | same
  · refine ⟨Nat.lt_succ_of_lt known, ?_⟩
    rw [World.dbi, World.added, Heap.alloc_obj_of_ne _ _ (Nat.ne_of_lt known)]
    exact disposed
  · refine ⟨by rw [same.next]; exact known, ?_⟩
    rcases (same.object d).dbi with kept | cleared
    · exact kept.trans disposed
    · exact cleared

end KdSoftLmdb
