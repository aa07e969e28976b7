import KdSoftLmdb.Invariants.Shutdown
import KdSoftLmdb.Threads.Persists

/-!
# Names of databases on many threads

A database has its name from the check that the open makes until an abort
discards it: first a thread holds the name, then the list of the transaction,
then the registry. `Shelves` lists how a step moves databases between these
places. As long as every check finds the name in none of the first two, no two
databases have the same name, whatever the interleaving.
-/

namespace KdSoftLmdb

variable {runtime : Runtime} {τ : Type}

/-- The transaction in which a call opens a database. -/
def Frame.opener? : Frame → Option TxnRef
  | nameCheck call | openHandle call _ | mdbDbiOpen call _ _ | mdbTxnEnv call _ _ _
  | mdbSetCompare call _ _ _ _ | mdbSetDupsort call _ _ _ _ | addNew call _ _ _ => some call.t
  | _ => none

/-- A transaction lists the database as new, or it is registered. -/
def World.Present (world : World runtime) (d : DbRef) : Prop :=
  (∃ t, d ∈ world.newDatabases t) ∨ ∃ entry ∈ world.registry, entry.2 = d

/-- Two names that differ in case at most. -/
def Runtime.sameName (runtime : Runtime) (name other : String) : Prop :=
  runtime.ordinalIgnoreCase name = runtime.ordinalIgnoreCase other

instance (name other : String) : Decidable (runtime.sameName name other) :=
  inferInstanceAs (Decidable (_ = _))

/-- Where the databases are, and that no two of them have the same name. -/
structure NamesSound (world : World runtime) : Prop where
  bound : ∀ d, world.Present d → d < world.dbs.next
  unborn : ∀ t, world.txns.next ≤ t → world.newDatabases t = []
  plain : ∀ t, world.isDatabaseTransaction t = false → world.newDatabases t = []
  pending : ∀ t, ∀ d ∈ world.newDatabases t,
    world.callback d = .newDatabaseDisposed t ∧ (world.dbs.obj d).openedIn = t
  nodup : ∀ t, (world.newDatabases t).Nodup
  registered : ∀ entry ∈ world.registry,
    world.dbName entry.2 = entry.1 ∧ world.callback entry.2 = .databaseDisposed
  undisposed : ∀ d, world.dbi d ≠ 0 → world.Present d
  distinct : ∀ d e, world.Present d → world.Present e →
    runtime.sameName (world.dbName d) (world.dbName e) → d = e

/-- The databases, the lists of new ones and the registry are the same. -/
structure SamePlaces (world after : World runtime) : Prop where
  dbs : after.dbs = world.dbs
  registry : after.registry = world.registry
  lists : ∀ t, after.newDatabases t = world.newDatabases t

/-- What an abort does to the new databases of the transaction. -/
structure Discards (t : TxnRef) (world after : World runtime) : Prop where
  dbs : after.dbs = world.dbs.modifyAll (world.newDatabases t) Database.clearHandle
  registry : after.registry = world.registry
  lists : ∀ u, after.newDatabases u = if u = t then [] else world.newDatabases u

/-- A new database is put on the list of the transaction. -/
structure Adds (call : OpenCall) (name : String) (world after : World runtime) : Prop where
  dbs : ∃ dbi env, after.dbs = world.dbs.alloc
    ⟨call.kind, dbi, env, name, .newDatabaseDisposed call.t, call.t⟩
  registry : after.registry = world.registry
  lists : ∀ u, after.newDatabases u =
    if u = call.t then world.newDatabases u ++ [world.dbs.next] else world.newDatabases u

/-- What a promotion that comes through does. -/
structure Promotes (t : TxnRef) (world after : World runtime) : Prop where
  next : after.dbs.next = world.dbs.next
  kept : ∀ d, after.dbi d = world.dbi d ∧ after.dbName d = world.dbName d ∧
    (after.dbs.obj d).openedIn = (world.dbs.obj d).openedIn
  callback : ∀ d, after.callback d =
    if d ∈ world.newDatabases t then .databaseDisposed else world.callback d
  registry : after.registry = world.registry ++ entriesOf world (world.newDatabases t)
  lists : ∀ u, after.newDatabases u = if u = t then [] else world.newDatabases u

/-- What a step does to the databases and to the name that the thread holds. -/
inductive Shelves (world : World runtime) : Frame → Option Frame → World runtime → Prop where
  | keeps {frame frame? after} (same : SamePlaces world after)
      (opens : ∀ name, frame?.bind Frame.opens? = some name → frame.opens? = some name) :
      Shelves world frame frame? after
  | checked {call name after} (named : call.name = some name)
      (free : world.environment.databases.containsKey name = false)
      (same : SamePlaces world after) :
      Shelves world (.nameCheck call) (some (.openHandle call name)) after
  | discarded {t txnId after} (discards : Discards t world after) :
      Shelves world (.release t txnId .abort) (some (.callback t txnId .abort)) after
  | promoted {t after result} (returned : Transaction.committed t world = some (result, after)) :
      Shelves world (.committed t) none after
  | added {call name dbi env after} (adds : Adds call name world after) :
      Shelves world (.addNew call name dbi env) none after

section Steps

variable {world after : World runtime} {frame next : Frame}
  {progress : Progress Frame (Except Exception Returned)}

private theorem SamePlaces.of_modify {t : TxnRef} {change : Transaction → Transaction}
    (txns : after.txns = world.txns.modify t change) (dbs : after.dbs = world.dbs)
    (registry : after.registry = world.registry)
    (same : (change (world.txns.obj t)).newDatabases = (world.txns.obj t).newDatabases) :
    SamePlaces world after := by
  refine ⟨dbs, registry, fun u => ?_⟩
  rw [World.newDatabases, txns, Heap.modify_obj, World.newDatabases]
  split
  · rename_i equal
    rw [equal, same]
  · rfl

/-- The object of a transaction that begins has no databases yet. -/
theorem SamePlaces.of_alloc {transaction : Transaction}
    (txns : after.txns = world.txns.alloc transaction) (dbs : after.dbs = world.dbs)
    (registry : after.registry = world.registry) (empty : transaction.newDatabases = [])
    (unborn : world.newDatabases world.txns.next = []) : SamePlaces world after := by
  refine ⟨dbs, registry, fun u => ?_⟩
  rw [World.newDatabases, txns, Heap.alloc_obj]
  split
  · rename_i equal
    rw [empty, equal, unborn]
  · rfl

private theorem SamePlaces.invokeDisposed (world : World runtime) (t : TxnRef) (txnId : Nat) :
    SamePlaces world (Transaction.invokeDisposed t txnId world) := by
  unfold Transaction.invokeDisposed
  split <;> exact ⟨rfl, rfl, fun _ => rfl⟩

/-- An open passes its name on until it ends or gives up. -/
theorem Follows.opens (follows : Follows world frame next) :
    (∀ name, next.opens? = some name → frame.opens? = some name) ∨
      ∃ call name, frame = .nameCheck call ∧ next = .openHandle call name ∧
        call.name = some name ∧ world.environment.databases.containsKey name = false := by
  cases follows
  case nameCheck call name named free => exact .inr ⟨call, name, rfl, rfl, named, free⟩
  case mdbSetCompare call name _ _ _ =>
    refine .inl fun held opens => ?_
    unfold OpenCall.afterCompare at opens
    split at opens <;> exact opens
  case compareRejected | dupsortRejected =>
    refine .inl fun held opens => ?_
    cases opens
  all_goals exact .inl fun _ opens => opens

private theorem Follows.opener (follows : Follows world frame next) {t : TxnRef}
    (opens : next.opener? = some t) : frame.opener? = some t := by
  cases follows
  case mdbSetCompare call name _ _ _ =>
    unfold OpenCall.afterCompare at opens
    split at opens <;> exact opens
  case compareRejected | dupsortRejected => cases opens
  all_goals exact opens

/-- An abort clears the list of a database transaction and no other. -/
theorem discards_of_abort (plain : ∀ t, world.isDatabaseTransaction t = false →
    world.newDatabases t = []) (t : TxnRef) :
    Discards t world (Transaction.releaseManagedResources t false world) := by
  rw [releaseManagedResources_eq]
  cases kind : world.isDatabaseTransaction t with
  | true =>
      refine ⟨rfl, rfl, fun u => ?_⟩
      rw [World.newDatabases, Heap.modify_obj]
      split
      · exact if_pos ⟨of_decide_eq_true (by rename_i same; exact same ▸ kind), rfl⟩
      · rfl
  | false =>
      refine ⟨?_, rfl, fun u => ?_⟩
      · rw [plain t kind]
        rfl
      · rw [World.newDatabases, Heap.modify_obj]
        split
        · rename_i same
          have empty := plain t kind
          rw [World.newDatabases] at empty
          simp [Transaction.released, same, empty]
        · rfl

/-- A step moves databases in one of these ways. -/
theorem shelves_of_advance (sound : NamesSound world)
    (stepped : (machine runtime).advance frame world = some (progress, after)) :
    Shelves world frame progress.frame? after := by
  have unborn := sound.unborn world.txns.next (Nat.le_refl _)
  have silent {frame : Frame} {frame? : Option Frame} {after : World runtime}
      (same : SamePlaces world after) (none : frame?.bind Frame.opens? = none) :
      Shelves world frame frame? after := by
    refine .keeps same fun name opens => ?_
    cases none.symm.trans opens
  cases moves_of_advance stepped with
  | @follows _ next native follows =>
      have same : SamePlaces world { world with native := native } := ⟨rfl, rfl, fun _ => rfl⟩
      rcases follows.opens with kept | ⟨call, name, rfl, rfl, named, free⟩
      · exact .keeps same kept
      · exact .checked named free same
  | failed | closed => exact silent ⟨rfl, rfl, fun _ => rfl⟩ rfl
  | begun | databaseBegun | refused | ended => exact silent ⟨rfl, rfl, fun _ => rfl⟩ rfl
  | constructed | databaseConstructed => exact silent (.of_alloc rfl rfl rfl rfl unborn) rfl
  | @unheld t | @exchanged t =>
      exact silent (.of_modify (World.onTxn_txns t _ world) rfl rfl rfl) rfl
  | @released t txnId ending =>
      cases ending with
      | abort => exact .discarded (discards_of_abort sound.plain t)
      | commit answer =>
          refine silent ?_ rfl
          rw [releaseManagedResources_eq]
          refine .of_modify rfl ?_ rfl ?_
          · simp [Ending.forCommit]
          · simp [Transaction.released, Ending.forCommit]
  | aborted | commitFailed | commitSucceeded => exact silent (.invokeDisposed world _ _) rfl
  | committed returned => exact .promoted returned
  | @added call name dbi env =>
      refine .added ⟨⟨dbi, env, rfl⟩, rfl, fun u => ?_⟩
      rw [World.newDatabases, Heap.modify_obj]
      split <;> rfl

end Steps

section Present

variable {world after : World runtime} {t : TxnRef} {d : DbRef}

private theorem SamePlaces.present (same : SamePlaces world after) :
    after.Present d ↔ world.Present d := by
  simp only [World.Present, same.lists, same.registry]

private theorem Discards.present (discards : Discards t world after) (there : after.Present d) :
    world.Present d := by
  rcases there with ⟨u, member⟩ | ⟨entry, member, equal⟩
  · rw [discards.lists] at member
    split at member
    · cases member
    · exact .inl ⟨u, member⟩
  · exact .inr ⟨entry, discards.registry ▸ member, equal⟩

private theorem Adds.listed {call : OpenCall} {name : String} (adds : Adds call name world after)
    (member : d ∈ after.newDatabases t) :
    d ∈ world.newDatabases t ∨ t = call.t ∧ d = world.dbs.next := by
  rw [adds.lists] at member
  split at member
  · rcases List.mem_append.mp member with old | new
    · exact .inl old
    · exact .inr ⟨‹_›, List.mem_singleton.mp new⟩
  · exact .inl member

private theorem Adds.present {call : OpenCall} {name : String} (adds : Adds call name world after)
    (there : after.Present d) : world.Present d ∨ d = world.dbs.next := by
  rcases there with ⟨u, member⟩ | ⟨entry, member, equal⟩
  · exact (adds.listed member).imp (fun old => .inl ⟨u, old⟩) And.right
  · exact .inl (.inr ⟨entry, adds.registry ▸ member, equal⟩)

private theorem Promotes.registered (promotes : Promotes t world after) {entry : String × DbRef}
    (member : entry ∈ after.registry) : entry ∈ world.registry ∨
      entry.2 ∈ world.newDatabases t ∧ world.dbName entry.2 = entry.1 := by
  rw [promotes.registry, List.mem_append] at member
  exact member.imp_right DatabasesSound.mem_entriesOf.mp

private theorem Promotes.present (promotes : Promotes t world after) (there : after.Present d) :
    world.Present d := by
  rcases there with ⟨u, member⟩ | ⟨entry, member, rfl⟩
  · rw [promotes.lists] at member
    split at member
    · cases member
    · exact .inl ⟨u, member⟩
  · rcases promotes.registered member with old | ⟨new, _⟩
    · exact .inr ⟨entry, old, rfl⟩
    · exact .inl ⟨t, new⟩

end Present

namespace NamesSound

variable {world after : World runtime} {t : TxnRef}

private theorem opened (flags : LmdbEnvironmentOptions) (lastTxnId : Nat) :
    NamesSound (World.opened runtime flags lastTxnId) := by
  have absent (d : DbRef) : ¬(World.opened runtime flags lastTxnId).Present d := by
    rintro (⟨t, member⟩ | ⟨entry, member, _⟩) <;> cases member
  refine ⟨fun d present => (absent d present).elim, fun _ _ => rfl, fun _ _ => rfl,
    fun t d member => ?_, fun _ => .nil, fun entry member => ?_, fun d live => (live rfl).elim,
    fun d _ present => (absent d present).elim⟩
  · cases member
  · cases member

/-- A database is on one list at most. -/
theorem list_unique (sound : NamesSound world) {u : TxnRef} {d : DbRef}
    (member : d ∈ world.newDatabases t) (other : d ∈ world.newDatabases u) : u = t := by
  have callback := (sound.pending u d other).1
  rw [(sound.pending t d member).1] at callback
  cases callback
  rfl

/-- A registered database is on no list. -/
theorem unlisted (sound : NamesSound world) {entry : String × DbRef}
    (member : entry ∈ world.registry) : entry.2 ∉ world.newDatabases t := by
  intro listed
  have callback := (sound.pending t entry.2 listed).1
  rw [(sound.registered entry member).2] at callback
  cases callback

/-- Only objects that there are list databases. -/
theorem known_of_listed (sound : NamesSound world) {d : DbRef} (listed : d ∈ world.newDatabases t) :
    t < world.txns.next := by
  by_contra unknown
  rw [sound.unborn t (Nat.le_of_not_lt unknown)] at listed
  cases listed

/-- The kinds of the objects there were, and empty lists for the others. -/
theorem plain_of_persists (sound : NamesSound world) (persists : Persists world after)
    (plain : after.isDatabaseTransaction t = false) : world.newDatabases t = [] := by
  by_cases known : t < world.txns.next
  · exact sound.plain t ((persists.object t known).2.symm.trans plain)
  · exact sound.unborn t (Nat.le_of_not_lt known)

private theorem same (sound : NamesSound world) (persists : Persists world after)
    (same : SamePlaces world after) : NamesSound after := by
  refine ⟨fun d there => ?_, fun t unknown => ?_, fun t plain => ?_, fun t d member => ?_,
    fun t => ?_, fun entry member => ?_, fun d live => ?_, fun d e here there equal => ?_⟩
  · rw [same.dbs]
    exact sound.bound d (same.present.mp there)
  · rw [same.lists]
    exact sound.unborn t (Nat.le_trans persists.txns unknown)
  · rw [same.lists]
    exact sound.plain_of_persists persists plain
  · rw [same.lists] at member
    rw [World.callback, same.dbs]
    exact sound.pending t d member
  · rw [same.lists]
    exact sound.nodup t
  · rw [same.registry] at member
    rw [World.dbName, World.callback, same.dbs]
    exact sound.registered entry member
  · rw [World.dbi, same.dbs] at live
    exact same.present.mpr (sound.undisposed d live)
  · rw [World.dbName, World.dbName, same.dbs] at equal
    exact sound.distinct d e (same.present.mp here) (same.present.mp there) equal

private theorem discards (sound : NamesSound world) (persists : Persists world after)
    (discards : Discards t world after) : NamesSound after := by
  have object (d : DbRef) : after.dbs.obj d = if d ∈ world.newDatabases t then
      (world.dbs.obj d).clearHandle else world.dbs.obj d := by
    rw [discards.dbs]
    exact Heap.modifyAll_obj _ _ Database.clearHandle_idempotent d
  have kept (d : DbRef) : after.dbName d = world.dbName d ∧ after.callback d = world.callback d ∧
      (after.dbs.obj d).openedIn = (world.dbs.obj d).openedIn := by
    rw [World.dbName, World.callback, object]
    split <;> exact ⟨rfl, rfl, rfl⟩
  have listed {u : TxnRef} {d : DbRef} (member : d ∈ after.newDatabases u) :
      d ∈ world.newDatabases u := by
    rw [discards.lists] at member
    split at member
    · cases member
    · exact member
  refine ⟨fun d there => ?_, fun u unknown => ?_, fun u plain => ?_, fun u d member => ?_,
    fun u => ?_, fun entry member => ?_, fun d live => ?_, fun d e here there equal => ?_⟩
  · rw [discards.dbs, Heap.modifyAll_next]
    exact sound.bound d (discards.present there)
  · rw [discards.lists, sound.unborn u (Nat.le_trans persists.txns unknown)]
    exact ite_self []
  · rw [discards.lists, sound.plain_of_persists persists plain]
    exact ite_self []
  · rw [(kept d).2.1, (kept d).2.2]
    exact sound.pending u d (listed member)
  · rw [discards.lists]
    split
    · exact .nil
    · exact sound.nodup u
  · rw [discards.registry] at member
    rw [(kept entry.2).1, (kept entry.2).2.1]
    exact sound.registered entry member
  · rw [World.dbi, object] at live
    split at live
    · exact (live rfl).elim
    · rename_i stays
      rcases sound.undisposed d live with ⟨u, member⟩ | ⟨entry, member, equal⟩
      · refine .inl ⟨u, ?_⟩
        rw [discards.lists, if_neg]
        · exact member
        · rintro rfl
          exact stays member
      · exact .inr ⟨entry, discards.registry ▸ member, equal⟩
  · rw [(kept d).1, (kept e).1] at equal
    exact sound.distinct d e (discards.present here) (discards.present there) equal

/-- A database under a name that no other has. -/
theorem adds (sound : NamesSound world) (persists : Persists world after) {call : OpenCall}
    {name : String} (adds : Adds call name world after) (known : call.t < world.txns.next)
    (database : world.isDatabaseTransaction call.t = true)
    (fresh : ∀ d, world.Present d → ¬runtime.sameName (world.dbName d) name) :
    NamesSound after := by
  obtain ⟨dbi, env, dbs⟩ := adds.dbs
  have older {d : DbRef} (there : world.Present d) : after.dbs.obj d = world.dbs.obj d := by
    rw [dbs, Heap.alloc_obj_of_ne _ _ (Nat.ne_of_lt (sound.bound d there))]
  have newest : after.dbs.obj world.dbs.next =
      ⟨call.kind, dbi, env, name, .newDatabaseDisposed call.t, call.t⟩ := by
    rw [dbs, Heap.alloc_obj_next]
  have stays {d : DbRef} (there : world.Present d) : after.Present d := by
    rcases there with ⟨u, member⟩ | ⟨entry, member, equal⟩
    · refine .inl ⟨u, ?_⟩
      rw [adds.lists]
      split
      · exact List.mem_append_left _ member
      · exact member
    · exact .inr ⟨entry, adds.registry ▸ member, equal⟩
  refine ⟨fun d there => ?_, fun u unknown => ?_, fun u plain => ?_, fun u d member => ?_,
    fun u => ?_, fun entry member => ?_, fun d live => ?_, fun d e here there equal => ?_⟩
  · rw [dbs, Heap.alloc_next]
    rcases adds.present there with old | rfl
    · exact Nat.lt_succ_of_lt (sound.bound d old)
    · exact Nat.lt_succ_self _
  · have beyond := Nat.le_trans persists.txns unknown
    rw [adds.lists, if_neg (Nat.ne_of_gt (Nat.lt_of_lt_of_le known beyond))]
    exact sound.unborn u beyond
  · rw [adds.lists, if_neg]
    · exact sound.plain_of_persists persists plain
    · rintro rfl
      cases ((persists.object call.t known).2.trans database).symm.trans plain
  · rcases adds.listed member with old | ⟨rfl, rfl⟩
    · rw [World.callback, older (.inl ⟨u, old⟩)]
      exact sound.pending u d old
    · rw [World.callback, newest]
      exact ⟨rfl, rfl⟩
  · rw [adds.lists]
    split
    · refine List.nodup_append.mpr ⟨sound.nodup u, List.nodup_singleton _, fun d old e new => ?_⟩
      rw [List.mem_singleton.mp new]
      exact Nat.ne_of_lt (sound.bound d (.inl ⟨u, old⟩))
    · exact sound.nodup u
  · rw [adds.registry] at member
    rw [World.dbName, World.callback, older (.inr ⟨entry, member, rfl⟩)]
    exact sound.registered entry member
  · by_cases same : d = world.dbs.next
    · refine .inl ⟨call.t, ?_⟩
      rw [adds.lists, if_pos rfl, same]
      exact List.mem_append_right _ (List.mem_singleton_self _)
    · rw [World.dbi, dbs, Heap.alloc_obj_of_ne _ _ same] at live
      exact stays (sound.undisposed d live)
  · have own {d : DbRef} (old : world.Present d) : after.dbName d = world.dbName d := by
      rw [World.dbName, older old, World.dbName]
    have new : after.dbName world.dbs.next = name := by
      rw [World.dbName, newest]
    rcases adds.present here with old | rfl <;> rcases adds.present there with old' | rfl
    · rw [own old, own old'] at equal
      exact sound.distinct d e old old' equal
    · rw [own old, new] at equal
      exact absurd equal (fresh d old)
    · rw [new, own old'] at equal
      exact absurd equal.symm (fresh e old')
    · rfl

/-- With all names different, the promotion of a list comes through. -/
theorem promotesAll (sound : NamesSound world) (t : TxnRef) : world.PromotesAll t := by
  refine ⟨?_, fun d listed => ?_⟩
  · refine (sound.nodup t).imp_of_mem fun {d e} member other different equal => ?_
    exact different (sound.distinct d e (.inl ⟨t, member⟩) (.inl ⟨t, other⟩) equal)
  · rw [Dictionary.containsKey_eq_false_iff]
    intro entry member equal
    rw [← (sound.registered entry member).1] at equal
    have same := sound.distinct entry.2 d (.inr ⟨entry, member, rfl⟩) (.inl ⟨t, listed⟩) equal
    exact sound.unlisted member (same ▸ listed)

/-- The promotion comes through: no name is taken. -/
theorem promotes_of_committed (sound : NamesSound world) {result : Except Exception Unit}
    (returned : Transaction.committed t world = some (result, after)) :
    result = .ok () ∧ Promotes t world after := by
  obtain ⟨_, through⟩ := committed_of_promotesAll fun _ => sound.promotesAll t
  cases through.symm.trans returned
  refine ⟨rfl, ?_⟩
  rcases committed_cases t world with ⟨plain, same⟩ | ⟨database, same⟩
  · cases same.symm.trans returned
    have empty := sound.plain t plain
    refine ⟨rfl, fun _ => ⟨rfl, rfl, rfl⟩, fun d => ?_, ?_, fun u => ?_⟩
    · simp [empty]
    · simp [empty, entriesOf]
    · split
      · rename_i own
        rw [own, empty]
      · rfl
  · obtain ⟨_, done, rest, middle, list, promoted, ran, outcome⟩ := databaseCommitted_cases t world
    cases (same.trans ran).symm.trans returned
    rcases outcome with ⟨_, rfl⟩ | ⟨_, _, _, threw, _⟩
    · rw [if_pos rfl]
      have all : world.newDatabases t = done := by
        rw [World.newDatabases, list, List.append_nil]
      obtain ⟨databases, entries, rfl⟩ := promoted
      have object (d : DbRef) := Heap.modifyAll_obj world.dbs done Database.promoted_idempotent d
      refine ⟨Heap.modifyAll_next _ _ _, fun d => ?_, fun d => ?_, ?_, fun u => ?_⟩
      · simp only [World.dbi, World.dbName, World.onTxn, object]
        split <;> exact ⟨rfl, rfl, rfl⟩
      · simp only [World.callback, World.onTxn, object, all]
        split <;> rfl
      · rw [all]
        exact entries
      · rw [World.newDatabases, World.onTxn_txns, Heap.modify_obj]
        split <;> rfl
    · cases threw

/-- The promotion gives no name twice. -/
theorem promotes (sound : NamesSound world) (persists : Persists world after)
    (promotes : Promotes t world after) : NamesSound after := by
  have name (d : DbRef) : after.dbName d = world.dbName d := (promotes.kept d).2.1
  have listed {u : TxnRef} {d : DbRef} (member : d ∈ after.newDatabases u) :
      u ≠ t ∧ d ∈ world.newDatabases u := by
    rw [promotes.lists] at member
    split at member
    · cases member
    · exact ⟨‹_›, member⟩
  have stays {d : DbRef} (there : world.Present d) : after.Present d := by
    rcases there with ⟨u, member⟩ | ⟨entry, member, rfl⟩
    · by_cases own : u = t
      · refine .inr ⟨(world.dbName d, d), ?_, rfl⟩
        rw [promotes.registry, List.mem_append]
        exact .inr (DatabasesSound.mem_entriesOf.mpr ⟨own ▸ member, rfl⟩)
      · refine .inl ⟨u, ?_⟩
        rw [promotes.lists, if_neg own]
        exact member
    · refine .inr ⟨entry, ?_, rfl⟩
      rw [promotes.registry]
      exact List.mem_append_left _ member
  refine ⟨fun d there => ?_, fun u unknown => ?_, fun u plain => ?_, fun u d member => ?_,
    fun u => ?_, fun entry member => ?_, fun d live => ?_, fun d e here there equal => ?_⟩
  · rw [promotes.next]
    exact sound.bound d (promotes.present there)
  · rw [promotes.lists, sound.unborn u (Nat.le_trans persists.txns unknown)]
    exact ite_self []
  · rw [promotes.lists, sound.plain_of_persists persists plain]
    exact ite_self []
  · obtain ⟨different, before⟩ := listed member
    have elsewhere : d ∉ world.newDatabases t := fun own =>
      different (sound.list_unique own before)
    rw [promotes.callback, if_neg elsewhere, (promotes.kept d).2.2]
    exact sound.pending u d before
  · rw [promotes.lists]
    split
    · exact .nil
    · exact sound.nodup u
  · rw [name, promotes.callback]
    rcases promotes.registered member with old | ⟨new, named⟩
    · obtain ⟨named, callback⟩ := sound.registered entry old
      exact ⟨named, by rw [callback]; exact ite_self _⟩
    · exact ⟨named, if_pos new⟩
  · rw [(promotes.kept d).1] at live
    exact stays (sound.undisposed d live)
  · rw [name, name] at equal
    exact sound.distinct d e (promotes.present here) (promotes.present there) equal

end NamesSound

/-- A database after a step was there before, or the step has added it under the
name that the thread held. -/
theorem Shelves.present {world after : World runtime} {frame : Frame} {frame? : Option Frame}
    (shelves : Shelves world frame frame? after) (sound : NamesSound world) {d : DbRef}
    (there : after.Present d) : world.Present d ∧ after.dbName d = world.dbName d ∨
      frame.opens? = some (after.dbName d) := by
  cases shelves with
  | keeps same | checked _ _ same =>
      refine .inl ⟨same.present.mp there, ?_⟩
      rw [World.dbName, same.dbs, World.dbName]
  | discarded discards =>
      refine .inl ⟨discards.present there, ?_⟩
      rw [World.dbName, discards.dbs, Heap.modifyAll_obj _ _ Database.clearHandle_idempotent]
      split <;> rfl
  | promoted returned =>
      have promotes := (sound.promotes_of_committed returned).2
      exact .inl ⟨promotes.present there, (promotes.kept d).2.1⟩
  | added adds =>
      obtain ⟨dbi, env, dbs⟩ := adds.dbs
      rcases adds.present there with old | rfl
      · refine .inl ⟨old, ?_⟩
        rw [World.dbName, dbs, Heap.alloc_obj_of_ne _ _ (Nat.ne_of_lt (sound.bound d old))]
        rfl
      · refine .inr ?_
        rw [World.dbName, dbs, Heap.alloc_obj_next]
        rfl

/-- A check of a name comes while no transaction lists a new database under it
and no other thread is opening one. -/
def Frame.Unraced (pool : Threads τ runtime) : Frame → Prop
  | nameCheck call => ∀ name ∈ call.name,
      (∀ t < pool.shared.txns.next, ∀ d ∈ pool.shared.newDatabases t,
        ¬runtime.sameName (pool.shared.dbName d) name) ∧
      ∀ other, ∀ held ∈ (pool.frames other).bind Frame.opens?, ¬runtime.sameName held name
  | _ => True

/-- What an open knows of its transaction and of the name it holds. -/
structure Frame.Named (frame : Frame) (world : World runtime) : Prop where
  opener : ∀ t, frame.opener? = some t →
    t < world.txns.next ∧ world.isDatabaseTransaction t = true
  fresh : ∀ name, frame.opens? = some name → ∀ d, world.Present d →
    ¬runtime.sameName (world.dbName d) name

/-- Databases and threads have different names. -/
structure NamingSound (pool : Threads τ runtime) : Prop where
  names : NamesSound pool.shared
  frames : pool.Everywhere Frame.Named
  apart : pool.Distinct fun frame => frame.opens?.map runtime.ordinalIgnoreCase

namespace NamingSound

/-- Before the first call, nothing has a name. -/
theorem idle (flags : LmdbEnvironmentOptions) (lastTxnId : Nat) :
    NamingSound (Pool.idle τ (World.opened runtime flags lastTxnId) : Threads τ runtime) where
  names := .opened flags lastTxnId
  frames thread frame here := by cases here
  apart thread other value here := by cases here

variable {pool : Threads τ runtime} {thread : τ} {frame next : Frame} {shared : World runtime}
  {progress : Progress Frame (Except Exception Returned)}

/-- A call that begins holds no name yet. -/
theorem named_of_enter {world : World runtime} {op : Op}
    (enters : (machine runtime).enter world op = some frame) :
    frame.Named world ∧ frame.opens? = none := by
  cases enters_of_enter enters with
  | nameCheck _ known database =>
      refine ⟨⟨fun t opens => ?_, fun name opens => ?_⟩, rfl⟩
      · cases opens
        exact ⟨known, database⟩
      · cases opens
  | begin | beginDatabase | commit | dispose =>
      refine ⟨⟨fun t opens => ?_, fun name opens => ?_⟩, rfl⟩ <;> cases opens

/-- A frame that opens a database follows one that does. -/
theorem opener_of_advance {world after : World runtime}
    (stepped : (machine runtime).advance frame world = some (progress, after))
    (goes : progress.frame? = some next) {t : TxnRef} (opens : next.opener? = some t) :
    frame.opener? = some t := by
  cases moves_of_advance stepped with
  | follows follows =>
      cases goes
      exact follows.opener opens
  | begun | databaseBegun | exchanged | ended | released | commitSucceeded =>
      cases goes
      cases opens
  | _ => cases goes

/-- The databases after a step have different names. -/
theorem names_set (sound : NamingSound pool) (here : pool.frames thread = some frame)
    (stepped : (machine runtime).advance frame pool.shared = some (progress, shared)) :
    NamesSound shared := by
  have persists := persists_of_advance stepped
  have named := sound.frames thread frame here
  have shelves := shelves_of_advance sound.names stepped
  generalize progress.frame? = frame? at shelves
  cases shelves with
  | keeps same | checked _ _ same => exact sound.names.same persists same
  | discarded discards => exact sound.names.discards persists discards
  | promoted returned =>
      exact sound.names.promotes persists (sound.names.promotes_of_committed returned).2
  | @added call name dbi env _ adds =>
      obtain ⟨known, database⟩ := named.opener call.t rfl
      exact sound.names.adds persists adds known database (named.fresh name rfl)

/-- The moving thread knows that the name it holds is new. -/
theorem fresh_set (sound : NamingSound pool) (here : pool.frames thread = some frame)
    (unraced : frame.Unraced pool) {frame? : Option Frame}
    (shelves : Shelves pool.shared frame frame? shared) {name : String}
    (opens : frame?.bind Frame.opens? = some name) {d : DbRef} (there : shared.Present d) :
    ¬runtime.sameName (shared.dbName d) name := by
  have named := sound.frames thread frame here
  cases shelves with
  | keeps same kept =>
      rw [World.dbName, same.dbs]
      exact named.fresh name (kept name opens) d (same.present.mp there)
  | @checked call _ _ isNamed free same =>
      cases opens
      rw [World.dbName, same.dbs]
      rcases same.present.mp there with ⟨t, listed⟩ | ⟨entry, member, rfl⟩
      · exact (unraced name isNamed).1 t (sound.names.known_of_listed listed) d listed
      · intro equal
        rw [← World.dbName, (sound.names.registered entry member).1] at equal
        exact Dictionary.containsKey_eq_false_iff.mp free entry member equal
  | discarded | promoted | added => cases opens

variable [DecidableEq τ]

/-- A call begins. -/
theorem enter (sound : NamingSound pool) {op : Op}
    (enters : (machine runtime).enter pool.shared op = some frame) :
    NamingSound (pool.set thread (some frame) pool.shared) where
  names := sound.names
  frames := by
    refine sound.frames.set (fun next equal => ?_) fun _ _ _ _ named => named
    cases equal
    exact (named_of_enter enters).1
  apart := by
    refine sound.apart.set fun value keyed => ?_
    rw [Option.bind_some, (named_of_enter enters).2] at keyed
    cases keyed

/-- A call goes on, unless the name that it checks is on its way. -/
theorem advance (sound : NamingSound pool) (here : pool.frames thread = some frame)
    (unraced : frame.Unraced pool)
    (stepped : (machine runtime).advance frame pool.shared = some (progress, shared)) :
    NamingSound (pool.set thread progress.frame? shared) := by
  have persists := persists_of_advance stepped
  have shelves := shelves_of_advance sound.names stepped
  have opener {frame : Frame} (named : frame.Named pool.shared) (t : TxnRef)
      (opens : frame.opener? = some t) :
      t < shared.txns.next ∧ shared.isDatabaseTransaction t = true := by
    obtain ⟨known, database⟩ := named.opener t opens
    exact ⟨Nat.lt_of_lt_of_le known persists.txns, (persists.object t known).2.trans database⟩
  refine ⟨sound.names_set here stepped, sound.frames.set (fun next goes => ?_) ?_,
    sound.apart.set fun value keyed => ?_⟩
  · refine ⟨fun t opens => ?_, fun name opens d there => ?_⟩
    · exact opener (sound.frames thread frame here) t (opener_of_advance stepped goes opens)
    · refine sound.fresh_set here unraced shelves ?_ there
      rw [goes]
      exact opens
  · intro other theirs different there named
    refine ⟨opener named, fun name opens d present => ?_⟩
    rcases shelves.present sound.names present with ⟨before, same⟩ | held
    · rw [same]
      exact named.fresh name opens d before
    · -- the other thread would hold the name of the database that was added
      intro equal
      refine different (sound.apart other thread (runtime.ordinalIgnoreCase name) ?_ ?_)
      · rw [there, Option.bind_some, opens]
        rfl
      · rw [here, Option.bind_some, held]
        exact congrArg some equal
  · generalize progress.frame? = frame? at shelves keyed
    cases shelves with
    | keeps _ kept =>
        refine .inl ?_
        cases frame? with
        | none => cases keyed
        | some next =>
            obtain ⟨name, opens, equal⟩ := Option.map_eq_some_iff.mp keyed
            rw [here, Option.bind_some, kept name opens]
            exact congrArg some equal
    | @checked call name _ isNamed =>
        refine .inr fun other _ same => ?_
        cases keyed
        obtain ⟨theirs, there, holds⟩ := Option.bind_eq_some_iff.mp same
        obtain ⟨held, opens, equal⟩ := Option.map_eq_some_iff.mp holds
        refine (unraced name isNamed).2 other held ?_ equal
        rw [there]
        exact opens
    | discarded | promoted | added => cases keyed

end NamingSound

end KdSoftLmdb
