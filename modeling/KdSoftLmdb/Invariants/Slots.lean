import KdSoftLmdb.Invariants.Ancestry
import KdSoftLmdb.Invariants.Handles

/-!
# The slots behind database objects

A database object holds the number of a slot in LMDB's table of open databases.
`Settles` is how the calls must be made for every object to keep a slot of its
own: opens find no undisposed database of the same name, commits hand their
databases to the shared environment at once, and no transaction ends before its
descendants.
-/

namespace KdSoftLmdb

variable {runtime : Runtime}

namespace World

/-- The name of a database as LMDB reads it. -/
def marshalled (world : World runtime) (d : DbRef) : List UInt8 := runtime.marshal (world.dbName d)

/-- The slot that a database object holds. -/
def slot (world : World runtime) (d : DbRef) : Option NativeDbi :=
  world.native.dbis.obj (world.dbi d)

/-- The database transaction that a database was opened in. -/
def openedIn (world : World runtime) (d : DbRef) : TxnRef := (world.dbs.obj d).openedIn

/-- LMDB reads the name of no undisposed database as the same bytes. -/
def NameUnused (world : World runtime) (name : String) : Prop :=
  ∀ d < world.dbs.next, world.dbi d ≠ 0 → world.marshalled d ≠ runtime.marshal name

/-- Every ancestor was committed. -/
def AncestorsCommitted (world : World runtime) (t : TxnRef) : Prop :=
  ∀ u ∈ world.ancestors t, world.fate u = .committed

/-- No ancestor was aborted. -/
def AncestorsUnaborted (world : World runtime) (t : TxnRef) : Prop :=
  ∀ u ∈ world.ancestors t, world.fate u ≠ .aborted

variable (world : World runtime)

instance (name : String) : Decidable (world.NameUnused name) :=
  inferInstanceAs (Decidable (∀ d < world.dbs.next, world.dbi d ≠ 0 →
    world.marshalled d ≠ runtime.marshal name))

instance (t : TxnRef) : Decidable (world.AncestorsCommitted t) :=
  inferInstanceAs (Decidable (∀ u ∈ world.ancestors t, world.fate u = .committed))

instance (t : TxnRef) : Decidable (world.AncestorsUnaborted t) :=
  inferInstanceAs (Decidable (∀ u ∈ world.ancestors t, world.fate u ≠ .aborted))

end World

/-- Transactions end after their descendants. -/
def EndsTrees (world : World runtime) : Op → Prop
  | .commit t _ | .disposeTransaction t => world.handle t = 0 ∨ world.NoLiveDescendant t
  | .disposeEnvironment _ => ∀ t ∈ world.environment.transactions.values,
      world.handle t = 0 ∨ world.NoLiveDescendant t
  | _ => True

/-- A commit of new databases succeeds while the environment is open, and they
have no transaction left to go to but the shared environment. -/
def CommitsToRoot (world : World runtime) : Op → Prop
  | .commit t answer => world.handle t = 0 ∨ world.newDatabases t = [] ∨
      answer.ret = .success ∧ world.environment.env ≠ 0 ∧ world.AncestorsCommitted t
  | _ => True

/-- An open that the registry does not refuse finds no undisposed database of
the same name. -/
def OpensUnused (world : World runtime) (op : Op) : Prop :=
  match op.open? with
  | some (t, some text) => world.handle t = 0 ∨
      world.environment.databases.containsKey text = true ∨ world.NameUnused text
  | _ => True

/-- An open that the registry does not refuse is made in a transaction without
an aborted ancestor. -/
def OpensUnaborted (world : World runtime) (op : Op) : Prop :=
  match op.open? with
  | some (t, some text) => world.handle t = 0 ∨
      world.environment.databases.containsKey text = true ∨ world.AncestorsUnaborted t
  | _ => True

/-- Calls that give every database object a slot of its own. -/
def Settles (world : World runtime) (op : Op) : Prop :=
  EndsTrees world op ∧ CommitsToRoot world op ∧ OpensUnused world op ∧ OpensUnaborted world op

section Decidable

variable (world : World runtime)

instance : ∀ op : Op, Decidable (EndsTrees world op) := by
  intro op
  apply op.casesOn (motive := fun op => Decidable (EndsTrees world op)) <;> intros <;>
    unfold EndsTrees <;> infer_instance

instance : ∀ op : Op, Decidable (CommitsToRoot world op) := by
  intro op
  apply op.casesOn (motive := fun op => Decidable (CommitsToRoot world op)) <;> intros <;>
    unfold CommitsToRoot <;> infer_instance

instance (op : Op) : Decidable (OpensUnused world op) := by
  unfold OpensUnused
  exact match op.open? with
  | some (_, some _) | some (_, none) | none => inferInstance

instance (op : Op) : Decidable (OpensUnaborted world op) := by
  unfold OpensUnaborted
  exact match op.open? with
  | some (_, some _) | some (_, none) | none => inferInstance

instance (op : Op) : Decidable (Settles world op) :=
  inferInstanceAs (Decidable (_ ∧ _ ∧ _ ∧ _))

end Decidable

private theorem EndsTrees.endsLeaves {world : World runtime} {op : Op} (trees : EndsTrees world op)
    (sound : TransactionsSound world) : EndsLeaves world op := by
  have leaf {t : TxnRef} (ends : world.handle t = 0 ∨ world.NoLiveDescendant t) :
      world.Leaf t := by
    rcases ends with disposed | none
    · exact .inl disposed
    · exact sound.leaf none
  cases op with
  | commit | disposeTransaction => exact leaf trees
  | disposeEnvironment => exact fun t member => leaf (trees t member)
  | _ => trivial

/-- The transactions that exist keep their handles, their fates and their
ancestors. -/
structure KeepsFates (world after : World runtime) : Prop where
  known : world.txns.next ≤ after.txns.next
  handle : ∀ t < world.txns.next, after.handle t = world.handle t
  fate : ∀ t < world.txns.next, after.fate t = world.fate t
  ancestors : ∀ t < world.txns.next, after.ancestors t = world.ancestors t

private theorem KeepsFates.of_keepsTree {world after : World runtime} (fates : FatesSound world)
    (nesting : NestingSound world) (later : NestingSound after) (keeps : KeepsTree world after) :
    KeepsFates world after where
  known := Nat.le_of_eq keeps.next.symm
  handle t _ := keeps.handle t
  fate _ known := fates.fate_kept keeps known
  ancestors t _ := keeps.same.ancestors nesting.sound.transactions later.sound.transactions t

private theorem KeepsFates.same {world after : World runtime} (nesting : NestingSound world)
    (later : NestingSound after) (txns : after.txns = world.txns)
    (native : after.native.txns = world.native.txns) : KeepsFates world after := by
  refine ⟨Nat.le_of_eq (by rw [txns]), fun t _ => ?_, fun t _ => ?_, fun t _ => ?_⟩
  · rw [World.handle, txns]
    rfl
  · rw [World.fate, World.nativeTxn, txns, native]
    rfl
  · exact (SameTransactions.of_eq txns).ancestors nesting.sound.transactions
      later.sound.transactions t

private theorem KeepsFates.begun {world : World runtime} {kind : TransactionKind}
    {modes : TransactionModes} {parent : Option TxnRef}
    {registry : Dictionary (id : IntPtr → IntPtr) TxnRef} {native : Native}
    (fates : FatesSound world) (nesting : NestingSound world)
    (later : NestingSound (world.begun kind parent registry native))
    (begins : Begins world modes parent native) :
    KeepsFates world (world.begun kind parent registry native) := by
  refine ⟨Nat.le_succ _, fun t known => begun_handle_of_ne (Nat.ne_of_lt known),
    fun t known => fates.fate_begun begins known, fun t known => ?_⟩
  exact nesting.sound.transactions.ancestors_congr later.sound.transactions fun u below =>
    congrArg Transaction.parent (begun_txn_of_ne (Nat.ne_of_lt (Nat.lt_of_le_of_lt below known)))

namespace World

/-- The database has an open slot under its name, shared or private to the live
transaction that lists it as new. -/
def Filled (world : World runtime) (d : DbRef) : Prop :=
  ∃ slot, world.slot d = some slot ∧ slot.name = world.marshalled d ∧ (slot.owner = 0 ∨
    ∃ t, world.callback d = .newDatabaseDisposed t ∧ world.handle t ≠ 0 ∧
      slot.owner = world.handle t)

/-- The database is new in the live transaction it was opened in, which has no
aborted ancestor, or it was committed up to the root. -/
def Settled (world : World runtime) (d : DbRef) : Prop :=
  world.openedIn d < world.txns.next ∧
    (world.callback d = .newDatabaseDisposed (world.openedIn d) ∧
        world.handle (world.openedIn d) ≠ 0 ∧ world.AncestorsUnaborted (world.openedIn d) ∨
      world.fate (world.openedIn d) = .committed ∧ world.AncestorsCommitted (world.openedIn d))

end World

namespace KeepsFates

variable {world after : World runtime} {d : DbRef}

private theorem filled (tree : KeepsFates world after) (transactions : TransactionsSound world)
    (same : after.dbs.obj d = world.dbs.obj d)
    (slot : after.native.dbis.obj (world.dbi d) = world.native.dbis.obj (world.dbi d))
    (filled : world.Filled d) : after.Filled d := by
  obtain ⟨held, content, named, owner⟩ := filled
  have sameDbi : after.dbi d = world.dbi d := congrArg Database.dbi same
  refine ⟨held, ?_, ?_, owner.imp_right fun ⟨t, callback, alive, equal⟩ => ⟨t, ?_, ?_⟩⟩
  · rw [World.slot, sameDbi, slot]
    exact content
  · rw [named, World.marshalled, World.marshalled, World.dbName, World.dbName, same]
  · rw [World.callback, same]
    exact callback
  · rw [tree.handle t (transactions.bound alive)]
    exact ⟨alive, equal⟩

private theorem settled (tree : KeepsFates world after) (transactions : TransactionsSound world)
    (same : after.dbs.obj d = world.dbs.obj d) (settled : world.Settled d) : after.Settled d := by
  obtain ⟨known, outcome⟩ := settled
  have ancestors (u : TxnRef) (member : u ∈ world.ancestors (world.openedIn d)) :
      after.fate u = world.fate u :=
    tree.fate u (Nat.lt_trans (transactions.ancestors_lt member) known)
  rw [World.Settled, World.AncestorsUnaborted, World.AncestorsCommitted, World.openedIn,
    World.callback, same, ← World.openedIn, ← World.callback, tree.handle _ known,
    tree.fate _ known, tree.ancestors _ known]
  refine ⟨Nat.lt_of_lt_of_le known tree.known, ?_⟩
  rcases outcome with ⟨callback, alive, unaborted⟩ | ⟨committed, all⟩
  · exact .inl ⟨callback, alive, fun u member => ancestors u member ▸ unaborted u member⟩
  · exact .inr ⟨committed, fun u member => (ancestors u member).trans (all u member)⟩

end KeepsFates

/-- What holds of every state of a history that settles: every undisposed
database has a slot of its own, and every slot that is not shared has its object. -/
structure SlotsSound (world : World runtime) : Prop where
  nesting : NestingSound world
  fates : FatesSound world
  filled : ∀ d, world.dbi d ≠ 0 → world.Filled d
  names : ∀ d e, world.dbi d ≠ 0 → world.dbi e ≠ 0 → world.marshalled d = world.marshalled e →
    d = e
  carried : ∀ k slot, world.native.dbis.obj k = some slot → slot.owner = 0 ∨ ∃ d, world.dbi d = k
  settled : ∀ d, world.dbi d ≠ 0 → world.Settled d
  shut : world.native.closed = true → world.environment.env = 0 ∧ world.registry = []

namespace SlotsSound

variable {world after : World runtime} {op : Op} {t : TxnRef} {d e : DbRef}

/-- No two undisposed databases hold the same slot. -/
theorem unique (sound : SlotsSound world) (live : world.dbi d ≠ 0)
    (same : world.dbi d = world.dbi e) : d = e := by
  obtain ⟨slot, content, named, _⟩ := sound.filled d live
  obtain ⟨other, contentOther, namedOther, _⟩ := sound.filled e (same ▸ live)
  rw [World.slot, ← same] at contentOther
  cases content.symm.trans contentOther
  exact sound.names d e live (same ▸ live) (named.symm.trans namedOther)

/-- The owner of a slot is nobody, or a live transaction object. -/
theorem owner_live (sound : SlotsSound world) {k : Nat} {slot : NativeDbi}
    (content : world.native.dbis.obj k = some slot) : slot.owner = 0 ∨
      ∃ d t, world.dbi d = k ∧ world.callback d = .newDatabaseDisposed t ∧
        world.handle t ≠ 0 ∧ slot.owner = world.handle t := by
  rcases sound.carried k slot content with shared | ⟨d, rfl⟩
  · exact .inl shared
  · have behind := (sound.nesting.sound.natives.slots _ (by rw [content]; nofun)).1
    have live : world.dbi d ≠ 0 := Nat.ne_of_gt (Nat.lt_of_lt_of_le (by decide) behind)
    obtain ⟨other, contentOther, _, owner⟩ := sound.filled d live
    cases content.symm.trans contentOther
    exact owner.imp_right fun ⟨t, callback, alive, equal⟩ => ⟨d, t, rfl, callback, alive, equal⟩

/-- A step that opens no database and settles none: what it leaves open has the
slot it had. -/
theorem transfer (sound : SlotsSound world) (tree : KeepsFates world after)
    (nesting : NestingSound after) (fates : FatesSound after)
    (dbs : ∀ d, after.dbi d ≠ 0 → world.dbi d ≠ 0 ∧ after.dbs.obj d = world.dbs.obj d)
    (slots : ∀ d, after.dbi d ≠ 0 →
      after.native.dbis.obj (world.dbi d) = world.native.dbis.obj (world.dbi d))
    (carried : ∀ k slot, after.native.dbis.obj k = some slot →
      world.native.dbis.obj k = some slot ∧
        ∀ d, world.dbi d = k → slot.owner = 0 ∨ after.dbi d = k)
    (shut : after.native.closed = true → after.environment.env = 0 ∧ after.registry = []) :
    SlotsSound after where
  nesting := nesting
  fates := fates
  filled d live := by
    obtain ⟨before, same⟩ := dbs d live
    exact tree.filled sound.nesting.sound.transactions same (slots d live) (sound.filled d before)
  names d e live liveOther same := by
    obtain ⟨before, equal⟩ := dbs d live
    obtain ⟨beforeOther, equalOther⟩ := dbs e liveOther
    rw [World.marshalled, World.marshalled, World.dbName, World.dbName, equal, equalOther] at same
    exact sound.names d e before beforeOther same
  carried k slot content := by
    obtain ⟨before, kept⟩ := carried k slot content
    rcases sound.carried k slot before with shared | ⟨d, holds⟩
    · exact .inl shared
    · exact (kept d holds).imp_right fun holds => ⟨d, holds⟩
  settled d live := by
    obtain ⟨before, same⟩ := dbs d live
    exact tree.settled sound.nesting.sound.transactions same (sound.settled d before)
  shut := shut

/-- A step that keeps the databases and their slots. -/
theorem quiet (sound : SlotsSound world) (keeps : KeepsTree world after)
    (nesting : NestingSound after) (dbs : after.dbs = world.dbs)
    (dbis : ∀ k, after.native.dbis.obj k = world.native.dbis.obj k)
    (closed : after.native.closed = world.native.closed)
    (registry : after.registry = world.registry) : SlotsSound after := by
  have same (d : DbRef) : after.dbi d = world.dbi d := by
    rw [World.dbi, dbs]
    rfl
  refine sound.transfer (.of_keepsTree sound.fates sound.nesting nesting keeps) nesting
    (sound.fates.kept keeps) (fun d live => ⟨same d ▸ live, by rw [dbs]⟩) (fun _ _ => dbis _)
    (fun k _ content => ⟨(dbis k).symm.trans content, fun d holds => .inr ((same d).trans holds)⟩)
    fun shut => ?_
  rw [keeps.env, registry]
  exact sound.shut (closed ▸ shut)

/-- A database that is still open after the end of its transaction was committed
up to the root. -/
theorem own (sound : SlotsSound world) {ending : Ending} (open' : world.dbi d ≠ 0)
    (callback : world.callback d = .newDatabaseDisposed t) (kept : d ∉ discarded world t ending)
    (commits : ending.forCommit = true → world.newDatabases t = [] ∨
      ending.fate = .committed ∧ world.AncestorsCommitted t) :
    ending.fate = .committed ∧ world.AncestorsCommitted t := by
  have listed := sound.nesting.sound.databases.listed d t open' callback
  have nonempty : world.newDatabases t ≠ [] := List.ne_nil_of_mem listed
  cases forCommit : ending.forCommit with
  | true => exact (commits forCommit).resolve_left nonempty
  | false =>
      refine absurd ?_ kept
      cases database : world.isDatabaseTransaction t with
      | false => exact absurd (sound.nesting.sound.databases.plain t database) nonempty
      | true =>
          rw [discarded, database, forCommit]
          exact listed

/-- A transaction whose ancestors were committed is at the root of LMDB's tree. -/
theorem chain_of_committed (sound : SlotsSound world) (live : world.handle t ≠ 0)
    (committed : world.AncestorsCommitted t) : world.chain t = [] := by
  rcases sound.nesting.tree.linked t live with root | ⟨p, isParent, parentLive, _⟩
  · exact root
  · have member : p ∈ world.ancestors t := by
      rw [sound.nesting.sound.transactions.ancestors_of_parent isParent]
      exact List.mem_cons_self
    have settled := committed p member
    rw [sound.fates.fate_of_live sound.nesting.tree parentLive] at settled
    cases settled

/-- What the end of a leaf leaves in the slot that another live transaction owns. -/
theorem ended_slot (sound : SlotsSound world) {ending : Ending} (live : world.handle t ≠ 0)
    (leaf : world.Leaf t) {u : TxnRef} (alive : world.handle u ≠ 0) (different : u ≠ t) {k : Nat}
    {slot : NativeDbi} (content : world.native.dbis.obj k = some slot)
    (owner : slot.owner = world.handle u) :
    (ending.native (world.handle t) world.native).dbis.obj k = some slot :=
  Native.ended_dbi_of_outside _ _ _ content
    (owner ▸ sound.nesting.tree.outside sound.nesting.sound.transactions live leaf alive different)

/-- The end of a transaction leaves a shared slot alone. -/
theorem ended_shared (sound : SlotsSound world) (ending : Ending) (live : world.handle t ≠ 0)
    {k : Nat} {slot : NativeDbi} (content : world.native.dbis.obj k = some slot)
    (shared : slot.owner = 0) :
    (ending.native (world.handle t) world.native).dbis.obj k = some slot :=
  Native.ended_dbi_of_outside _ _ _ content
    (shared ▸ sound.nesting.sound.natives.shared_outside live)

/-- The end of a transaction at the root shares the slots that it commits. -/
theorem ended_own (sound : SlotsSound world) {ending : Ending} (live : world.handle t ≠ 0)
    (committed : ending.fate = .committed) (ancestors : world.AncestorsCommitted t) {k : Nat}
    {slot : NativeDbi} (content : world.native.dbis.obj k = some slot)
    (owner : slot.owner = world.handle t) :
    (ending.native (world.handle t) world.native).dbis.obj k =
      some { slot with owner := 0 } := by
  have root : (world.native.txns.obj (world.handle t)).chain = [] :=
    sound.chain_of_committed live ancestors
  rw [Native.ended_dbi, content]
  dsimp only
  rw [owner, if_pos (by simp [Native.within]), if_pos committed, root]
  rfl

private theorem discarded_of_committed {ending : Ending} (committed : ending.fate = .committed) :
    discarded world t ending = [] := by
  cases ending with
  | abort => cases committed
  | commit answer => simp [discarded, Ending.forCommit]

/-- A transaction that ends after its descendants, and commits its databases to
the root if it commits any, as the database objects show it. -/
structure EndsSettled (t : TxnRef) (ending : Ending) (world after : World runtime) : Prop where
  live : world.handle t ≠ 0
  none : world.NoLiveDescendant t
  leaves : EndsAs t ending world after
  dbi : ∀ d, after.dbi d = if d ∈ discarded world t ending then 0 else world.dbi d
  dbName : ∀ d, after.dbName d = world.dbName d
  openedIn : ∀ d, after.openedIn d = world.openedIn d
  callback : ∀ d, world.callback d ≠ .newDatabaseDisposed t → after.callback d = world.callback d
  commits : ending.forCommit = true → world.newDatabases t = [] ∨
    ending.fate = .committed ∧ world.AncestorsCommitted t

namespace EndsSettled

variable {ending : Ending}

private theorem dbis (ends : EndsSettled t ending world after) (k : Nat) : after.native.dbis.obj k =
    (ending.native (world.handle t) world.native).dbis.obj k := by
  rw [ends.leaves.native, closing_native, Native.ended_dbi, Native.ended_dbi]
  rfl

private theorem still_open (ends : EndsSettled t ending world after) (open' : after.dbi d ≠ 0) :
    d ∉ discarded world t ending ∧ world.dbi d ≠ 0 ∧ after.dbi d = world.dbi d := by
  rw [ends.dbi] at open' ⊢
  split at open'
  · exact (open' rfl).elim
  · exact ⟨‹_›, open', if_neg ‹_›⟩

private theorem marshalled (ends : EndsSettled t ending world after) (d : DbRef) :
    after.marshalled d = world.marshalled d := by
  rw [World.marshalled, World.marshalled, ends.dbName]

/-- The databases of the other live transactions stay theirs. -/
theorem stays_new (ends : EndsSettled t ending world after) {u : TxnRef}
    (new : world.callback d = .newDatabaseDisposed u)
    (alive : world.handle u ≠ 0) (different : u ≠ t) :
    after.callback d = .newDatabaseDisposed u ∧ after.handle u = world.handle u ∧
      after.handle u ≠ 0 := by
  have handle : after.handle u = world.handle u := by
    rw [ends.leaves.handle, if_neg different]
  refine ⟨(ends.callback d fun own => different ?_).trans new, handle, handle ▸ alive⟩
  cases new.symm.trans own
  rfl

private theorem filled (ends : EndsSettled t ending world after) (sound : SlotsSound world)
    (open' : after.dbi d ≠ 0) : after.Filled d := by
  obtain ⟨undiscarded, open', same⟩ := ends.still_open open'
  obtain ⟨slot, content, named, owner⟩ := sound.filled d open'
  have leaf := sound.nesting.sound.transactions.leaf ends.none
  have name : slot.name = after.marshalled d := named.trans (ends.marshalled d).symm
  rw [World.Filled, World.slot, same, ends.dbis]
  rcases owner with shared | ⟨u, new, alive, owner⟩
  · exact ⟨slot, sound.ended_shared ending ends.live content shared, name, .inl shared⟩
  · by_cases mine : u = t
    · subst mine
      obtain ⟨committed, all⟩ := sound.own open' new undiscarded ends.commits
      exact ⟨_, sound.ended_own ends.live committed all content owner, name, .inl rfl⟩
    · obtain ⟨still, handle, left⟩ := ends.stays_new new alive mine
      exact ⟨slot, sound.ended_slot ends.live leaf alive mine content owner, name,
        .inr ⟨u, still, left, owner.trans handle.symm⟩⟩

/-- A slot that the end leaves is shared, or it was another transaction's. -/
theorem carried (ends : EndsSettled t ending world after) (sound : SlotsSound world)
    {k : Nat} {slot : NativeDbi} (content : after.native.dbis.obj k = some slot) :
    slot.owner = 0 ∨ ∃ d, after.dbi d = k := by
  have leaf := sound.nesting.sound.transactions.leaf ends.none
  rw [ends.dbis] at content
  cases old : world.native.dbis.obj k with
  | none =>
      rw [Native.ended_dbi, old] at content
      cases content
  | some slot' =>
      rcases sound.owner_live old with shared | ⟨d, u, holds, new, alive, owner⟩
      · cases content.symm.trans (sound.ended_shared ending ends.live old shared)
        exact .inl shared
      · by_cases mine : u = t
        · subst mine
          have open' : world.dbi d ≠ 0 := by
            have behind := (sound.nesting.sound.natives.slots k (by rw [old]; nofun)).1
            exact holds ▸ Nat.ne_of_gt (Nat.lt_of_lt_of_le (by decide) behind)
          by_cases committed : ending.fate = .committed
          · have all := (sound.own open' new
              (by rw [discarded_of_committed committed]; nofun) ends.commits).2
            cases content.symm.trans (sound.ended_own ends.live committed all old owner)
            exact .inl rfl
          · rw [Native.ended_dbi, old] at content
            dsimp only at content
            rw [owner, if_pos (by simp [Native.within]), if_neg committed] at content
            cases content
        · cases content.symm.trans (sound.ended_slot ends.live leaf alive mine old owner)
          refine .inr ⟨d, ?_⟩
          rw [ends.dbi, if_neg]
          · exact holds
          · intro gone
            have own := (sound.nesting.sound.databases.pending t ends.live d
              (DatabasesSound.discarded_subset gone)).2
            cases own.symm.trans new
            exact mine rfl

private theorem settled (ends : EndsSettled t ending world after) (sound : SlotsSound world)
    (nesting : NestingSound after) (open' : after.dbi d ≠ 0) : after.Settled d := by
  have transactions := sound.nesting.sound.transactions
  have fate {u : TxnRef} (known : u < world.txns.next) :
      after.fate u = if u = t then ending.fate else world.fate u :=
    sound.fates.fate_ended sound.nesting.tree transactions ends.live
      (transactions.leaf ends.none) ends.leaves known
  have ancestors (u : TxnRef) : after.ancestors u = world.ancestors u :=
    ends.leaves.same.ancestors transactions nesting.sound.transactions u
  obtain ⟨undiscarded, open', _⟩ := ends.still_open open'
  obtain ⟨known, outcome⟩ := sound.settled d open'
  rw [World.Settled, World.AncestorsUnaborted, World.AncestorsCommitted, ends.openedIn, ancestors,
    ends.leaves.next, fate known]
  have older {u : TxnRef} (member : u ∈ world.ancestors (world.openedIn d)) :
      u < world.txns.next := Nat.lt_trans (transactions.ancestors_lt member) known
  refine ⟨known, ?_⟩
  rcases outcome with ⟨new, alive, unaborted⟩ | ⟨committed, all⟩
  · by_cases mine : world.openedIn d = t
    · rw [mine] at new
      obtain ⟨committed, all⟩ := sound.own open' new undiscarded ends.commits
      rw [mine, if_pos rfl]
      refine .inr ⟨committed, fun u member => ?_⟩
      have below := transactions.ancestors_lt member
      rw [fate (Nat.lt_trans below (transactions.bound ends.live)), if_neg (Nat.ne_of_lt below)]
      exact all u member
    · obtain ⟨still, _, left⟩ := ends.stays_new new alive mine
      refine .inl ⟨still, left, fun u member => ?_⟩
      rw [fate (older member), if_neg]
      · exact unaborted u member
      · rintro rfl
        exact ends.none _ known alive member
  · have settled {u : TxnRef} (committed : world.fate u = .committed) : u ≠ t := by
      rintro rfl
      rw [sound.fates.fate_of_live sound.nesting.tree ends.live] at committed
      cases committed
    rw [if_neg (settled committed)]
    refine .inr ⟨committed, fun u member => ?_⟩
    rw [fate (older member), if_neg (settled (all u member))]
    exact all u member

end EndsSettled

private theorem ended (sound : SlotsSound world) {ending : Ending}
    (ends : EndsSettled t ending world after) (nesting : NestingSound after)
    (shut : after.native.closed = true → after.environment.env = 0 ∧ after.registry = []) :
    SlotsSound after where
  nesting := nesting
  fates := sound.fates.ended ends.live ends.leaves
  filled _ open' := ends.filled sound open'
  names d e open' openOther same := by
    rw [ends.marshalled, ends.marshalled] at same
    exact sound.names d e (ends.still_open open').2.1 (ends.still_open openOther).2.1 same
  carried _ _ content := ends.carried sound content
  settled _ open' := ends.settled sound nesting open'
  shut := shut

section Opening

variable {text : String} {kind : DatabaseKind} {dbi : Nat} {native : Native} {slot : NativeDbi}
  {txn : IntPtr}

/-- An open under an unused name gets a slot that no undisposed database holds. -/
theorem open_elsewhere (sound : SlotsSound world) (unused : world.NameUnused text)
    (given : SlotFor world.native txn (runtime.marshal text) dbi slot)
    (live : world.dbi d ≠ 0) : world.dbi d ≠ dbi := by
  rintro rfl
  obtain ⟨held, content, named, _⟩ := sound.filled d live
  cases given with
  | existing other name =>
      cases content.symm.trans other
      exact unused d (sound.nesting.sound.databases.bound d live) live (named.symm.trans name)
  | fresh _ free =>
      rw [World.slot, free] at content
      cases content

/-- The slot of an open under an unused name is shared, or private to the opener. -/
theorem open_owner (sound : SlotsSound world) (unused : world.NameUnused text)
    (given : SlotFor world.native txn (runtime.marshal text) dbi slot) :
    slot.owner = 0 ∨ slot.owner = txn := by
  cases given with
  | @existing old _ content name _ owner =>
      have found : SlotFor world.native txn (runtime.marshal text) dbi old :=
        .existing content name rfl rfl
      rw [owner]
      rcases sound.owner_live content with shared | ⟨d, _, holds, _⟩
      · exact .inl shared
      · refine absurd holds (sound.open_elsewhere unused found ?_)
        have behind := (sound.nesting.sound.natives.slots dbi (by rw [content]; nofun)).1
        exact holds ▸ Nat.ne_of_gt (Nat.lt_of_lt_of_le (by decide) behind)
  | fresh _ _ _ _ owner => exact .inr owner

private theorem opened (sound : SlotsSound world) (live : world.handle t ≠ 0)
    (opens : Opens world (world.handle t) (runtime.marshal text) dbi native)
    (unused : world.NameUnused text) (unaborted : world.AncestorsUnaborted t)
    (nesting : NestingSound (world.added t kind dbi text native)) :
    SlotsSound (world.added t kind dbi text native) := by
  have keeps : KeepsTree world (world.added t kind dbi text native) :=
    .added opens.elsewhere.txns
  have tree := KeepsFates.of_keepsTree sound.fates sound.nesting nesting keeps
  obtain ⟨slot, content, given⟩ := opens.slot
  have new : (world.added t kind dbi text native).dbs.obj world.dbs.next =
      ⟨kind, dbi, envHandle, text, .newDatabaseDisposed t, t⟩ := Heap.alloc_obj_next _ _
  have old {d : DbRef} (different : d ≠ world.dbs.next) :
      (world.added t kind dbi text native).dbs.obj d = world.dbs.obj d := added_dbs_of_ne different
  have oldDbi {d : DbRef} (different : d ≠ world.dbs.next) :
      (world.added t kind dbi text native).dbi d = world.dbi d :=
    congrArg Database.dbi (old different)
  have oldName {d : DbRef} (different : d ≠ world.dbs.next) :
      (world.added t kind dbi text native).marshalled d = world.marshalled d :=
    congrArg (fun database : Database => runtime.marshal database.name) (old different)
  have newName : (world.added t kind dbi text native).marshalled world.dbs.next =
      runtime.marshal text := congrArg (fun database : Database => runtime.marshal database.name) new
  have foreign {d : DbRef} (live : world.dbi d ≠ 0) :
      world.marshalled d ≠ runtime.marshal text :=
    unused d (sound.nesting.sound.databases.bound d live) live
  refine ⟨nesting, sound.fates.kept keeps, fun d open' => ?_, fun d e open' openOther same => ?_,
    fun k held at_ => ?_, fun d open' => ?_, fun closed => ?_⟩
  · by_cases same : d = world.dbs.next
    · subst same
      have holds : (world.added t kind dbi text native).dbi world.dbs.next = dbi :=
        congrArg Database.dbi new
      refine ⟨slot, ?_, given.slotName.trans newName.symm,
        (sound.open_owner unused given).imp_right fun owner => ⟨t, ?_, ?_⟩⟩
      · rw [World.slot, holds]
        exact content
      · exact congrArg Database.disposed new
      · rw [added_handle]
        exact ⟨live, owner⟩
    · rw [oldDbi same] at open'
      exact tree.filled sound.nesting.sound.transactions (old same)
        (opens.elsewhere.others _ (sound.open_elsewhere unused given open'))
        (sound.filled d open')
  · by_cases first : d = world.dbs.next
    · by_cases second : e = world.dbs.next
      · exact first.trans second.symm
      · rw [first, newName, oldName second] at same
        exact absurd same.symm (foreign (oldDbi second ▸ openOther))
    · by_cases second : e = world.dbs.next
      · rw [second, newName, oldName first] at same
        exact absurd same (foreign (oldDbi first ▸ open'))
      · rw [oldName first, oldName second] at same
        rw [oldDbi first] at open'
        rw [oldDbi second] at openOther
        exact sound.names d e open' openOther same
  · by_cases here : k = dbi
    · exact .inr ⟨world.dbs.next, (congrArg Database.dbi new).trans here.symm⟩
    · have before : world.native.dbis.obj k = some held :=
        (opens.elsewhere.others k here).symm.trans at_
      refine (sound.carried k held before).imp_right fun ⟨d, holds⟩ => ⟨d, ?_⟩
      have behind := (sound.nesting.sound.natives.slots k (by rw [before]; nofun)).1
      have live : world.dbi d ≠ 0 := holds ▸ Nat.ne_of_gt (Nat.lt_of_lt_of_le (by decide) behind)
      rw [oldDbi (Nat.ne_of_lt (sound.nesting.sound.databases.bound d live))]
      exact holds
  · by_cases same : d = world.dbs.next
    · have opener : (world.added t kind dbi text native).openedIn d = t := by
        rw [same]
        exact congrArg Database.openedIn new
      have known := sound.nesting.sound.transactions.bound live
      rw [World.Settled, opener]
      refine ⟨known, .inl ⟨?_, ?_, fun u member => ?_⟩⟩
      · rw [same]
        exact congrArg Database.disposed new
      · rw [added_handle]
        exact live
      · rw [tree.ancestors t known] at member
        rw [tree.fate u (Nat.lt_trans
          (sound.nesting.sound.transactions.ancestors_lt member) known)]
        exact unaborted u member
    · rw [oldDbi same] at open'
      exact tree.settled sound.nesting.sound.transactions (old same) (sound.settled d open')
  · refine sound.shut ?_
    have same : native.closed = world.native.closed := by rw [opens.elsewhere.state]
    exact same.symm.trans closed

/-- An open that was taken back closed a slot that no undisposed database holds. -/
theorem openFailed (sound : SlotsSound world) (unused : world.NameUnused text)
    (fails : OpenFails world (world.handle t) (runtime.marshal text) dbi native)
    (nesting : NestingSound { world with native := native }) :
    SlotsSound { world with native := native } := by
  have keeps : KeepsTree world { world with native := native } := .of_eq fails.elsewhere.txns
  obtain ⟨slot, given⟩ := fails.slot
  refine sound.transfer (.of_keepsTree sound.fates sound.nesting nesting keeps) nesting
    (sound.fates.kept keeps) (fun _ open' => ⟨open', rfl⟩) (fun d open' => ?_)
    (fun k held at_ => ?_) fun closed => ?_
  · exact fails.elsewhere.others _ (sound.open_elsewhere unused given open')
  · by_cases here : k = dbi
    · rw [here] at at_
      cases fails.closed.symm.trans at_
    · exact ⟨(fails.elsewhere.others k here).symm.trans at_, fun _ holds => .inr holds⟩
  · have same : native.closed = world.native.closed := by rw [fails.elsewhere.state]
    exact sound.shut (same.symm.trans closed)

end Opening

private theorem begun (sound : SlotsSound world) {kind : TransactionKind} {modes : TransactionModes}
    {parent : Option TxnRef} {registry : Dictionary (id : IntPtr → IntPtr) TxnRef}
    {native : Native} (begins : Begins world modes parent native)
    (nesting : NestingSound (world.begun kind parent registry native)) :
    SlotsSound (world.begun kind parent registry native) := by
  have dbis : native.dbis = world.native.dbis := by rw [begins.state]
  refine sound.transfer (.begun sound.fates sound.nesting nesting begins) nesting
    (sound.fates.begun sound.nesting.sound.natives begins) (fun _ open' => ⟨open', rfl⟩)
    (fun d _ => ?_) (fun k slot content => ⟨?_, fun _ holds => .inr holds⟩) fun closed => ?_
  · rw [begun_native, dbis]
  · rw [begun_native, dbis] at content
    exact content
  · have same : native.closed = world.native.closed := by rw [begins.state]
    exact sound.shut (same.symm.trans closed)

/-- A begin that is taken back ends a transaction that owns no slot. -/
theorem begunTaken (sound : SlotsSound world) {modes : TransactionModes}
    {parent : Option TxnRef} {native : Native} (begins : Begins world modes parent native)
    (nesting : NestingSound { world with native := native.mdbTxnAbort world.native.txns.next }) :
    SlotsSound { world with native := native.mdbTxnAbort world.native.txns.next } := by
  have natives := sound.nesting.sound.natives
  have begunSound := natives.begun begins.accepted begins.state
  have dbis : native.dbis = world.native.dbis := by rw [begins.state]
  refine sound.quiet (.aborted natives begins) nesting rfl (fun k => ?_) ?_ rfl
  · have reached := Native.ended_dbi .abort world.native.txns.next native k
    rw [dbis] at reached
    refine reached.trans ?_
    cases content : world.native.dbis.obj k with
    | none => rfl
    | some slot =>
        have outside : native.within slot.owner world.native.txns.next = false := by
          rcases sound.owner_live content with shared | ⟨_, t, _, _, alive, owner⟩
          · rw [shared]
            exact begunSound.shared_outside (Nat.ne_of_gt natives.positive.1)
          · rw [owner]
            exact within_newest begunSound
              (natives.txns _ (sound.nesting.tree.alive t alive)).2
        dsimp only
        rw [outside]
        rfl
  · have same : native.closed = world.native.closed := by rw [begins.state]
    exact same

/-- A disposed or dropped database takes its own slot with it. -/
theorem databaseGone (sound : SlotsSound world) {native : Native} (live : world.dbi d ≠ 0)
    (elsewhere : world.native.Elsewhere (world.dbi d) native)
    (closed : native.dbis.obj (world.dbi d) = none)
    (nesting : NestingSound (Database.invokeDisposed d { world with
      dbs := world.dbs.modify d Database.clearHandle
      native := native })) :
    SlotsSound (Database.invokeDisposed d { world with
      dbs := world.dbs.modify d Database.clearHandle
      native := native }) := by
  have leaves := DatabasesSound.disposalLeaves world d native
  have keeps : KeepsTree world (Database.invokeDisposed d { world with
      dbs := world.dbs.modify d Database.clearHandle
      native := native }) := .databaseGone elsewhere.txns
  refine sound.transfer (.of_keepsTree sound.fates sound.nesting nesting keeps) nesting
    (sound.fates.kept keeps) (fun e open' => ?_) (fun e open' => ?_) (fun k slot content => ?_)
    fun shut => ?_
  · rw [leaves.dbi] at open'
    split at open'
    · exact (open' rfl).elim
    · refine ⟨open', ?_⟩
      rw [databaseCallback_dbs]
      exact Heap.modify_obj_of_ne _ _ ‹_›
  · rw [leaves.dbi] at open'
    split at open'
    · exact (open' rfl).elim
    · rename_i different
      rw [databaseCallback_native]
      exact elsewhere.others _ fun same => different (sound.unique open' same)
  · rw [databaseCallback_native] at content
    by_cases here : k = world.dbi d
    · rw [here] at content
      cases closed.symm.trans content
    · refine ⟨(elsewhere.others k here).symm.trans content, fun e holds => ?_⟩
      rw [leaves.dbi, if_neg]
      · exact .inr holds
      · rintro rfl
        exact here holds.symm
  · rw [databaseCallback_native] at shut
    have same : native.closed = world.native.closed := by rw [elsewhere.state]
    obtain ⟨env, registry⟩ := sound.shut (same.symm.trans shut)
    refine ⟨leaves.env.trans env, List.eq_nil_iff_forall_not_mem.mpr fun entry member => ?_⟩
    rw [leaves.registry, registry] at member
    cases member.1

private theorem closing (sound : SlotsSound world) {ending : Ending} (live : world.handle t ≠ 0)
    (none : world.NoLiveDescendant t)
    (commits : ending.forCommit = true → world.newDatabases t = [] ∨
      ending.fate = .committed ∧ world.AncestorsCommitted t)
    (nesting : NestingSound (closing t ending world)) : SlotsSound (closing t ending world) := by
  have ends : EndsSettled t ending world (KdSoftLmdb.closing t ending world) :=
    ⟨live, none, .of_closing world t ending, DatabasesSound.closing_dbi,
      DatabasesSound.closing_dbName,
      fun d => ((SameDatabases.closing world t ending).object d).openedIn,
      fun d _ => DatabasesSound.closing_callback d, commits⟩
  refine sound.ended ends nesting fun closed => ?_
  rw [closing_native, Ending.native_closed, Native.record_closed] at closed
  rw [closing_env, DatabasesSound.closing_registry]
  exact sound.shut closed

private theorem promoted (sound : SlotsSound world) {answer : Transaction.CommitAnswer}
    {done rest : List DbRef} {middle : World runtime} (live : world.handle t ≠ 0)
    (succeeded : answer.ret = .success) (none : world.NoLiveDescendant t)
    (commits : world.newDatabases t = [] ∨
      world.environment.env ≠ 0 ∧ world.AncestorsCommitted t)
    (list : world.newDatabases t = done ++ rest)
    (promoted : Promoted done (KdSoftLmdb.closing t (.commit answer) world) middle)
    (finished : after = if rest = [] then middle.onTxn t fun transaction =>
      { transaction with newDatabases := [] } else middle)
    (nesting : NestingSound after) : SlotsSound after := by
  have leaves := DatabasesSound.commitLeaves promoted finished
  have committed : (Ending.commit answer).fate = .committed := if_pos succeeded
  have same : SameDatabases world after := by
    refine ((SameDatabases.closing world t (.commit answer)).trans (.promoted promoted)).trans ?_
    rw [finished]
    split <;> exact .of_eq rfl
  have as : EndsAs t (.commit answer) world after := finished ▸ EndsAs.promoted promoted
  have ends : EndsSettled t (.commit answer) world after := by
    refine ⟨live, none, as, fun d => ?_, leaves.dbName, fun d => (same.object d).openedIn,
      fun d other => ?_, fun _ => commits.imp_right fun root => ⟨committed, root.2⟩⟩
    · rw [leaves.dbi, discarded_of_committed committed]
      rfl
    · rw [leaves.callback, if_neg]
      intro member
      refine other (sound.nesting.sound.databases.pending t live d ?_).2
      rw [list]
      exact List.mem_append_left rest member
  refine sound.ended ends nesting fun closed => ?_
  rw [as.native, closing_native, Ending.native_closed, Native.record_closed] at closed
  obtain ⟨env, registry⟩ := sound.shut closed
  rcases commits with empty | ⟨open', _⟩
  · rw [list] at empty
    rw [leaves.env, leaves.registry, registry, (List.append_eq_nil_iff.mp empty).1]
    exact ⟨env, rfl⟩
  · exact absurd env open'

/-- Ending one transaction makes no other one the parent of a live one. -/
theorem noLiveDescendant_closing {ending : Ending} {u : TxnRef}
    (transactions : TransactionsSound world) (live : world.handle t ≠ 0)
    (none : world.handle u = 0 ∨ world.NoLiveDescendant u) :
    (KdSoftLmdb.closing t ending world).handle u = 0 ∨
      (KdSoftLmdb.closing t ending world).NoLiveDescendant u := by
  have zero {v : TxnRef} (dead : world.handle v = 0) :
      (KdSoftLmdb.closing t ending world).handle v = 0 := by
    rw [closing_handle, dead]
    exact ite_self 0
  refine none.imp zero fun none v known alive => ?_
  rw [(SameTransactions.closing world t ending).ancestors transactions
    (transactions.closing ending live)]
  exact none v (by simpa using known) fun dead => alive (zero dead)

/-- The loop in `Dispose`, when it ends every transaction after its descendants. -/
theorem enumerated (sound : SlotsSound world) (order : List TxnRef)
    (trees : ∀ t ∈ world.environment.transactions.values,
      world.handle t = 0 ∨ world.NoLiveDescendant t) : SlotsSound (world.enumerated order) := by
  have cleared : NestingSound world.handleCleared :=
    ⟨sound.nesting.sound.handleCleared, sound.nesting.tree.same rfl rfl,
      sound.nesting.cursors.kept (.of_eq rfl) rfl rfl (fun _ _ => rfl) sound.nesting.sound.cursors,
      sound.nesting.calls⟩
  have unchanged : SameTransactions world world.handleCleared := .of_eq rfl
  refine (enumerated_invariant (fun current => SlotsSound current ∧
    ∀ t ∈ current.environment.transactions.values,
      current.handle t = 0 ∨ current.NoLiveDescendant t)
    ⟨?_, fun t member => (trees t member).imp_right fun none u known alive => ?_⟩ ?_).1
  · exact sound.transfer (.same sound.nesting cleared rfl rfl) cleared (sound.fates.same rfl rfl)
      (fun _ open' => ⟨open', rfl⟩)
      (fun _ _ => rfl) (fun _ _ content => ⟨content, fun _ holds => .inr holds⟩)
      fun closed => ⟨rfl, (sound.shut closed).2⟩
  · rw [unchanged.ancestors sound.nesting.sound.transactions cleared.sound.transactions]
    exact none u known alive
  · rintro current t ⟨held, trees⟩ member live
    have none := (trees t member).resolve_left live
    have leaf := held.nesting.sound.transactions.leaf none
    have nesting := held.nesting.ended live leaf (.of_closing current t .abort)
      (held.nesting.sound.closing live .abort)
    refine ⟨held.closing live none nofun nesting, fun u registered => ?_⟩
    refine noLiveDescendant_closing held.nesting.sound.transactions live (trees u ?_)
    rw [closing_environment] at registered
    split at registered
    · exact registered
    · obtain ⟨key, entry⟩ := Dictionary.mem_values.mp registered
      exact Dictionary.mem_values.mpr ⟨key, (Dictionary.mem_remove.mp entry).1⟩

/-- `Dispose` forgets the registered databases together with the registry. -/
theorem disposed (sound : SlotsSound world) (order : List TxnRef)
    (trees : ∀ t ∈ world.environment.transactions.values,
      world.handle t = 0 ∨ world.NoLiveDescendant t)
    (nesting : NestingSound (LmdbEnvironment.dispose order world)) :
    SlotsSound (LmdbEnvironment.dispose order world) := by
  by_cases shut : world.environment.env = 0
  · rw [dispose_of_shut order shut] at nesting ⊢
    exact sound.transfer (.same sound.nesting nesting rfl rfl) nesting
      (sound.fates.same rfl rfl) (fun _ open' => ⟨open', rfl⟩) (fun _ _ => rfl)
      (fun _ _ content => ⟨content, fun _ holds => .inr holds⟩) fun _ => ⟨rfl, rfl⟩
  · have looped := sound.enumerated order trees
    have databases : (world.enumerated order).environment.databases =
        world.environment.databases :=
      enumerated_invariant (fun current =>
        current.environment.databases = world.environment.databases) rfl
        fun held _ _ => (closing_databases _ _ _).trans held
    rw [dispose_of_open order shut sound.nesting.sound.transactions.idle] at nesting ⊢
    rw [← databases] at nesting ⊢
    have object (d : DbRef) : ((world.enumerated order).dbs.modifyAll
        (world.enumerated order).environment.databases.values Database.clearHandle).obj d =
        if d ∈ (world.enumerated order).environment.databases.values
          then ((world.enumerated order).dbs.obj d).clearHandle
        else (world.enumerated order).dbs.obj d :=
      Heap.modifyAll_obj _ _ Database.clearHandle_idempotent d
    have open' {d : DbRef} (live : (((world.enumerated order).dbs.modifyAll
        (world.enumerated order).environment.databases.values Database.clearHandle).obj d).dbi ≠ 0) :
        d ∉ (world.enumerated order).environment.databases.values := by
      rw [object] at live
      split at live
      · exact (live rfl).elim
      · assumption
    refine looped.transfer (.same looped.nesting nesting rfl rfl) nesting
      (looped.fates.same rfl rfl) (fun d live => ?_) (fun _ _ => rfl)
      (fun k slot content => ⟨content, fun d holds => ?_⟩) fun _ => ⟨rfl, rfl⟩
    · have unregistered := open' live
      rw [World.dbi, object, if_neg unregistered] at live
      exact ⟨live, (object d).trans (if_neg unregistered)⟩
    · by_cases registered : d ∈ (world.enumerated order).environment.databases.values
      · -- the slot of a registered database is shared
        obtain ⟨name, entry⟩ := Dictionary.mem_values.mp registered
        obtain ⟨live, _, callback⟩ := looped.nesting.sound.databases.registered _ entry
        obtain ⟨held, at_, _, owner⟩ := looped.filled d live
        have same : some held = some slot := by
          rw [← at_, World.slot, holds]
          exact content
        cases same
        rcases owner with done | ⟨t, new, _⟩
        · exact .inl done
        · cases callback.symm.trans new
      · refine .inr ?_
        rw [World.dbi, object, if_neg registered]
        exact holds

/-- What the condition says of a call that opens a database. -/
theorem opens_unused {text : String} (unused : OpensUnused world op)
    (opens : op.open? = some (t, some text)) (live : world.handle t ≠ 0)
    (free : world.environment.databases.containsKey text = false) : world.NameUnused text := by
  rw [OpensUnused, opens] at unused
  refine (unused.resolve_left live).resolve_left fun taken => ?_
  cases free.symm.trans taken

private theorem opens_unaborted {text : String} (unaborted : OpensUnaborted world op)
    (opens : op.open? = some (t, some text)) (live : world.handle t ≠ 0)
    (free : world.environment.databases.containsKey text = false) :
    world.AncestorsUnaborted t := by
  rw [OpensUnaborted, opens] at unaborted
  refine (unaborted.resolve_left live).resolve_left fun taken => ?_
  cases free.symm.trans taken

private theorem ends_tree {ending : Ending} (trees : EndsTrees world op)
    (ends : op.ending? = some (t, ending)) (live : world.handle t ≠ 0) :
    world.NoLiveDescendant t := by
  cases op with
  | commit | disposeTransaction =>
      cases ends
      exact trees.resolve_left live
  | _ => cases ends

private theorem commits_root {ending : Ending} (commits : CommitsToRoot world op)
    (ends : op.ending? = some (t, ending)) (live : world.handle t ≠ 0)
    (forCommit : ending.forCommit = true) : world.newDatabases t = [] ∨
      ending.fate = .committed ∧ world.AncestorsCommitted t := by
  cases op with
  | commit =>
      cases ends
      exact (commits.resolve_left live).imp_right fun root => ⟨if_pos root.1, root.2.2⟩
  | disposeTransaction =>
      cases ends
      cases forCommit
  | _ => cases ends

/-- One step that settles. -/
theorem effect (sound : SlotsSound world) (settles : Settles world op)
    (effect : Effect world op after) : SlotsSound after := by
  obtain ⟨trees, commits, unused, unaborted⟩ := settles
  have natives := sound.nesting.sound.natives
  have nesting := sound.nesting.effect (trees.endsLeaves sound.nesting.sound.transactions) effect
  cases effect with
  | recorded unchanged =>
      exact sound.quiet (.of_eq unchanged.txns) nesting rfl (fun _ => by rw [unchanged.dbis])
        (by rw [unchanged]) rfl
  | begunDatabase _ _ _ begins => exact sound.begun begins nesting
  | begun _ _ _ begins => exact sound.begun begins nesting
  | begunTaken _ _ begins => exact sound.begunTaken begins nesting
  | begunLeaked _ _ begins =>
      exact sound.quiet (.extra natives begins) nesting rfl (fun _ => by rw [begins.state])
        (by rw [begins.state]) rfl
  | closed ends live =>
      exact sound.closing live (ends_tree trees ends live) (commits_root commits ends live) nesting
  | promoted live succeeded _ list promoted =>
      exact sound.promoted live succeeded (trees.resolve_left live)
        ((commits.resolve_left live).imp_right fun root => root.2) list promoted rfl nesting
  | reader _ _ state =>
      exact sound.quiet (.reader state) nesting rfl (fun _ => by rw [state]) (by rw [state]) rfl
  | opened opens _ live free slot =>
      exact sound.opened live slot (opens_unused unused opens live free)
        (opens_unaborted unaborted opens live free) nesting
  | openFailed opens free slot live =>
      exact sound.openFailed (opens_unused unused opens live free) slot nesting
  | databaseGone _ live elsewhere closed => exact sound.databaseGone live elsewhere closed nesting
  | cursorOpened _ _ state =>
      exact sound.quiet (.cursorAdded state.txns) nesting rfl
        (fun _ => congrArg (fun dbis : Heap (Option NativeDbi) => dbis.obj _) state.dbis)
        state.closed rfl
  | cursorGone _ state =>
      refine sound.quiet (.cursorGone state.txns) nesting (by simp) (fun _ => ?_) ?_
        (by simp [World.registry])
      · rw [cursorCallback_native]
        exact congrArg (fun dbis : Heap (Option NativeDbi) => dbis.obj _) state.dbis
      · rw [cursorCallback_native]
        exact state.closed
  | cursorRenewed _ _ _ state =>
      exact sound.quiet (.of_eq state.txns) nesting rfl (fun _ => by rw [state]) (by rw [state]) rfl
  | environmentDisposed => exact sound.disposed _ trees nesting

/-- A new environment has no databases. -/
theorem start (flags : LmdbEnvironmentOptions) (lastTxnId : Nat) :
    SlotsSound (World.opened runtime flags lastTxnId) where
  nesting := .opened flags lastTxnId
  fates := .opened flags lastTxnId
  filled _ open' := (open' rfl).elim
  names _ _ open' := (open' rfl).elim
  carried k slot content := by cases content
  settled _ open' := (open' rfl).elim
  shut closed := by cases closed

/-- The run lemma for histories that settle every open. -/
theorem of_history {flags : LmdbEnvironmentOptions} {lastTxnId : Nat} {ops : List Op}
    (history : History Settles flags lastTxnId ops world) : SlotsSound world :=
  history.invariant SlotsSound (start flags lastTxnId)
    fun held settles transition => held.effect settles (effect_of_step transition)

end SlotsSound

end KdSoftLmdb
