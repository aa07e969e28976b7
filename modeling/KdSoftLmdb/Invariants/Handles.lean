import KdSoftLmdb.Invariants.Nesting

/-!
# No freed handle is in use, while transactions end leaves first

The cursors' side of the invariant on the transaction tree: an open cursor
object holds a native cursor of its own that LMDB has not freed. Together they
say that no object holds a freed handle, so no recorded call was given one.
-/

namespace KdSoftLmdb

variable {runtime : Runtime}

/-- The native cursor that a cursor object holds. -/
def World.nativeCursor (world : World runtime) (c : CursorRef) : NativeCursor :=
  world.native.cursors.obj (world.cur c)

/-- LMDB's readers stay readers. -/
structure KeepsReaders (before after : Native) : Prop where
  next : before.txns.next ≤ after.txns.next
  readOnly : ∀ txn < before.txns.next,
    (after.txns.obj txn).readOnly = (before.txns.obj txn).readOnly

namespace KeepsReaders

variable {before middle after : Native}

private theorem trans (first : KeepsReaders before middle) (second : KeepsReaders middle after) :
    KeepsReaders before after where
  next := Nat.le_trans first.next second.next
  readOnly txn known :=
    (second.readOnly txn (Nat.lt_of_lt_of_le known first.next)).trans (first.readOnly txn known)

/-- The native transactions are not touched. -/
theorem of_eq (same : after.txns = before.txns) : KeepsReaders before after :=
  ⟨Nat.le_of_eq (by rw [same]), fun _ _ => by rw [same]⟩

private theorem ended (native : Native) (ending : Ending) (root : IntPtr) :
    KeepsReaders native (ending.native root native) := by
  refine ⟨Nat.le_of_eq (Native.ended_next ending root native).symm, fun txn _ => ?_⟩
  rw [Native.ended_txn]
  exact (Native.endOf_identity _ _ _ _ _).1

private theorem closing (world : World runtime) (t : TxnRef) (ending : Ending) :
    KeepsReaders world.native (closing t ending world).native := by
  rw [closing_native]
  exact (of_eq rfl : KeepsReaders world.native (world.native.record .mdbTxnId _)).trans
    (ended _ _ _)

private theorem begins {world : World runtime} {modes : TransactionModes} {parent : Option TxnRef}
    {native : Native} (begins : Begins world modes parent native) :
    KeepsReaders world.native native := by
  have txns := begins.state.txns
  refine ⟨by rw [txns]; exact Nat.le_succ _, fun txn known => ?_⟩
  rw [txns]
  exact congrArg NativeTxn.readOnly (Heap.alloc_obj_of_ne _ _ (Nat.ne_of_lt known))

end KeepsReaders

/-- The cursor objects and LMDB's cursors. -/
structure HandlesSound (world : World runtime) : Prop where
  unfreed : ∀ c, world.cur c ≠ 0 → (world.nativeCursor c).freed = false
  injective : ∀ c e, world.cur c ≠ 0 → world.cur c = world.cur e → c = e
  writes : ∀ c t, world.cur c ≠ 0 → (world.cursors.obj c).isReadOnly = false →
    (world.cursors.obj c).disposed = some t → (world.nativeCursor c).txn = world.handle t
  reads : ∀ c, world.cur c ≠ 0 → (world.cursors.obj c).isReadOnly = true →
    (world.nativeCursor c).txn < world.native.txns.next ∧
    (world.native.txns.obj (world.nativeCursor c).txn).readOnly = true

namespace HandlesSound

variable {world after : World runtime}

/-- A step that leaves the cursors that stay open, and their owners, alone. -/
theorem transfer (sound : HandlesSound world) (readers : KeepsReaders world.native after.native)
    (kept : ∀ c, after.cur c ≠ 0 → after.cursors.obj c = world.cursors.obj c ∧
      after.native.cursors.obj (world.cur c) = world.nativeCursor c)
    (owner : ∀ c t, after.cur c ≠ 0 → (world.cursors.obj c).isReadOnly = false →
      (world.cursors.obj c).disposed = some t → after.handle t = world.handle t) :
    HandlesSound after := by
  have cur {c : CursorRef} (live : after.cur c ≠ 0) : after.cur c = world.cur c :=
    congrArg Cursor.cur (kept c live).1
  have earlier {c : CursorRef} (live : after.cur c ≠ 0) : world.cur c ≠ 0 := cur live ▸ live
  have same {c : CursorRef} (live : after.cur c ≠ 0) :
      after.nativeCursor c = world.nativeCursor c := by
    rw [World.nativeCursor, cur live]
    exact (kept c live).2
  refine ⟨fun c live => ?_, fun c e live equal => ?_, fun c t live writes callback => ?_,
    fun c live reads => ?_⟩
  · rw [same live]
    exact sound.unfreed c (earlier live)
  · have liveOther : after.cur e ≠ 0 := equal ▸ live
    rw [cur live, cur liveOther] at equal
    exact sound.injective c e (earlier live) equal
  · rw [(kept c live).1] at writes callback
    rw [same live, owner c t live writes callback]
    exact sound.writes c t (earlier live) writes callback
  · rw [(kept c live).1] at reads
    obtain ⟨known, readOnly⟩ := sound.reads c (earlier live) reads
    rw [same live, readers.readOnly _ known]
    exact ⟨Nat.lt_of_lt_of_le known readers.next, readOnly⟩

/-- A step that leaves all cursors and all handles alone. -/
theorem kept (sound : HandlesSound world) (readers : KeepsReaders world.native after.native)
    (cursors : after.cursors = world.cursors)
    (native : after.native.cursors = world.native.cursors)
    (handles : ∀ t, world.handle t ≠ 0 → after.handle t = world.handle t)
    (owned : CursorsSound world) : HandlesSound after := by
  refine sound.transfer readers (fun c _ => ⟨by rw [cursors], by rw [native]; rfl⟩)
    fun c t live writes callback => ?_
  rw [World.cur, cursors] at live
  obtain ⟨u, callback', alive, _⟩ := owned.owned c live writes
  cases callback.symm.trans callback'
  exact handles t alive

/-- An end frees no cursor of a reader, and of the others only those that are
in a transaction it reaches. -/
theorem ended_nativeCursor (sound : HandlesSound world) (owned : CursorsSound world)
    {native : Native} (ending : Ending) {root : IntPtr} {c : CursorRef}
    (cursors : native.cursors = world.native.cursors)
    (readers : KeepsReaders world.native native) (live : world.cur c ≠ 0)
    (outside : ∀ t, (world.cursors.obj c).isReadOnly = false →
      (world.cursors.obj c).disposed = some t → world.handle t ≠ 0 →
      native.within (world.handle t) root = false) :
    (ending.native root native).cursors.obj (world.cur c) = world.nativeCursor c := by
  rw [Native.ended_cursor, cursors, ← World.nativeCursor, if_neg]
  cases readOnly : (world.cursors.obj c).isReadOnly with
  | true =>
      obtain ⟨known, reads⟩ := sound.reads c live readOnly
      rw [readers.readOnly _ known, reads]
      simp
  | false =>
      obtain ⟨t, callback, alive, _⟩ := owned.owned c live readOnly
      rw [sound.writes c t live readOnly callback, outside t readOnly callback alive]
      simp

private theorem ended (sound : HandlesSound world) (owned : CursorsSound world)
    (tree : TreeSound world)
    (transactions : TransactionsSound world) {t : TxnRef} {ending : Ending}
    (live : world.handle t ≠ 0) (leaf : world.Leaf t) (leaves : EndsAs t ending world after) :
    HandlesSound after := by
  have object (c : CursorRef) : after.cursors.obj c =
      if c ∈ (world.txns.obj t).cursors then (world.cursors.obj c).release
      else world.cursors.obj c := by
    rw [leaves.cursors, closing_cursor]
  have earlier {c : CursorRef} (open' : after.cur c ≠ 0) : world.cur c ≠ 0 ∧
      after.cursors.obj c = world.cursors.obj c ∧
      (c ∈ (world.txns.obj t).cursors → (world.cursors.obj c).isReadOnly = true) := by
    rw [World.cur, object] at open'
    rw [object]
    split at open'
    · rename_i listed
      unfold Cursor.release at open' ⊢
      split at open'
      · rename_i readOnly
        exact ⟨open', by rw [if_pos listed, if_pos readOnly], fun _ => readOnly⟩
      · exact (open' rfl).elim
    · rename_i unlisted
      exact ⟨open', if_neg unlisted, fun listed => absurd listed unlisted⟩
  -- a write cursor that stays open belongs to another transaction
  have foreign {c : CursorRef} {u : TxnRef} (open' : after.cur c ≠ 0)
      (writes : (world.cursors.obj c).isReadOnly = false)
      (callback : (world.cursors.obj c).disposed = some u) : u ≠ t := by
    rintro rfl
    obtain ⟨v, callback', _, member⟩ := owned.owned c (earlier open').1 writes
    cases callback.symm.trans callback'
    rw [(earlier open').2.2 member] at writes
    cases writes
  refine sound.transfer ?_ (fun c open' => ⟨(earlier open').2.1, ?_⟩)
    fun c u open' writes callback => ?_
  · rw [leaves.native]
    exact .closing world t ending
  · rw [leaves.native, closing_native]
    refine sound.ended_nativeCursor owned ending rfl (.of_eq rfl) (earlier open').1 ?_
    intro u writes callback alive
    exact tree.outside transactions live leaf alive (foreign open' writes callback)
  · rw [leaves.handle, if_neg (foreign open' writes callback)]

private theorem cursorOpened (sound : HandlesSound world) (tree : TreeSound world)
    (natives : NativeSound world.native) {d : DbRef} {t : TxnRef} {native : Native}
    (live : world.native.live (world.handle t) = true)
    (state : ({ world.native with
      cursors := world.native.cursors.alloc ⟨world.handle t, world.dbi d, false⟩ }
        : Native).Unchanged native) : HandlesSound (world.cursorAdded d t native) := by
  have alive : world.handle t ≠ 0 := by
    intro zero
    rw [zero] at live
    exact Nat.lt_irrefl 0 (natives.txns 0 live).1
  have txns : native.txns = world.native.txns := state.txns
  have new : (world.cursorAdded d t native).cursors.obj world.cursors.next =
      ⟨(world.dbs.obj d).kind, world.native.cursors.next,
        (world.txns.obj t).kind = .readOnlyTransaction, some t⟩ := if_pos rfl
  have old {c : CursorRef} (different : c ≠ world.cursors.next) :
      (world.cursorAdded d t native).cursors.obj c = world.cursors.obj c := if_neg different
  have newCur : (world.cursorAdded d t native).cur world.cursors.next =
      world.native.cursors.next := congrArg Cursor.cur new
  have oldCur {c : CursorRef} (different : c ≠ world.cursors.next) :
      (world.cursorAdded d t native).cur c = world.cur c := congrArg Cursor.cur (old different)
  have older {c : CursorRef} (open' : world.cur c ≠ 0) :
      world.cur c ≠ world.native.cursors.next :=
    Nat.ne_of_lt (natives.cursors _ (sound.unfreed c open')).2
  have newNative : (world.cursorAdded d t native).nativeCursor world.cursors.next =
      ⟨world.handle t, world.dbi d, false⟩ := by
    rw [World.nativeCursor, newCur]
    exact (congrArg (fun cursors => cursors.obj world.native.cursors.next) state.cursors).trans
      (Heap.alloc_obj_next _ _)
  have oldNative {c : CursorRef} (different : c ≠ world.cursors.next) (open' : world.cur c ≠ 0) :
      (world.cursorAdded d t native).nativeCursor c = world.nativeCursor c := by
    rw [World.nativeCursor, oldCur different]
    exact (congrArg (fun cursors => cursors.obj (world.cur c)) state.cursors).trans
      (Heap.alloc_obj_of_ne _ _ (older open'))
  have handle (u : TxnRef) : (world.cursorAdded d t native).handle u = world.handle u := by
    rw [World.handle, cursorAdded_txns, Heap.modify_obj]
    split <;> rfl
  refine ⟨fun c open' => ?_, fun c e open' equal => ?_, fun c u open' writes callback => ?_,
    fun c open' reads => ?_⟩
  · by_cases same : c = world.cursors.next
    · rw [same, newNative]
    · rw [oldCur same] at open'
      rw [oldNative same open']
      exact sound.unfreed c open'
  · by_cases same : c = world.cursors.next
    · by_cases sameOther : e = world.cursors.next
      · exact same.trans sameOther.symm
      · rw [same, newCur] at open' equal
        rw [oldCur sameOther] at equal
        exact absurd equal.symm (older (equal ▸ open'))
    · rw [oldCur same] at open' equal
      by_cases sameOther : e = world.cursors.next
      · rw [sameOther, newCur] at equal
        exact absurd equal (older open')
      · rw [oldCur sameOther] at equal
        exact sound.injective c e open' equal
  · rw [handle]
    by_cases same : c = world.cursors.next
    · rw [same, new] at callback
      cases callback
      rw [same, newNative]
    · rw [old same] at writes callback
      rw [oldCur same] at open'
      rw [oldNative same open']
      exact sound.writes c u open' writes callback
  · have readOnly (txn : IntPtr) : ((world.cursorAdded d t native).native.txns.obj txn).readOnly =
        (world.native.txns.obj txn).readOnly := congrArg (fun txns => (txns.obj txn).readOnly) txns
    have next : (world.cursorAdded d t native).native.txns.next = world.native.txns.next :=
      congrArg Heap.next txns
    rw [readOnly, next]
    by_cases same : c = world.cursors.next
    · rw [same, new] at reads
      rw [same, newNative]
      exact ⟨(natives.txns _ live).2, (tree.readers t alive).mpr (of_decide_eq_true reads)⟩
    · rw [old same] at reads
      rw [oldCur same] at open'
      rw [oldNative same open']
      exact sound.reads c open' reads

private theorem cursorGone (sound : HandlesSound world) {c : CursorRef} {native : Native}
    (live : world.cur c ≠ 0)
    (state : ({ world.native with
      cursors := world.native.cursors.modify (world.cur c) fun old => { old with freed := true } }
        : Native).Unchanged native) :
    HandlesSound (Cursor.invokeDisposed c { world with
      cursors := world.cursors.modify c Cursor.clearHandle
      native := native }) := by
  refine sound.transfer (.of_eq ?_) (fun e open' => ?_) fun e t _ _ _ => ?_
  · rw [cursorCallback_native]
    exact state.txns
  · rw [World.cur, cursorCallback_cursors] at open'
    have different : e ≠ c := by
      rintro rfl
      exact open' (congrArg Cursor.cur (Heap.modify_obj_self _ _ _))
    rw [Heap.modify_obj_of_ne _ _ different] at open'
    rw [cursorCallback_cursors, cursorCallback_native]
    refine ⟨Heap.modify_obj_of_ne _ _ different, ?_⟩
    refine (congrArg (fun cursors => cursors.obj (world.cur e)) state.cursors).trans
      (if_neg fun same => ?_)
    exact different (sound.injective e c open' same)
  · obtain ⟨_, equal, _⟩ := cursorCallback_txn { world with
      cursors := world.cursors.modify c Cursor.clearHandle
      native := native } c t
    rw [World.handle, equal]
    rfl

private theorem cursorRenewed (sound : HandlesSound world) (natives : NativeSound world.native)
    {c : CursorRef} {t : TxnRef} {native : Native}
    (readOnly : (world.cursors.obj c).isReadOnly = true) (live : world.cur c ≠ 0)
    (reader : world.native.live (world.handle t) = true ∧
      (world.native.txns.obj (world.handle t)).readOnly = true)
    (state : ({ world.native with
      cursors := world.native.cursors.modify (world.cur c) fun old =>
        { old with txn := world.handle t } } : Native).Unchanged native) :
    HandlesSound { world with native := native } := by
  have txns : native.txns = world.native.txns := state.txns
  have self : World.nativeCursor { world with native := native } c =
      { world.nativeCursor c with txn := world.handle t } :=
    (congrArg (fun cursors => cursors.obj (world.cur c)) state.cursors).trans (if_pos rfl)
  have other {e : CursorRef} (open' : world.cur e ≠ 0) (different : e ≠ c) :
      World.nativeCursor { world with native := native } e = world.nativeCursor e :=
    (congrArg (fun cursors => cursors.obj (world.cur e)) state.cursors).trans
      (if_neg fun same => different (sound.injective e c open' same))
  refine ⟨fun e open' => ?_, sound.injective, fun e u open' writes callback => ?_,
    fun e open' reads => ?_⟩
  · by_cases same : e = c
    · rw [same, self]
      exact sound.unfreed c live
    · rw [other open' same]
      exact sound.unfreed e open'
  · have different : e ≠ c := by
      rintro rfl
      rw [readOnly] at writes
      cases writes
    rw [other open' different]
    exact sound.writes e u open' writes callback
  · by_cases same : e = c
    · rw [same, self, txns]
      exact ⟨(natives.txns _ reader.1).2, reader.2⟩
    · rw [other open' same, txns]
      exact sound.reads e open' reads

end HandlesSound

/-- What holds of every state while transactions end leaves first. -/
structure NestingSound (world : World runtime) : Prop where
  sound : WorldSound world
  tree : TreeSound world
  cursors : HandlesSound world
  calls : ∀ call ∈ world.native.calls, call.dangling = false

namespace NestingSound

variable {world after : World runtime}

/-- A new environment has no transactions. -/
theorem opened (flags : LmdbEnvironmentOptions) (lastTxnId : Nat) :
    NestingSound (World.opened runtime flags lastTxnId) where
  sound := .opened flags lastTxnId
  tree := ⟨fun _ live => (live rfl).elim, fun _ _ live => (live rfl).elim,
    fun _ live => (live rfl).elim, fun _ live => (live rfl).elim⟩
  cursors := ⟨fun _ live => (live rfl).elim, fun _ _ live => (live rfl).elim,
    fun _ _ live => (live rfl).elim, fun _ live => (live rfl).elim⟩
  calls := nofun

/-- No object holds a handle that LMDB has freed. -/
theorem unfreed (nesting : NestingSound world) {handle : NativeHandle}
    (held : world.Holds handle) : world.native.freed handle = false := by
  cases handle with
  | txn handle =>
      obtain ⟨t, rfl⟩ := held
      by_cases live : world.handle t = 0
      · simp [Native.freed, live]
      · simp [Native.freed, nesting.tree.alive t live]
  | cursor handle =>
      obtain ⟨c, rfl⟩ := held
      by_cases live : world.cur c = 0
      · simp [Native.freed, live]
      · have unfreed := nesting.cursors.unfreed c live
        rw [World.nativeCursor] at unfreed
        simp [Native.freed, unfreed]
  | env => rfl
  | dbi => rfl

private theorem callsFrom (nesting : NestingSound world) {native : Native}
    (calls : CallsFrom world native) : ∀ call ∈ native.calls, call.dangling = false := by
  obtain ⟨added, recorded, held⟩ := calls
  intro call member
  rw [recorded] at member
  rcases List.mem_append.mp member with new | old
  · cases dangling : call.dangling with
    | false => rfl
    | true =>
        obtain ⟨handle, holds, freed⟩ := held call new dangling
        cases (nesting.unfreed holds).symm.trans freed
  · exact nesting.calls call old

/-- The two calls that an end makes are given a live handle. -/
theorem closing_calls (nesting : NestingSound world) (t : TxnRef) (ending : Ending) :
    ∀ call ∈ (closing t ending world).native.calls, call.dangling = false := by
  have held := nesting.unfreed (show world.Holds (.txn (world.handle t)) from ⟨t, rfl⟩)
  have asked := nesting.callsFrom (callsFrom_txn world .mdbTxnId t)
  intro call member
  rw [closing_native, Ending.native_calls] at member
  rcases List.mem_cons.mp member with rfl | earlier
  · have unfreed : (world.native.record .mdbTxnId [.txn (world.handle t)]).freed
        (.txn (world.handle t)) = false := held
    simpa using unfreed
  · exact asked call earlier

/-- A transaction without live children may end. -/
theorem ended (nesting : NestingSound world) {t : TxnRef} {ending : Ending}
    (live : world.handle t ≠ 0) (leaf : world.Leaf t) (leaves : EndsAs t ending world after)
    (sound : WorldSound after) : NestingSound after where
  sound := sound
  tree := nesting.tree.ended nesting.sound.transactions live leaf leaves
  cursors := nesting.cursors.ended nesting.sound.cursors nesting.tree nesting.sound.transactions
    live leaf leaves
  calls := by
    rw [leaves.native]
    exact nesting.closing_calls t ending

/-- A leaf stays a leaf while other transactions end. -/
theorem leaf_closing {t u : TxnRef} (ending : Ending) (leaf : world.Leaf u) :
    (closing t ending world).Leaf u := by
  have ended (v : TxnRef) (zero : world.handle v = 0) : (closing t ending world).handle v = 0 := by
    rw [closing_handle, zero]
    exact ite_self 0
  refine leaf.imp (ended u) fun children v known isParent => ended v (children v ?_ ?_)
  · rw [closing_txns, Heap.modify_next] at known
    exact known
  · exact ((SameTransactions.closing world t ending).object v).parent.symm.trans isParent

/-- The loop of the environment's `Dispose`, when it only finds leaves. -/
theorem enumerated (nesting : NestingSound world) (order : List TxnRef)
    (leaves : ∀ t ∈ world.environment.transactions.values, world.Leaf t) :
    NestingSound (world.enumerated order) := by
  refine (enumerated_invariant (fun current => NestingSound current ∧
    ∀ t ∈ current.environment.transactions.values, current.Leaf t) ⟨?_, leaves⟩ ?_).1
  · exact ⟨nesting.sound.handleCleared, nesting.tree.same rfl rfl, nesting.cursors.kept (.of_eq rfl)
      rfl rfl (fun _ _ => rfl) nesting.sound.cursors, nesting.calls⟩
  · rintro current t ⟨held, leaves⟩ member live
    refine ⟨held.ended live (leaves t member) (.of_closing current t .abort)
      (held.sound.closing live .abort), fun u registered => leaf_closing .abort (leaves u ?_)⟩
    rw [closing_environment] at registered
    split at registered
    · exact registered
    · obtain ⟨key, entry⟩ := Dictionary.mem_values.mp registered
      exact Dictionary.mem_values.mpr ⟨key, (Dictionary.mem_remove.mp entry).1⟩

private theorem disposed (nesting : NestingSound world) (order : List TxnRef)
    (leaves : ∀ t ∈ world.environment.transactions.values, world.Leaf t)
    (sound : WorldSound (LmdbEnvironment.dispose order world)) :
    NestingSound (LmdbEnvironment.dispose order world) := by
  by_cases shut : world.environment.env = 0
  · rw [dispose_of_shut order shut] at sound ⊢
    exact ⟨sound, nesting.tree.same rfl rfl, nesting.cursors.kept (.of_eq rfl) rfl rfl
      (fun _ _ => rfl) nesting.sound.cursors, nesting.calls⟩
  · have looped := nesting.enumerated order leaves
    rw [dispose_of_open order shut nesting.sound.transactions.idle] at sound ⊢
    refine ⟨sound, looped.tree.same rfl rfl, looped.cursors.kept (.of_eq rfl) rfl rfl
      (fun _ _ => rfl) looped.sound.cursors, fun call member => ?_⟩
    rcases List.mem_cons.mp member with rfl | earlier
    · rfl
    · exact looped.calls call earlier

section Effect

variable {op : Op}

private theorem tree_effect (nesting : NestingSound world) (leaves : EndsLeaves world op)
    (effect : Effect world op after) : TreeSound after := by
  have sound := nesting.sound.effect effect
  rcases treeEffect_of_effect nesting.sound.natives effect with
    ⟨creates, valid, begins, equal⟩ | ⟨ends, live, as⟩ | ⟨rfl, _, equal⟩ | keeps
  · rw [equal]
    exact nesting.tree.begun nesting.sound.natives nesting.sound.transactions creates valid begins
  · exact (nesting.ended live (leaves.leaf ends) as sound).tree
  · rw [equal] at sound ⊢
    exact (nesting.disposed _ leaves sound).tree
  · exact nesting.tree.kept keeps

private theorem cursors_effect (nesting : NestingSound world) (leaves : EndsLeaves world op)
    (effect : Effect world op after) : HandlesSound after := by
  have sound := nesting.sound.effect effect
  have owned := nesting.sound.cursors
  have natives := nesting.sound.natives
  have begun {kind : TransactionKind} {modes : TransactionModes} {parent : Option TxnRef}
      {registry : Dictionary (id : IntPtr → IntPtr) TxnRef} {native : Native}
      (begins : Begins world modes parent native) :
      HandlesSound (world.begun kind parent registry native) :=
    nesting.cursors.kept (.begins begins) rfl begins.state.cursors
      (fun _ live => congrArg Transaction.txn
        (if_neg (Nat.ne_of_lt (nesting.sound.transactions.bound live)))) owned
  cases effect with
  | recorded unchanged =>
      exact nesting.cursors.kept (.of_eq unchanged.txns) rfl unchanged.cursors (fun _ _ => rfl) owned
  | begunDatabase _ _ _ begins => exact begun begins
  | begun _ _ _ begins => exact begun begins
  | begunTaken _ _ begins =>
      have begunSound := natives.begun begins.accepted begins.state
      refine nesting.cursors.transfer ((KeepsReaders.begins begins).trans (.ended _ .abort _))
        (fun c live => ⟨rfl, ?_⟩) fun _ _ _ _ _ => rfl
      exact nesting.cursors.ended_nativeCursor owned .abort begins.state.cursors (.begins begins) live
        fun t _ _ alive => within_newest begunSound (natives.txns _ (nesting.tree.alive t alive)).2
  | begunLeaked _ _ begins =>
      exact nesting.cursors.kept (.begins begins) rfl begins.state.cursors (fun _ _ => rfl) owned
  | closed ends live =>
      exact (nesting.ended live (leaves.leaf ends) (.of_closing _ _ _) sound).cursors
  | promoted live _ _ _ promoted =>
      exact (nesting.ended live (leaves.leaf rfl) (.promoted promoted) sound).cursors
  | reader _ _ state =>
      refine nesting.cursors.kept ⟨Nat.le_of_eq ?_, fun txn _ => ?_⟩ rfl state.cursors
        (fun _ _ => rfl) owned
      · exact (congrArg Heap.next state.txns).symm
      · rw [state.txns, Heap.modify_obj]
        split <;> rfl
  | opened _ _ _ _ slot =>
      exact nesting.cursors.kept (.of_eq slot.elsewhere.txns) rfl slot.elsewhere.cursors
        (fun u _ => added_handle u) owned
  | openFailed _ _ slot =>
      exact nesting.cursors.kept (.of_eq slot.elsewhere.txns) rfl slot.elsewhere.cursors
        (fun _ _ => rfl) owned
  | databaseGone _ _ elsewhere =>
      refine nesting.cursors.kept (.of_eq ?_) (by simp) ?_ (fun u _ => ?_) owned
      · rw [databaseCallback_native]
        exact elsewhere.txns
      · rw [databaseCallback_native]
        exact elsewhere.cursors
      · obtain ⟨_, equal, _⟩ := databaseCallback_txn _ _ u
        rw [World.handle, equal]
        rfl
  | cursorOpened _ live state => exact nesting.cursors.cursorOpened nesting.tree natives live state
  | cursorGone live state => exact nesting.cursors.cursorGone live state
  | cursorRenewed readOnly live reader state =>
      exact nesting.cursors.cursorRenewed natives readOnly live reader state
  | environmentDisposed => exact (nesting.disposed _ leaves sound).cursors

private theorem calls_effect (nesting : NestingSound world) (leaves : EndsLeaves world op)
    (effect : Effect world op after) : ∀ call ∈ after.native.calls, call.dangling = false := by
  have sound := nesting.sound.effect effect
  cases effect with
  | recorded _ calls => exact nesting.callsFrom calls
  | begunDatabase _ _ _ begins => exact nesting.callsFrom begins.calls
  | begun _ _ _ begins => exact nesting.callsFrom begins.calls
  | begunTaken _ _ begins =>
      intro call member
      rcases List.mem_cons.mp member with rfl | earlier
      · have live := congrArg (fun txns => (txns.obj world.native.txns.next).fate) begins.state.txns
        simp only [Heap.alloc_obj_next, Native.begun] at live
        simp [Native.freed, Native.live, live]
      · exact nesting.callsFrom begins.calls call earlier
  | begunLeaked _ _ begins => exact nesting.callsFrom begins.calls
  | closed ends live =>
      exact (nesting.ended live (leaves.leaf ends) (.of_closing _ _ _) sound).calls
  | promoted live _ _ _ promoted =>
      exact (nesting.ended live (leaves.leaf rfl) (.promoted promoted) sound).calls
  | reader _ _ _ _ calls => exact nesting.callsFrom calls
  | opened _ _ _ _ slot => exact nesting.callsFrom slot.calls
  | openFailed _ _ slot => exact nesting.callsFrom slot.calls
  | databaseGone _ _ _ _ calls =>
      rw [databaseCallback_native]
      exact nesting.callsFrom calls
  | cursorOpened _ _ _ calls => exact nesting.callsFrom calls
  | cursorGone _ _ calls =>
      rw [cursorCallback_native]
      exact nesting.callsFrom calls
  | cursorRenewed _ _ _ _ calls => exact nesting.callsFrom calls
  | environmentDisposed => exact (nesting.disposed _ leaves sound).calls

/-- The step lemma, for calls that end no transaction above a live one. -/
theorem effect (nesting : NestingSound world) (leaves : EndsLeaves world op)
    (effect : Effect world op after) : NestingSound after :=
  ⟨nesting.sound.effect effect, nesting.tree_effect leaves effect,
    nesting.cursors_effect leaves effect, nesting.calls_effect leaves effect⟩

end Effect

/-- The run lemma for such histories. -/
theorem of_history {flags : LmdbEnvironmentOptions} {lastTxnId : Nat} {ops : List Op}
    (history : History EndsLeaves flags lastTxnId ops world) : NestingSound world :=
  history.invariant NestingSound (opened flags lastTxnId)
    fun held leaves transition => held.effect leaves (effect_of_step transition)

end NestingSound

end KdSoftLmdb
