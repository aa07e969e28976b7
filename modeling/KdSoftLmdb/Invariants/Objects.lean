import KdSoftLmdb.Invariants.Native

/-!
# What holds of transactions and cursors in every reachable state

Two invariants that no condition on the calls is needed for: of the transaction
objects, and of the cursors of write transactions.
-/

namespace KdSoftLmdb

variable {runtime : Runtime}

/-- No transaction is ever stored as the active one, references beyond the last
object are unused, and a parent is older than its child. -/
structure TransactionsSound (world : World runtime) : Prop where
  idle : world.environment.activeDbTxn = none
  unborn : ∀ t, world.txns.next ≤ t → world.txns.obj t = default
  older : ∀ t p, (world.txns.obj t).parent = some p → p < t

namespace TransactionsSound

variable {world after : World runtime}

/-- A transaction that has its handle was created. -/
theorem bound (sound : TransactionsSound world) {t : TxnRef} (live : world.handle t ≠ 0) :
    t < world.txns.next := by
  by_contra beyond
  rw [World.handle, sound.unborn t (Nat.le_of_not_lt beyond)] at live
  exact live rfl

/-- A step that keeps references and parents, and leaves unused references alone. -/
theorem transfer (sound : TransactionsSound world)
    (idle : after.environment.activeDbTxn = none) (next : after.txns.next = world.txns.next)
    (unborn : ∀ t, world.txns.obj t = default → world.txns.next ≤ t → after.txns.obj t = default)
    (parent : ∀ t, (after.txns.obj t).parent = (world.txns.obj t).parent) :
    TransactionsSound after where
  idle := idle
  unborn t beyond := by
    rw [next] at beyond
    exact unborn t (sound.unborn t beyond) beyond
  older t p isParent := sound.older t p (parent t ▸ isParent)

/-- The invariant survives a begin. -/
theorem begun (sound : TransactionsSound world) {kind : TransactionKind} {parent : Option TxnRef}
    {transactions : Dictionary (id : IntPtr → IntPtr) TxnRef} {native : Native}
    (valid : validParent world parent = true) :
    TransactionsSound (world.begun kind parent transactions native) where
  idle := sound.idle
  unborn t beyond := by
    have later : world.txns.next + 1 ≤ t := beyond
    exact (Heap.alloc_obj_of_ne _ _ (Nat.ne_of_gt (Nat.lt_of_succ_le later))).trans
      (sound.unborn t (Nat.le_of_succ_le later))
  older t p isParent := by
    simp only [World.begun, Heap.alloc_obj] at isParent
    by_cases same : t = world.txns.next
    · rw [if_pos same] at isParent
      subst isParent
      simp only [validParent, Option.all_some, decide_eq_true_eq] at valid
      exact same ▸ valid
    · rw [if_neg same] at isParent
      exact sound.older t p isParent

/-- A change of one transaction object that keeps its parent. -/
theorem touch (sound : TransactionsSound world) {t : TxnRef} (known : t < world.txns.next)
    (idle : after.environment.activeDbTxn = none) (next : after.txns.next = world.txns.next)
    (others : ∀ u, u ≠ t → after.txns.obj u = world.txns.obj u)
    (parent : (after.txns.obj t).parent = (world.txns.obj t).parent) :
    TransactionsSound after := by
  refine sound.transfer idle next ?_ ?_
  · intro u same beyond
    rw [others u (Nat.ne_of_gt (Nat.lt_of_lt_of_le known beyond)), same]
  · intro u
    by_cases same : u = t
    · rw [same, parent]
    · rw [others u same]

/-- It survives the end of a transaction. -/
theorem closing (sound : TransactionsSound world) {t : TxnRef} (ending : Ending)
    (live : world.handle t ≠ 0) : TransactionsSound (closing t ending world) := by
  refine sound.touch (sound.bound live) (closing_activeDbTxn _ sound.idle) (by simp)
    (fun u different => closing_txn_of_ne _ _ _ different) ?_
  rw [closing_txn_self]
  rfl

private theorem promoted (sound : TransactionsSound world) {done : List DbRef}
    (promoted : Promoted done world after) : TransactionsSound after := by
  obtain ⟨_, _, rfl⟩ := promoted
  exact sound.transfer sound.idle rfl (fun _ same _ => same) fun _ => rfl

private theorem environmentDisposed (sound : TransactionsSound world) (order : List TxnRef) :
    TransactionsSound (LmdbEnvironment.dispose order world) := by
  by_cases shut : world.environment.env = 0
  · rw [dispose_of_shut order shut]
    exact sound.transfer rfl rfl (fun _ same _ => same) fun _ => rfl
  · rw [dispose_of_open order shut sound.idle]
    have looped : TransactionsSound (world.enumerated order) :=
      enumerated_invariant TransactionsSound
        (sound.transfer sound.idle rfl (fun _ same _ => same) fun _ => rfl)
        fun held _ live => held.closing _ live
    exact looped.transfer rfl rfl (fun _ same _ => same) fun _ => rfl

/-- The step lemma: whatever a call does. -/
theorem effect (sound : TransactionsSound world) {op : Op} (effect : Effect world op after) :
    TransactionsSound after := by
  cases effect with
  | recorded => exact sound.transfer sound.idle rfl (fun _ same _ => same) fun _ => rfl
  | begunDatabase valid => exact sound.begun valid
  | begun _ valid => exact sound.begun valid
  | begunTaken => exact sound.transfer sound.idle rfl (fun _ same _ => same) fun _ => rfl
  | begunLeaked => exact sound.transfer sound.idle rfl (fun _ same _ => same) fun _ => rfl
  | closed _ live => exact sound.closing _ live
  | promoted live _ _ _ promoted =>
      have middle := (sound.closing _ live).promoted promoted
      split
      · refine middle.touch ?_ middle.idle rfl (fun _ different => if_neg different)
          (by simp [World.onTxn])
        obtain ⟨_, _, rfl⟩ := promoted
        simpa using sound.bound live
      · exact middle
  | reader => exact sound.transfer sound.idle rfl (fun _ same _ => same) fun _ => rfl
  | opened _ _ live =>
      exact sound.touch (sound.bound live) sound.idle rfl (fun _ different => if_neg different)
        (by simp [World.added])
  | openFailed => exact sound.transfer sound.idle rfl (fun _ same _ => same) fun _ => rfl
  | @databaseGone _ d native =>
      refine sound.transfer ?_ (by simp) (fun t same _ => ?_) fun t => ?_
      · rw [databaseCallback_environment]
        split <;> exact sound.idle
      all_goals obtain ⟨newDatabases, equal, fewer⟩ := databaseCallback_txn { world with
        dbs := world.dbs.modify d Database.clearHandle
        native := native } d t
      · rw [equal]
        simp only [same] at fewer ⊢
        rw [List.sublist_nil.mp fewer]
        rfl
      · rw [equal]
  | cursorOpened known =>
      exact sound.touch known sound.idle rfl (fun _ different => if_neg different)
        (by simp [World.cursorAdded])
  | @cursorGone c native =>
      refine sound.transfer (by simpa using sound.idle) (by simp) (fun t same _ => ?_) fun t => ?_
      all_goals obtain ⟨cursors, equal, fewer, _⟩ := cursorCallback_txn { world with
        cursors := world.cursors.modify c Cursor.clearHandle
        native := native } c t
      · rw [equal]
        simp only [same] at fewer ⊢
        rw [List.sublist_nil.mp fewer]
        rfl
      · rw [equal]
  | cursorRenewed => exact sound.transfer sound.idle rfl (fun _ same _ => same) fun _ => rfl
  | environmentDisposed => exact sound.environmentDisposed _

end TransactionsSound

/-- A transaction object before and after a step: its class, its parent and its
first handle stay, and its handle stays or is cleared. -/
structure SameTransaction (before after : Transaction) : Prop where
  kind : after.kind = before.kind
  parent : after.parent = before.parent
  begun : after.begun = before.begun
  txn : after.txn = before.txn ∨ after.txn = 0

private theorem SameTransaction.refl (transaction : Transaction) :
    SameTransaction transaction transaction := ⟨rfl, rfl, rfl, .inl rfl⟩

/-- Two steps, one after the other. -/
theorem SameTransaction.trans {before middle after : Transaction}
    (first : SameTransaction before middle) (second : SameTransaction middle after) :
    SameTransaction before after where
  kind := second.kind.trans first.kind
  parent := second.parent.trans first.parent
  begun := second.begun.trans first.begun
  txn := by
    rcases second.txn with same | cleared
    · rcases first.txn with same' | cleared
      · exact .inl (same.trans same')
      · exact .inr (same.trans cleared)
    · exact .inr cleared

/-- No transaction object was created, and each one is the same object still. -/
structure SameTransactions (world after : World runtime) : Prop where
  next : after.txns.next = world.txns.next
  object : ∀ t, SameTransaction (world.txns.obj t) (after.txns.obj t)

namespace SameTransactions

variable {world middle after : World runtime}

/-- The transaction objects are not touched. -/
theorem of_eq (same : after.txns = world.txns) : SameTransactions world after :=
  ⟨by rw [same], fun t => by rw [same]; exact .refl _⟩

private theorem trans (first : SameTransactions world middle)
    (second : SameTransactions middle after) :
    SameTransactions world after :=
  ⟨second.next.trans first.next, fun t => (first.object t).trans (second.object t)⟩

private theorem modify {t : TxnRef} {change : Transaction → Transaction}
    (txns : after.txns = world.txns.modify t change)
    (same : SameTransaction (world.txns.obj t) (change (world.txns.obj t))) :
    SameTransactions world after := by
  refine ⟨by rw [txns]; rfl, fun u => ?_⟩
  rw [txns, Heap.modify_obj]
  split
  · rename_i equal
    exact equal ▸ same
  · exact .refl _

/-- The end of a transaction creates none. -/
theorem closing (world : World runtime) (t : TxnRef) (ending : Ending) :
    SameTransactions world (closing t ending world) :=
  modify (closing_txns world t ending) ⟨rfl, rfl, rfl, .inr rfl⟩

/-- Nor does the disposal of the environment. -/
theorem environmentDisposed (idle : world.environment.activeDbTxn = none) (order : List TxnRef) :
    SameTransactions world (LmdbEnvironment.dispose order world) := by
  by_cases shut : world.environment.env = 0
  · rw [dispose_of_shut order shut]
    exact of_eq rfl
  · rw [dispose_of_open order shut idle]
    have looped : SameTransactions world (world.enumerated order) :=
      enumerated_invariant (SameTransactions world) (of_eq rfl)
        fun held _ _ => held.trans (closing _ _ _)
    exact looped.trans (of_eq rfl)

end SameTransactions

/-- The class of the transaction that a begin creates, its parent and its modes. -/
inductive Op.Creates : Op → TransactionKind → TransactionModes → Option TxnRef → Prop where
  | database {modes parent} (writable : modes.isReadOnly = false) :
      Creates (.beginDatabaseTransaction modes parent .success) .databaseTransaction modes parent
  | plain {op modes parent answer} (begin : op.begin? = some (modes, parent, answer))
      (accepted : answer.ret = .success) : Creates op (kindOf modes) modes parent

/-- A step creates one transaction object, or none. -/
theorem transactions_of_effect {world after : World runtime}
    (idle : world.environment.activeDbTxn = none) {op : Op} (effect : Effect world op after) :
    (∃ kind modes parent registry native, op.Creates kind modes parent ∧
      validParent world parent = true ∧ Begins world modes parent native ∧
      after = world.begun kind parent registry native) ∨ SameTransactions world after := by
  cases effect with
  | begunDatabase valid writable _ begins =>
      exact .inl ⟨_, _, _, _, _, .database writable, valid, begins, rfl⟩
  | begun begin valid accepted begins =>
      exact .inl ⟨_, _, _, _, _, .plain begin accepted, valid, begins, rfl⟩
  | closed => exact .inr (.closing _ _ _)
  | @promoted t answer _ _ _ _ _ _ _ promoted =>
      have closed := SameTransactions.closing world t (.commit answer)
      obtain ⟨_, _, rfl⟩ := promoted
      refine .inr (closed.trans ?_)
      split
      · exact .modify (World.onTxn_txns _ _ _) ⟨rfl, rfl, rfl, .inl rfl⟩
      · exact .of_eq rfl
  | opened => exact .inr (.modify (added_txns _ _ _ _ _ _) ⟨rfl, rfl, rfl, .inl rfl⟩)
  | databaseGone =>
      refine .inr ⟨by simp, fun t => ?_⟩
      obtain ⟨_, equal, _⟩ := databaseCallback_txn _ _ t
      rw [equal]
      exact ⟨rfl, rfl, rfl, .inl rfl⟩
  | cursorOpened => exact .inr (.modify (cursorAdded_txns _ _ _ _) ⟨rfl, rfl, rfl, .inl rfl⟩)
  | cursorGone =>
      refine .inr ⟨by simp, fun t => ?_⟩
      obtain ⟨_, equal, _⟩ := cursorCallback_txn _ _ t
      rw [equal]
      exact ⟨rfl, rfl, rfl, .inl rfl⟩
  | environmentDisposed => exact .inr (.environmentDisposed idle _)
  | recorded | begunTaken | begunLeaked | reader | openFailed | cursorRenewed =>
      exact .inr (.of_eq rfl)

/-- An open cursor of a write transaction is in the set of a live transaction,
the one whose callback it has. -/
structure CursorsSound (world : World runtime) : Prop where
  bound : ∀ c, world.cur c ≠ 0 → c < world.cursors.next
  owned : ∀ c, world.cur c ≠ 0 → (world.cursors.obj c).isReadOnly = false →
    ∃ t, (world.cursors.obj c).disposed = some t ∧ world.handle t ≠ 0 ∧
      c ∈ (world.txns.obj t).cursors

namespace CursorsSound

variable {world after : World runtime}

/-- A step that leaves the cursors, the handles and the cursor sets alone. -/
theorem transfer (sound : CursorsSound world) (cursors : after.cursors = world.cursors)
    (kept : ∀ t, after.handle t = world.handle t ∧
      (after.txns.obj t).cursors = (world.txns.obj t).cursors) : CursorsSound after := by
  refine ⟨fun c live => ?_, fun c live writes => ?_⟩
  · rw [World.cur, cursors] at live
    exact cursors ▸ sound.bound c live
  · rw [World.cur, cursors] at live
    rw [cursors] at writes ⊢
    obtain ⟨t, callback, owner, member⟩ := sound.owned c live writes
    exact ⟨t, callback, (kept t).1 ▸ owner, (kept t).2 ▸ member⟩

private theorem begun (sound : CursorsSound world) (transactions : TransactionsSound world)
    {kind : TransactionKind} {parent : Option TxnRef}
    {registry : Dictionary (id : IntPtr → IntPtr) TxnRef} {native : Native} :
    CursorsSound (world.begun kind parent registry native) := by
  refine ⟨sound.bound, fun c live writes => ?_⟩
  obtain ⟨t, callback, owner, member⟩ := sound.owned c live writes
  have kept : (world.begun kind parent registry native).txns.obj t = world.txns.obj t :=
    begun_txn_of_ne (Nat.ne_of_lt (transactions.bound owner))
  exact ⟨t, callback, by rw [World.handle, kept]; exact owner, by rw [kept]; exact member⟩

/-- The cursors stay sound when a transaction ends. -/
theorem closing (sound : CursorsSound world) (t : TxnRef) (ending : Ending) :
    CursorsSound (closing t ending world) := by
  have obj := closing_cursor world t ending
  have earlier (c : CursorRef) (live : (KdSoftLmdb.closing t ending world).cur c ≠ 0) :
      world.cur c ≠ 0 := by
    rw [World.cur, obj] at live
    split at live
    · unfold Cursor.release at live
      split at live
      · exact live
      · exact (live rfl).elim
    · exact live
  refine ⟨fun c live => ?_, fun c live writes => ?_⟩
  · simpa using sound.bound c (earlier c live)
  · have before := earlier c live
    rw [World.cur, obj] at live
    rw [obj] at writes ⊢
    split at live
    · rename_i listed
      unfold Cursor.release at live
      split at live
      · rename_i readOnly
        simp [listed, Cursor.release, readOnly] at writes
      · exact (live rfl).elim
    · rename_i unlisted
      rw [if_neg unlisted] at writes ⊢
      obtain ⟨u, callback, owner, member⟩ := sound.owned c before writes
      have different : u ≠ t := by
        rintro rfl
        exact unlisted member
      exact ⟨u, callback, by rw [closing_handle, if_neg different]; exact owner,
        by rw [closing_txn_of_ne _ _ _ different]; exact member⟩

private theorem cursorOpened (sound : CursorsSound world) {d : DbRef} {t : TxnRef} {native : Native}
    (live : world.handle t ≠ 0) : CursorsSound (world.cursorAdded d t native) := by
  have kept (u : TxnRef) : (world.cursorAdded d t native).handle u = world.handle u ∧
      ∀ c ∈ (world.txns.obj u).cursors,
        c ∈ ((world.cursorAdded d t native).txns.obj u).cursors := by
    rw [World.handle, cursorAdded_txns, Heap.modify_obj]
    split
    · exact ⟨rfl, fun c member => List.mem_insert_of_mem member⟩
    · exact ⟨rfl, fun c member => member⟩
  have created (c : CursorRef) : (world.cursorAdded d t native).cursors.obj c =
      if c = world.cursors.next then ⟨(world.dbs.obj d).kind, world.native.cursors.next,
        (world.txns.obj t).kind = .readOnlyTransaction, some t⟩
      else world.cursors.obj c := rfl
  refine ⟨fun c open' => ?_, fun c open' writes => ?_⟩
  · by_cases same : c = world.cursors.next
    · rw [same]
      exact Nat.lt_succ_self _
    · rw [World.cur, created, if_neg same] at open'
      exact Nat.lt_succ_of_lt (sound.bound c open')
  · rw [created] at writes ⊢
    by_cases same : c = world.cursors.next
    · rw [if_pos same]
      refine ⟨t, rfl, by rw [(kept t).1]; exact live, ?_⟩
      rw [cursorAdded_txns, Heap.modify_obj_self]
      exact same ▸ List.mem_insert_self
    · rw [World.cur, created, if_neg same] at open'
      rw [if_neg same] at writes ⊢
      obtain ⟨u, callback, owner, member⟩ := sound.owned c open' writes
      exact ⟨u, callback, by rw [(kept u).1]; exact owner, (kept u).2 c member⟩

private theorem cursorGone (sound : CursorsSound world) (c : CursorRef) (native : Native) :
    CursorsSound (Cursor.invokeDisposed c { world with
      cursors := world.cursors.modify c Cursor.clearHandle
      native := native }) := by
  refine ⟨fun other open' => ?_, fun other open' writes => ?_⟩
  all_goals
    rw [World.cur, cursorCallback_cursors] at open'
    by_cases same : other = c
    · subst same
      exact (open' (congrArg Cursor.cur (Heap.modify_obj_self _ _ _))).elim
    rw [Heap.modify_obj_of_ne _ _ same] at open'
  · rw [cursorCallback_cursors]
    exact sound.bound other open'
  · rw [cursorCallback_cursors, Heap.modify_obj_of_ne _ _ same] at writes ⊢
    obtain ⟨t, callback, owner, member⟩ := sound.owned other open' writes
    obtain ⟨cursors, equal, _, others⟩ := cursorCallback_txn { world with
      cursors := world.cursors.modify c Cursor.clearHandle
      native := native } c t
    refine ⟨t, callback, ?_, ?_⟩
    · rw [World.handle, equal]
      exact owner
    · rw [equal]
      exact others other same member

private theorem environmentDisposed (sound : CursorsSound world)
    (idle : world.environment.activeDbTxn = none) (order : List TxnRef) :
    CursorsSound (LmdbEnvironment.dispose order world) := by
  by_cases shut : world.environment.env = 0
  · rw [dispose_of_shut order shut]
    exact ⟨sound.bound, sound.owned⟩
  · rw [dispose_of_open order shut idle]
    have looped : CursorsSound (world.enumerated order) :=
      enumerated_invariant CursorsSound ⟨sound.bound, sound.owned⟩
        fun held _ _ => held.closing _ _
    exact ⟨looped.bound, looped.owned⟩

/-- The step lemma: whatever a call does. -/
theorem effect (sound : CursorsSound world) (transactions : TransactionsSound world)
    (natives : NativeSound world.native) {op : Op} (effect : Effect world op after) :
    CursorsSound after := by
  cases effect with
  | recorded => exact ⟨sound.bound, sound.owned⟩
  | begunDatabase => exact sound.begun transactions
  | begun => exact sound.begun transactions
  | begunTaken => exact ⟨sound.bound, sound.owned⟩
  | begunLeaked => exact ⟨sound.bound, sound.owned⟩
  | closed => exact sound.closing _ _
  | @promoted t answer _ _ _ _ _ _ _ promoted =>
      have closed := sound.closing t (.commit answer)
      obtain ⟨_, _, rfl⟩ := promoted
      split
      · refine closed.transfer rfl fun t => ?_
        simp only [World.onTxn, World.handle, Heap.modify_obj]
        split <;> exact ⟨rfl, rfl⟩
      · exact ⟨closed.bound, closed.owned⟩
  | reader => exact ⟨sound.bound, sound.owned⟩
  | opened =>
      refine sound.transfer rfl fun t => ?_
      simp only [World.added, World.handle, Heap.modify_obj]
      split <;> exact ⟨rfl, rfl⟩
  | openFailed => exact ⟨sound.bound, sound.owned⟩
  | databaseGone =>
      refine sound.transfer (by simp) fun t => ?_
      obtain ⟨newDatabases, equal, _⟩ := databaseCallback_txn _ _ t
      rw [World.handle, equal]
      exact ⟨rfl, rfl⟩
  | cursorOpened _ live =>
      refine sound.cursorOpened fun zero => ?_
      rw [zero] at live
      exact Nat.lt_irrefl 0 (natives.txns 0 live).1
  | cursorGone => exact sound.cursorGone _ _
  | cursorRenewed => exact ⟨sound.bound, sound.owned⟩
  | environmentDisposed => exact sound.environmentDisposed transactions.idle _

end CursorsSound

end KdSoftLmdb
