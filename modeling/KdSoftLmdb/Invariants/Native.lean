import KdSoftLmdb.Effects.Effect

/-!
# What holds of LMDB's side in every reachable state

Handles of live objects were handed out, a nested transaction is younger than
its ancestors, and an open slot lies behind the core tables. What an end does to
one transaction, cursor or slot is stated here once.
-/

namespace KdSoftLmdb

variable {runtime : Runtime}

namespace Native

section Ended

variable (ending : Ending) (root : IntPtr) (native : Native)

/-- A transaction that has ended is not live. -/
theorem fate_ne_live : ending.fate ≠ .live := by
  cases ending with
  | abort => simp [Ending.fate]
  | commit answer =>
      rw [Ending.fate]
      split <;> simp

/-- What the end of a transaction leaves of every native transaction. -/
theorem ended_txn (txn : IntPtr) : (ending.native root native).txns.obj txn =
    native.endOf root ending.fate txn (native.txns.obj txn) := by
  rw [Ending.native_txns, Heap.map_obj]

@[simp] theorem ended_next : (ending.native root native).txns.next = native.txns.next := by
  rw [Ending.native_txns, Heap.map_next]

/-- An end leaves the identity of every transaction alone. -/
theorem endOf_identity (fate : Fate) (txn : IntPtr) (old : NativeTxn) :
    (native.endOf root fate txn old).readOnly = old.readOnly ∧
    (native.endOf root fate txn old).id = old.id ∧
    (native.endOf root fate txn old).chain = old.chain := by
  unfold endOf
  split
  · exact ⟨rfl, rfl, rfl⟩
  · split <;> exact ⟨rfl, rfl, rfl⟩

/-- Exactly the live transactions within the ended one are no longer live. -/
theorem live_ended (txn : IntPtr) : (ending.native root native).live txn =
    (native.live txn && !native.within txn root) := by
  have different := fate_ne_live ending
  rw [live, live, ended_txn]
  unfold endOf
  by_cases same : txn = root
  · subst same
    cases (native.txns.obj txn).fate <;> simp [within, different]
  · by_cases reached : (native.txns.obj txn).fate = .live ∧ native.within txn root = true
    · simp [same, reached, different]
    · rw [if_neg same, if_neg reached]
      cases inside : native.within txn root with
      | false => simp
      | true =>
          have gone : (native.txns.obj txn).fate ≠ .live := fun alive => reached ⟨alive, inside⟩
          simp [gone]

/-- An end that finds its transaction live counts once for each transaction it ends. -/
theorem ends_ended {root : IntPtr} (alive : native.live root = true) (txn : IntPtr) :
    ((ending.native root native).txns.obj txn).ends =
      if native.live txn = true ∧ native.within txn root = true
        then (native.txns.obj txn).ends + 1
      else (native.txns.obj txn).ends := by
  rw [ended_txn]
  unfold endOf
  by_cases same : txn = root
  · subst same
    simp [alive, within]
  · by_cases reached : (native.txns.obj txn).fate = .live ∧ native.within txn root = true
    · simp [same, reached, live]
    · simp only [same, if_false, if_neg reached]
      rw [if_neg]
      simpa [live] using reached

/-- What it leaves of every slot. -/
theorem ended_dbi (slot : Nat) : (ending.native root native).dbis.obj slot =
    match native.dbis.obj slot with
    | none => none
    | some dbi =>
        if native.within dbi.owner root then
          if ending.fate = .committed then
            some { dbi with owner := (native.txns.obj root).chain.headD 0 }
          else none
        else some dbi := by
  rw [Ending.native_dbis]
  rfl

/-- An end keeps the slots that nothing within the ended transaction owns. -/
theorem ended_dbi_of_outside {slot : Nat} {dbi : NativeDbi}
    (content : native.dbis.obj slot = some dbi) (outside : native.within dbi.owner root = false) :
    (ending.native root native).dbis.obj slot = some dbi := by
  rw [ended_dbi, content]
  dsimp only
  rw [outside]
  rfl

/-- What it leaves of every native cursor. -/
theorem ended_cursor (cursor : IntPtr) : (ending.native root native).cursors.obj cursor =
    if native.within (native.cursors.obj cursor).txn root &&
        !(native.txns.obj (native.cursors.obj cursor).txn).readOnly then
      { native.cursors.obj cursor with freed := true }
    else native.cursors.obj cursor := by
  rw [Ending.native_cursors]
  rfl

end Ended

end Native

/-- Live native objects have handles that were handed out. -/
structure NativeSound (native : Native) : Prop where
  txns : ∀ txn, native.live txn = true → 0 < txn ∧ txn < native.txns.next
  older : ∀ txn, ∀ ancestor ∈ (native.txns.obj txn).chain, ancestor < txn
  slots : ∀ slot, native.dbis.obj slot ≠ none → coreDbs ≤ slot ∧ slot < native.dbis.next
  cursors : ∀ cursor, (native.cursors.obj cursor).freed = false →
    0 < cursor ∧ cursor < native.cursors.next
  positive : 0 < native.txns.next ∧ 0 < native.cursors.next

namespace NativeSound

variable {native after : Native}

/-- A shared slot is owned by no transaction. -/
theorem shared_outside (sound : NativeSound native) {root : IntPtr} (positive : root ≠ 0) :
    native.within 0 root = false := by
  have unlisted : root ∉ (native.txns.obj 0).chain := fun member =>
    Nat.not_lt_zero _ (sound.older 0 _ member)
  simpa [Native.within, unlisted] using Ne.symm positive

/-- LMDB's side of a new environment. -/
theorem opened (flags : LmdbEnvironmentOptions) (lastTxnId : Nat) :
    NativeSound (.opened flags lastTxnId) where
  txns txn live := by simp [Native.live, Native.opened, default] at live
  older txn ancestor member := by simp [Native.opened, default] at member
  slots slot content := by simp [Native.opened, default] at content
  cursors cursor open' := by simp [Native.opened, default] at open'
  positive := ⟨Nat.one_pos, Nat.one_pos⟩

private theorem unchanged (sound : NativeSound native) (same : native.Unchanged after) :
    NativeSound after := by
  rw [same]
  exact ⟨sound.txns, sound.older, sound.slots, sound.cursors, sound.positive⟩

/-- The invariant survives a native begin. -/
theorem begun (sound : NativeSound native) {parent : IntPtr} {modes : TransactionModes}
    (accepted : native.canBegin parent modes = true)
    (state : ({ native with txns := native.txns.alloc (native.begun parent modes) }
      : Native).Unchanged after) : NativeSound after := by
  have started : NativeSound
      { native with txns := native.txns.alloc (native.begun parent modes) } := by
    refine ⟨fun txn live => ?_, fun txn ancestor member => ?_, sound.slots, sound.cursors,
      Nat.succ_pos _, sound.positive.2⟩
    · rw [Native.live, Heap.alloc_obj] at live
      by_cases same : txn = native.txns.next
      · exact ⟨same ▸ sound.positive.1, same ▸ Nat.lt_succ_self _⟩
      · rw [if_neg same] at live
        exact ⟨(sound.txns txn live).1, Nat.lt_succ_of_lt (sound.txns txn live).2⟩
    · rw [Heap.alloc_obj] at member
      by_cases same : txn = native.txns.next
      · rw [if_pos same, Native.begun] at member
        dsimp only at member
        split at member
        · cases member
        · rename_i nested
          have writable : native.live parent = true :=
            (Native.canWrite_iff.mp (Native.canBegin_nested nested accepted).1).1
          have bound := (sound.txns parent writable).2
          rcases List.mem_cons.mp member with rfl | further
          · exact same ▸ bound
          · exact same ▸ Nat.lt_trans (sound.older parent ancestor further) bound
      · rw [if_neg same] at member
        exact sound.older txn ancestor member
  exact started.unchanged state

private theorem ended (sound : NativeSound native) (ending : Ending) (root : IntPtr) :
    NativeSound (ending.native root native) where
  txns txn live := by
    rw [Native.live_ended, Bool.and_eq_true] at live
    rw [Native.ended_next]
    exact sound.txns txn live.1
  older txn ancestor member := by
    rw [Native.ended_txn, (Native.endOf_identity _ _ _ _ _).2.2] at member
    exact sound.older txn ancestor member
  slots slot content := by
    have before : native.dbis.obj slot ≠ none := by
      intro missing
      rw [Native.ended_dbi, missing] at content
      exact content rfl
    simpa [Native.settleDbis] using sound.slots slot before
  cursors cursor open' := by
    have kept : (native.cursors.obj cursor).freed = false := by
      rw [Native.ended_cursor] at open'
      split at open'
      · cases open'
      · exact open'
    simpa [Native.freeCursors] using sound.cursors cursor kept
  positive := by
    rw [Native.ended_next]
    simpa [Native.freeCursors] using sound.positive

/-- A change of one transaction that keeps its fate and its chain. -/
theorem touchTxn (sound : NativeSound native) {txn : IntPtr} {change : NativeTxn → NativeTxn}
    (state : ({ native with txns := native.txns.modify txn change } : Native).Unchanged after)
    (fate : ∀ old, (change old).fate = old.fate) (chain : ∀ old, (change old).chain = old.chain) :
    NativeSound after := by
  have touched : NativeSound { native with txns := native.txns.modify txn change } := by
    refine ⟨fun other live => sound.txns other ?_, fun other ancestor member => ?_, sound.slots,
      sound.cursors, sound.positive⟩
    · rw [Native.live, Heap.modify_obj] at live
      split at live
      · rw [fate] at live
        exact live
      · exact live
    · rw [Heap.modify_obj] at member
      split at member
      · rw [chain] at member
        exact sound.older other ancestor member
      · exact sound.older other ancestor member
  exact touched.unchanged state

private theorem elsewhere (sound : NativeSound native) {dbi : Nat}
    (same : native.Elsewhere dbi after)
    (slot : after.dbis.obj dbi ≠ none → coreDbs ≤ dbi ∧ dbi < after.dbis.next) :
    NativeSound after := by
  have next := same.next
  have others := same.others
  generalize dbis : after.dbis = changed at slot next others
  rw [same.state, dbis]
  refine ⟨sound.txns, sound.older, fun other content => ?_, sound.cursors, sound.positive⟩
  by_cases this : other = dbi
  · subst this
    exact slot content
  · rw [others other this] at content
    exact ⟨(sound.slots other content).1, Nat.lt_of_lt_of_le (sound.slots other content).2 next⟩

/-- The slot of an open lies behind the core tables. -/
theorem slotFor (sound : NativeSound native) {txn : IntPtr} {name : List UInt8} {dbi : Nat}
    {slot : NativeDbi} (given : SlotFor native txn name dbi slot) : coreDbs ≤ dbi := by
  cases given with
  | existing content => exact (sound.slots dbi (by simp [content])).1
  | fresh _ _ bound => exact bound

private theorem cursorAlloc (sound : NativeSound native) {cursor : NativeCursor}
    (state : ({ native with cursors := native.cursors.alloc cursor } : Native).Unchanged after) :
    NativeSound after := by
  have created : NativeSound { native with cursors := native.cursors.alloc cursor } := by
    refine ⟨sound.txns, sound.older, sound.slots, fun other open' => ?_, sound.positive.1,
      Nat.succ_pos _⟩
    rw [Heap.alloc_obj] at open'
    by_cases same : other = native.cursors.next
    · exact ⟨same ▸ sound.positive.2, same ▸ Nat.lt_succ_self _⟩
    · rw [if_neg same] at open'
      exact ⟨(sound.cursors other open').1, Nat.lt_succ_of_lt (sound.cursors other open').2⟩
  exact created.unchanged state

private theorem cursorModify (sound : NativeSound native) {cursor : IntPtr}
    {change : NativeCursor → NativeCursor}
    (state : ({ native with cursors := native.cursors.modify cursor change }
      : Native).Unchanged after)
    (freed : ∀ old, (change old).freed = false → old.freed = false) : NativeSound after := by
  have changed : NativeSound { native with cursors := native.cursors.modify cursor change } := by
    refine ⟨sound.txns, sound.older, sound.slots, fun other open' => sound.cursors other ?_,
      sound.positive⟩
    rw [Heap.modify_obj] at open'
    split at open'
    · exact freed _ open'
    · exact open'
  exact changed.unchanged state

/-- It survives the end of a transaction. -/
theorem closing {world : World runtime} (sound : NativeSound world.native) (t : TxnRef)
    (ending : Ending) : NativeSound (closing t ending world).native := by
  rw [closing_native]
  exact (sound.unchanged (Native.unchanged_record _ _ _)).ended ending _

/-- The step lemma: whatever a call does. -/
theorem effect {world after : World runtime} (sound : NativeSound world.native)
    (idle : world.environment.activeDbTxn = none) {op : Op} (effect : Effect world op after) :
    NativeSound after.native := by
  cases effect with
  | recorded unchanged => exact sound.unchanged unchanged
  | begunDatabase _ _ _ begins => exact sound.begun begins.accepted begins.state
  | begun _ _ _ begins => exact sound.begun begins.accepted begins.state
  | begunTaken _ _ begins => exact (sound.begun begins.accepted begins.state).ended .abort _
  | begunLeaked _ _ begins => exact sound.begun begins.accepted begins.state
  | closed => exact sound.closing _ _
  | promoted _ _ _ _ promoted =>
      obtain ⟨_, _, rfl⟩ := promoted
      split <;> exact sound.closing _ _
  | reader _ _ state => exact sound.touchTxn state (fun _ => rfl) fun _ => rfl
  | opened _ _ _ _ slot =>
      obtain ⟨_, _, given⟩ := slot.slot
      exact sound.elsewhere slot.elsewhere fun _ => ⟨sound.slotFor given, slot.bound⟩
  | openFailed _ _ slot =>
      exact sound.elsewhere slot.elsewhere fun content => (content slot.closed).elim
  | databaseGone _ _ elsewhere shut =>
      rw [databaseCallback_native]
      exact sound.elsewhere elsewhere fun content => (content shut).elim
  | cursorOpened _ _ state => exact sound.cursorAlloc state
  | cursorGone _ state =>
      rw [cursorCallback_native]
      exact sound.cursorModify state fun _ open' => by cases open'
  | cursorRenewed _ _ _ state => exact sound.cursorModify state fun _ same => same
  | @environmentDisposed order =>
      by_cases shut : world.environment.env = 0
      · rw [dispose_of_shut order shut]
        exact sound
      · rw [dispose_of_open order shut idle]
        have looped : NativeSound (world.enumerated order).native :=
          enumerated_invariant (fun current => NativeSound current.native) sound
            fun held _ _ => held.closing _ _
        exact ⟨looped.txns, looped.older, looped.slots, looped.cursors, looped.positive⟩

end NativeSound

/-- A native transaction that outlives the end of `t` is held by another object. -/
theorem holder_of_closing {world : World runtime} {t : TxnRef} {ending : Ending} {txn : IntPtr}
    (held : ∀ txn, world.native.live txn = true → ∃ u, world.handle u = txn)
    (alive : (closing t ending world).native.live txn = true) :
    ∃ u, u ≠ t ∧ world.handle u = txn := by
  rw [closing_native, Native.live_ended, Native.live_record, Bool.and_eq_true] at alive
  obtain ⟨u, holds⟩ := held txn alive.1
  refine ⟨u, ?_, holds⟩
  rintro rfl
  have outside := alive.2
  rw [← holds] at outside
  simp [Native.within] at outside

end KdSoftLmdb
