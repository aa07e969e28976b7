import KdSoftLmdb.Invariants.Nesting

/-!
# Ancestors and what became of them

`Parent` links lead from a transaction to all its ancestors, the disposed ones
included. The native transaction that an object was constructed with tells what
became of it after the object was disposed: committed or aborted.
-/

namespace KdSoftLmdb

variable {runtime : Runtime}

namespace World

/-- `u` is nested in `t`, at any depth. -/
def Descends (world : World runtime) : TxnRef → TxnRef → Prop :=
  Relation.TransGen fun u p => world.parent u = some p

/-- The transactions that at most `rounds` parent links lead to. -/
def ancestorsWithin (world : World runtime) : Nat → TxnRef → List TxnRef
  | 0, _ => []
  | rounds + 1, t =>
      match world.parent t with
      | none => []
      | some p => p :: world.ancestorsWithin rounds p

/-- The ancestors of a transaction, the parent first. Every link leads to a
smaller reference, so `t` links reach all of them. -/
def ancestors (world : World runtime) (t : TxnRef) : List TxnRef := world.ancestorsWithin t t

/-- The native transaction that an object was constructed with. -/
def nativeTxn (world : World runtime) (t : TxnRef) : IntPtr := (world.txns.obj t).begun

/-- What became of the transaction. -/
def fate (world : World runtime) (t : TxnRef) : Fate :=
  (world.native.txns.obj (world.nativeTxn t)).fate

/-- Nothing that is nested in the transaction is live. -/
def NoLiveDescendant (world : World runtime) (t : TxnRef) : Prop :=
  ∀ u < world.txns.next, world.handle u ≠ 0 → t ∉ world.ancestors u

instance (world : World runtime) (t : TxnRef) : Decidable (world.NoLiveDescendant t) :=
  inferInstanceAs (Decidable (∀ u < world.txns.next, world.handle u ≠ 0 → t ∉ world.ancestors u))

end World

namespace TransactionsSound

variable {world after : World runtime} {t u p : TxnRef}

private theorem ancestorsWithin_of_le (sound : TransactionsSound world) {rounds : Nat}
    (enough : t ≤ rounds) : world.ancestorsWithin rounds t = world.ancestors t := by
  rw [World.ancestors]
  induction t using Nat.strongRecOn generalizing rounds with
  | ind t ih =>
      cases t with
      | zero =>
          -- the first transaction has no parent
          cases rounds with
          | zero => rfl
          | succ rounds =>
              cases isParent : world.parent 0 with
              | none => simp only [World.ancestorsWithin, isParent]
              | some p => exact absurd (sound.older 0 p isParent) (Nat.not_lt_zero p)
      | succ t =>
          obtain ⟨rounds, rfl⟩ := Nat.exists_eq_succ_of_ne_zero
            (Nat.ne_of_gt (Nat.lt_of_lt_of_le (Nat.succ_pos t) enough))
          rw [World.ancestorsWithin, World.ancestorsWithin]
          cases isParent : world.parent (t + 1) with
          | none => rfl
          | some p =>
              have older := sound.older _ p isParent
              have close : p ≤ t := Nat.le_of_lt_succ older
              have far : p ≤ rounds := Nat.le_trans close (Nat.le_of_succ_le_succ enough)
              exact congrArg (p :: ·) ((ih p older far).trans (ih p older close).symm)

/-- A transaction without a parent has no ancestors. -/
theorem ancestors_of_root (root : world.parent t = none) : world.ancestors t = [] := by
  rw [World.ancestors]
  cases t with
  | zero => rfl
  | succ t => rw [World.ancestorsWithin, root]

/-- The ancestors are the parent and its ancestors. -/
theorem ancestors_of_parent (sound : TransactionsSound world) (isParent : world.parent t = some p) :
    world.ancestors t = p :: world.ancestors p := by
  have older := sound.older t p isParent
  rw [World.ancestors]
  cases t with
  | zero => exact absurd older (Nat.not_lt_zero p)
  | succ t =>
      rw [World.ancestorsWithin, isParent]
      exact congrArg (p :: ·) (sound.ancestorsWithin_of_le (Nat.le_of_lt_succ older))

/-- Descendants are created after their ancestors. -/
theorem descends_lt (sound : TransactionsSound world) (descends : world.Descends u t) : t < u := by
  induction descends with
  | single isParent => exact sound.older _ _ isParent
  | tail _ isParent ih => exact Nat.lt_trans (sound.older _ _ isParent) ih

/-- The ancestors are the transactions that one descends from. -/
theorem mem_ancestors_iff (sound : TransactionsSound world) :
    t ∈ world.ancestors u ↔ world.Descends u t := by
  induction u using Nat.strongRecOn with
  | ind u ih =>
      cases isParent : world.parent u with
      | none =>
          rw [ancestors_of_root isParent]
          refine ⟨nofun, fun descends => ?_⟩
          obtain ⟨_, first, _⟩ := Relation.TransGen.head'_iff.mp descends
          cases isParent.symm.trans first
      | some p =>
          rw [sound.ancestors_of_parent isParent, List.mem_cons, ih p (sound.older u p isParent)]
          constructor
          · rintro (rfl | further)
            · exact .single isParent
            · exact .head isParent further
          · intro descends
            obtain ⟨q, first, further⟩ := Relation.TransGen.head'_iff.mp descends
            cases isParent.symm.trans first
            rcases Relation.reflTransGen_iff_eq_or_transGen.mp further with same | further
            · exact .inl same
            · exact .inr further

/-- Ancestors are created before their descendants. -/
theorem ancestors_lt (sound : TransactionsSound world) (member : t ∈ world.ancestors u) : t < u :=
  sound.descends_lt (sound.mem_ancestors_iff.mp member)

/-- The ancestors depend on the parents of older transactions only. -/
theorem ancestors_congr (sound : TransactionsSound world) (later : TransactionsSound after)
    (same : ∀ u ≤ t, after.parent u = world.parent u) : after.ancestors t = world.ancestors t := by
  induction t using Nat.strongRecOn with
  | ind t ih =>
      have link := same t (Nat.le_refl t)
      cases isParent : world.parent t with
      | none => rw [ancestors_of_root isParent, ancestors_of_root (link.trans isParent)]
      | some p =>
          have older := sound.older t p isParent
          rw [sound.ancestors_of_parent isParent, later.ancestors_of_parent (link.trans isParent),
            ih p older fun u below => same u (Nat.le_trans below (Nat.le_of_lt older))]

/-- A transaction without live descendants has no live child. -/
theorem leaf (sound : TransactionsSound world) (none : world.NoLiveDescendant t) :
    world.Leaf t := by
  refine .inr fun u known isParent => ?_
  by_contra live
  refine none u known live ?_
  rw [sound.ancestors_of_parent isParent]
  exact List.mem_cons_self

end TransactionsSound

/-- No transaction object gets other ancestors. -/
theorem SameTransactions.ancestors {world after : World runtime}
    (same : SameTransactions world after) (sound : TransactionsSound world)
    (later : TransactionsSound after) (t : TxnRef) : after.ancestors t = world.ancestors t :=
  sound.ancestors_congr later fun u _ => (same.object u).parent

/-- A live object holds the native transaction it was constructed with, no two
were constructed with the same one, and that of a disposed object has ended. -/
structure FatesSound (world : World runtime) : Prop where
  held : ∀ t, world.handle t ≠ 0 → world.nativeTxn t = world.handle t
  gone : ∀ t < world.txns.next, world.handle t = 0 →
    world.native.live (world.nativeTxn t) = false
  distinct : ∀ t < world.txns.next, ∀ u < world.txns.next,
    world.nativeTxn t = world.nativeTxn u → t = u
  bound : ∀ t < world.txns.next, world.nativeTxn t < world.native.txns.next

namespace FatesSound

variable {world after : World runtime} {t u : TxnRef} {ending : Ending} {op : Op}

/-- Only the transactions matter. -/
theorem same (fates : FatesSound world) (txns : after.txns = world.txns)
    (native : after.native.txns = world.native.txns) : FatesSound after := by
  refine ⟨fun t live => ?_, fun t known dead => ?_, fun t known u knownOther equal => ?_,
    fun t known => ?_⟩
  all_goals simp only [World.nativeTxn, World.handle, Native.live, txns, native] at *
  · exact fates.held t live
  · exact fates.gone t known dead
  · exact fates.distinct t known u knownOther equal
  · exact fates.bound t known

/-- What leaves the tree leaves the fates. -/
theorem kept (fates : FatesSound world) (keeps : KeepsTree world after) : FatesSound after := by
  have begun (t : TxnRef) : after.nativeTxn t = world.nativeTxn t := (keeps.same.object t).begun
  refine ⟨fun t live => ?_, fun t known dead => ?_, fun t known u knownOther equal => ?_,
    fun t known => ?_⟩
  all_goals simp only [begun, keeps.handle, keeps.next] at *
  · exact fates.held t live
  · have ended := fates.gone t known dead
    rw [Native.live, keeps.fate _ (fates.bound t known)]
    exact ended
  · exact fates.distinct t known u knownOther equal
  · exact Nat.lt_of_lt_of_le (fates.bound t known) keeps.known

/-- A begin gives the new transaction its fate. -/
theorem begun (fates : FatesSound world) {kind : TransactionKind} {modes : TransactionModes}
    {parent : Option TxnRef} {registry : Dictionary (id : IntPtr → IntPtr) TxnRef}
    {native : Native} (natives : NativeSound world.native)
    (begins : Begins world modes parent native) :
    FatesSound (world.begun kind parent registry native) := by
  have older {t : TxnRef} (known : t < (world.begun kind parent registry native).txns.next)
      (different : t ≠ world.txns.next) : t < world.txns.next :=
    Nat.lt_of_le_of_ne (Nat.le_of_lt_succ known) different
  refine ⟨fun t live => ?_, fun t known dead => ?_, fun t known u knownOther equal => ?_,
    fun t known => ?_⟩
  · by_cases same : t = world.txns.next
    · rw [same, World.nativeTxn, World.handle, begun_txn_new]
    · rw [World.nativeTxn, World.handle, begun_txn_of_ne same]
      rw [World.handle, begun_txn_of_ne same] at live
      exact fates.held t live
  · by_cases same : t = world.txns.next
    · rw [same, World.handle, begun_txn_new] at dead
      exact absurd dead (Nat.ne_of_gt natives.positive.1)
    · rw [World.handle, begun_txn_of_ne same] at dead
      have before : (world.txns.obj t).begun < _ := fates.bound t (older known same)
      rw [World.nativeTxn, begun_txn_of_ne same, begun_native, Native.live,
        begins.txn_of_ne (Nat.ne_of_lt before)]
      exact fates.gone t (older known same) dead
  · rw [World.nativeTxn, World.nativeTxn] at equal
    by_cases same : t = world.txns.next
    · by_cases sameOther : u = world.txns.next
      · exact same.trans sameOther.symm
      · rw [same, begun_txn_new, begun_txn_of_ne sameOther] at equal
        exact absurd equal (Nat.ne_of_gt (fates.bound u (older knownOther sameOther)))
    · by_cases sameOther : u = world.txns.next
      · rw [sameOther, begun_txn_new, begun_txn_of_ne same] at equal
        exact absurd equal (Nat.ne_of_lt (fates.bound t (older known same)))
      · rw [begun_txn_of_ne same, begun_txn_of_ne sameOther] at equal
        exact fates.distinct t (older known same) u (older knownOther sameOther) equal
  · rw [begun_native, begins.state.txns, Heap.alloc_next, World.nativeTxn]
    by_cases same : t = world.txns.next
    · rw [same, begun_txn_new]
      exact Nat.lt_succ_self _
    · rw [begun_txn_of_ne same]
      exact Nat.lt_succ_of_lt (fates.bound t (older known same))

/-- The end of a transaction settles those that descend from it. -/
theorem ended (fates : FatesSound world) (live : world.handle t ≠ 0)
    (leaves : EndsAs t ending world after) : FatesSound after := by
  have begun (u : TxnRef) : after.nativeTxn u = world.nativeTxn u := (leaves.same.object u).begun
  have native (txn : IntPtr) : after.native.live txn =
      (world.native.live txn && !world.native.within txn (world.handle t)) := by
    rw [leaves.native, closing_native, Native.live_ended]
    rfl
  refine ⟨fun u alive => ?_, fun u known dead => ?_, fun u known v knownOther equal => ?_,
    fun u known => ?_⟩
  · rw [leaves.handle] at alive ⊢
    rw [begun]
    split at alive
    · exact (alive rfl).elim
    · rw [if_neg ‹_›]
      exact fates.held u alive
  · rw [leaves.handle] at dead
    rw [leaves.next] at known
    rw [begun, native]
    split at dead
    · rename_i same
      rw [same, fates.held t live]
      simp [Native.within]
    · rw [fates.gone u known dead]
      rfl
  · rw [begun, begun] at equal
    rw [leaves.next] at known knownOther
    exact fates.distinct u known v knownOther equal
  · rw [leaves.next] at known
    rw [begun, leaves.native, closing_native, Native.ended_next]
    exact fates.bound u known

/-- The step lemma: whatever a call does. -/
theorem effect (fates : FatesSound world) (sound : WorldSound world)
    (effect : Effect world op after) : FatesSound after := by
  cases treeEffect_of_effect sound.natives effect with
  | begun _ _ begins equal => exact equal ▸ fates.begun sound.natives begins
  | ended _ live leaves => exact fates.ended live leaves
  | @disposed order _ _ equal =>
      rw [equal]
      by_cases shut : world.environment.env = 0
      · rw [dispose_of_shut order shut]
        exact fates.same rfl rfl
      · rw [dispose_of_open order shut sound.transactions.idle]
        have looped : FatesSound (world.enumerated order) :=
          enumerated_invariant FatesSound (fates.same rfl rfl)
            fun held _ live => held.ended live (.of_closing _ _ _)
        exact looped.same rfl rfl
  | kept keeps => exact fates.kept keeps

/-- A new environment has no transactions. -/
theorem opened (flags : LmdbEnvironmentOptions) (lastTxnId : Nat) :
    FatesSound (World.opened runtime flags lastTxnId) :=
  ⟨fun _ live => (live rfl).elim, nofun, nofun, nofun⟩

/-- A live transaction has not ended. -/
theorem fate_of_live (fates : FatesSound world) (tree : TreeSound world)
    (live : world.handle t ≠ 0) : world.fate t = .live := by
  have alive := tree.alive t live
  rw [World.fate, fates.held t live]
  exact beq_iff_eq.mp alive

/-- What leaves the tree settles no transaction. -/
theorem fate_kept (fates : FatesSound world) (keeps : KeepsTree world after)
    (known : t < world.txns.next) : after.fate t = world.fate t := by
  have begun : after.nativeTxn t = world.nativeTxn t := (keeps.same.object t).begun
  rw [World.fate, begun, keeps.fate _ (fates.bound t known)]
  rfl

/-- A begin settles no earlier transaction. -/
theorem fate_begun (fates : FatesSound world) {kind : TransactionKind} {modes : TransactionModes}
    {parent : Option TxnRef} {registry : Dictionary (id : IntPtr → IntPtr) TxnRef}
    {native : Native} (begins : Begins world modes parent native) (known : t < world.txns.next) :
    (world.begun kind parent registry native).fate t = world.fate t := by
  have begun : (world.begun kind parent registry native).nativeTxn t = world.nativeTxn t :=
    congrArg Transaction.begun (if_neg (Nat.ne_of_lt known))
  rw [World.fate, begun, begun_native, begins.txn_of_ne (Nat.ne_of_lt (fates.bound t known))]
  rfl

/-- The end of a leaf decides its own fate and no other. -/
theorem fate_ended (fates : FatesSound world) (tree : TreeSound world)
    (transactions : TransactionsSound world) (live : world.handle t ≠ 0) (leaf : world.Leaf t)
    (leaves : EndsAs t ending world after) (known : u < world.txns.next) :
    after.fate u = if u = t then ending.fate else world.fate u := by
  have begun : after.nativeTxn u = world.nativeTxn u := (leaves.same.object u).begun
  have native : (after.native.txns.obj (world.nativeTxn u)).fate =
      (world.native.endOf (world.handle t) ending.fate (world.nativeTxn u)
        (world.native.txns.obj (world.nativeTxn u))).fate := by
    rw [leaves.native, closing_native, Native.ended_txn]
    rfl
  rw [World.fate, begun, native, Native.endOf]
  by_cases same : u = t
  · have alive : (world.native.txns.obj (world.handle t)).fate = .live :=
      beq_iff_eq.mp (tree.alive t live)
    rw [if_pos same, same, fates.held t live, if_pos rfl]
    simp [alive]
  · have different : world.nativeTxn u ≠ world.handle t := by
      intro equal
      rw [← fates.held t live] at equal
      exact same (fates.distinct u known t (transactions.bound live) equal)
    rw [if_neg same, if_neg different, if_neg]
    · rfl
    · rintro ⟨alive, inside⟩
      by_cases dead : world.handle u = 0
      · have ended := fates.gone u known dead
        rw [Native.live, alive] at ended
        cases ended
      · rw [fates.held u dead, tree.outside transactions live leaf dead same] at inside
        cases inside

/-- A transaction has not ended exactly when its object holds a live native one. -/
theorem fate_eq_live_iff (fates : FatesSound world) (known : t < world.txns.next) :
    world.fate t = .live ↔ world.handle t ≠ 0 ∧ world.native.live (world.handle t) = true := by
  constructor
  · intro alive
    have live : world.native.live (world.nativeTxn t) = true := beq_iff_eq.mpr alive
    have held : world.handle t ≠ 0 := by
      intro gone
      cases live.symm.trans (fates.gone t known gone)
    exact ⟨held, fates.held t held ▸ live⟩
  · rintro ⟨held, live⟩
    rw [World.fate, fates.held t held]
    exact beq_iff_eq.mp live

/-- The run lemma: in every state that is reached. -/
theorem of_reachable (reachable : Reachable world) : FatesSound world := by
  obtain ⟨flags, lastTxnId, ops, history⟩ := reachable
  have both := history.invariant (fun world => WorldSound world ∧ FatesSound world)
    ⟨.opened flags lastTxnId, .opened flags lastTxnId⟩ fun held _ transition =>
      ⟨held.1.step transition, held.2.effect held.1 (effect_of_step transition)⟩
  exact both.2

end FatesSound

end KdSoftLmdb
