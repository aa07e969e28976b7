import KdSoftLmdb.Effects.Tree
import KdSoftLmdb.Invariants.Reachable

/-!
# The transaction tree, while transactions end leaves first

The wrapper only stores the upward link of a nested transaction. As long as no
transaction ends before its live children, the links of the live objects agree
with LMDB's chains: every object that is not disposed holds a live native
transaction of its own, and its native ancestors belong to its live parents.
-/

namespace KdSoftLmdb

variable {runtime : Runtime}

/-- The `Parent` of a transaction. -/
def World.parent (world : World runtime) (t : TxnRef) : Option TxnRef := (world.txns.obj t).parent

/-- The native ancestors of the transaction that an object holds. -/
def World.chain (world : World runtime) (t : TxnRef) : List IntPtr :=
  (world.native.txns.obj (world.handle t)).chain

/-- The transaction is disposed, or none of its children is live. -/
def World.Leaf (world : World runtime) (t : TxnRef) : Prop :=
  world.handle t = 0 ∨ ∀ u < world.txns.next, world.parent u = some t → world.handle u = 0

instance (world : World runtime) (t : TxnRef) : Decidable (world.Leaf t) :=
  inferInstanceAs (Decidable (_ ∨ _))

/-- Only transactions without a live child end, the ones that the environment's
`Dispose` ends included. -/
def EndsLeaves (world : World runtime) : Op → Prop
  | .commit t _ | .disposeTransaction t => world.Leaf t
  | .disposeEnvironment _ => ∀ t ∈ world.environment.transactions.values, world.Leaf t
  | _ => True

instance : ∀ (world : World runtime) (op : Op), Decidable (EndsLeaves world op) := by
  intro world op
  apply op.casesOn (motive := fun op => Decidable (EndsLeaves world op)) <;> intros <;>
    unfold EndsLeaves <;> infer_instance

/-- The transaction that such a call ends has no live child. -/
theorem EndsLeaves.leaf {world : World runtime} {op : Op} {t : TxnRef} {ending : Ending}
    (leaves : EndsLeaves world op) (ends : op.ending? = some (t, ending)) : world.Leaf t := by
  cases op with
  | commit | disposeTransaction =>
      cases ends
      exact leaves
  | _ => cases ends

/-- The live transaction objects and LMDB's transactions. -/
structure TreeSound (world : World runtime) : Prop where
  alive : ∀ t, world.handle t ≠ 0 → world.native.live (world.handle t) = true
  injective : ∀ t u, world.handle t ≠ 0 → world.handle t = world.handle u → t = u
  linked : ∀ u, world.handle u ≠ 0 → world.chain u = [] ∨
    ∃ p, world.parent u = some p ∧ world.handle p ≠ 0 ∧
      world.chain u = world.handle p :: world.chain p
  readers : ∀ t, world.handle t ≠ 0 →
    ((world.native.txns.obj (world.handle t)).readOnly = true ↔
      (world.txns.obj t).kind = .readOnlyTransaction)

namespace TreeSound

variable {world after : World runtime}

/-- A live transaction that LMDB ends together with `t` makes one of the
children of `t` live. -/
theorem live_child (sound : TreeSound world) (transactions : TransactionsSound world)
    {t u : TxnRef} (live : world.handle t ≠ 0) (liveOther : world.handle u ≠ 0)
    (member : world.handle t ∈ world.chain u) :
    ∃ v, world.parent v = some t ∧ world.handle v ≠ 0 := by
  induction u using Nat.strongRecOn with
  | ind u ih =>
      rcases sound.linked u liveOther with root | ⟨p, isParent, parentLive, chain⟩
      · rw [root] at member
        cases member
      · rw [chain] at member
        rcases List.mem_cons.mp member with same | further
        · have direct := sound.injective t p live same
          exact ⟨u, direct ▸ isParent, liveOther⟩
        · exact ih p (transactions.older u p isParent) parentLive further

/-- The end of a leaf reaches no other live object. -/
theorem outside (sound : TreeSound world) (transactions : TransactionsSound world)
    {t u : TxnRef} (live : world.handle t ≠ 0) (leaf : world.Leaf t)
    (liveOther : world.handle u ≠ 0) (different : u ≠ t) :
    world.native.within (world.handle u) (world.handle t) = false := by
  have unlisted : world.handle t ∉ world.chain u := by
    intro member
    obtain ⟨v, isParent, liveChild⟩ := sound.live_child transactions live liveOther member
    exact liveChild (leaf.resolve_left live v (transactions.bound liveChild) isParent)
  have distinct : world.handle u ≠ world.handle t := fun same =>
    different (sound.injective u t liveOther same)
  rw [World.chain] at unlisted
  simp [Native.within, distinct, unlisted]

/-- A step that creates no transaction, whose live objects hold live native
transactions and keep their parents. -/
theorem transfer (sound : TreeSound world) (same : SameTransactions world after)
    (alive : ∀ t, after.handle t ≠ 0 → after.native.live (world.handle t) = true)
    (identity : ∀ t, after.handle t ≠ 0 →
      (after.native.txns.obj (world.handle t)).chain = world.chain t ∧
      (after.native.txns.obj (world.handle t)).readOnly =
        (world.native.txns.obj (world.handle t)).readOnly)
    (parents : ∀ u p, after.handle u ≠ 0 → world.parent u = some p → world.handle p ≠ 0 →
      after.handle p ≠ 0) : TreeSound after := by
  have before {t : TxnRef} (live : after.handle t ≠ 0) : after.handle t = world.handle t :=
    (same.object t).txn.resolve_right live
  have earlier {t : TxnRef} (live : after.handle t ≠ 0) : world.handle t ≠ 0 := before live ▸ live
  have chain {t : TxnRef} (live : after.handle t ≠ 0) : after.chain t = world.chain t := by
    rw [World.chain, before live]
    exact (identity t live).1
  refine ⟨fun t live => ?_, fun t u live equal => ?_, fun u live => ?_, fun t live => ?_⟩
  · rw [before live]
    exact alive t live
  · have liveOther : after.handle u ≠ 0 := equal ▸ live
    rw [before live, before liveOther] at equal
    exact sound.injective t u (earlier live) equal
  · rw [chain live]
    rcases sound.linked u (earlier live) with root | ⟨p, isParent, parentLive, linked⟩
    · exact .inl root
    · have stays := parents u p live isParent parentLive
      refine .inr ⟨p, (same.object u).parent.trans isParent, stays, ?_⟩
      rw [linked, before stays, chain stays]
  · rw [before live, (identity t live).2, (same.object t).kind]
    exact sound.readers t (earlier live)

/-- Only transaction objects and LMDB's transactions matter. -/
theorem same (sound : TreeSound world) (txns : after.txns = world.txns)
    (native : after.native.txns = world.native.txns) : TreeSound after := by
  refine sound.transfer (.of_eq txns) (fun t live => ?_) (fun t _ => ?_) fun _ p _ _ live => ?_
  · rw [World.handle, txns] at live
    rw [Native.live, native]
    exact sound.alive t live
  · rw [native]
    exact ⟨rfl, rfl⟩
  · rw [World.handle, txns]
    exact live

/-- What leaves the tree keeps the invariant. -/
theorem kept (sound : TreeSound world) (keeps : KeepsTree world after) : TreeSound after := by
  have earlier {t : TxnRef} (live : after.handle t ≠ 0) : world.handle t ≠ 0 :=
    keeps.handle t ▸ live
  refine sound.transfer keeps.same (fun t live => ?_) (fun t live => ?_) fun u p _ _ live => ?_
  · exact (keeps.native _ (sound.alive t (earlier live))).1
  · exact (keeps.native _ (sound.alive t (earlier live))).2
  · rw [keeps.handle]
    exact live

/-- A transaction without live children may end. -/
theorem ended (sound : TreeSound world) (transactions : TransactionsSound world) {t : TxnRef}
    {ending : Ending} (live : world.handle t ≠ 0) (leaf : world.Leaf t)
    (leaves : EndsAs t ending world after) : TreeSound after := by
  have survivor {u : TxnRef} (alive : after.handle u ≠ 0) : u ≠ t ∧ world.handle u ≠ 0 :=
    survives_of_handle leaves.handle alive
  refine sound.transfer leaves.same (fun u alive => ?_) (fun u alive => ?_)
    fun u p alive isParent parentLive => ?_
  · obtain ⟨different, liveOther⟩ := survivor alive
    rw [leaves.native, closing_native, Native.live_ended, Native.live_record,
      sound.alive u liveOther]
    exact congrArg (fun inside => !inside) (sound.outside transactions live leaf liveOther different)
  · rw [leaves.native, closing_native, Native.ended_txn]
    obtain ⟨readOnly, _, chain⟩ := Native.endOf_identity (world.handle t)
      (world.native.record .mdbTxnId [.txn (world.handle t)]) ending.fate (world.handle u)
      (world.native.txns.obj (world.handle u))
    exact ⟨chain, readOnly⟩
  · rw [leaves.handle, if_neg]
    · exact parentLive
    · rintro rfl
      obtain ⟨_, liveChild⟩ := survivor alive
      exact liveChild (leaf.resolve_left live u (transactions.bound liveChild) isParent)

/-- A begin adds a child to the tree. -/
theorem begun (sound : TreeSound world) (natives : NativeSound world.native)
    (transactions : TransactionsSound world) {kind : TransactionKind} {modes : TransactionModes}
    {parent : Option TxnRef}
    {registry : Dictionary (id : IntPtr → IntPtr) TxnRef} {native : Native} {op : Op}
    (creates : op.Creates kind modes parent) (valid : validParent world parent = true)
    (begins : Begins world modes parent native) :
    TreeSound (world.begun kind parent registry native) := by
  have positive := Nat.ne_of_gt natives.positive.1
  have older {t : TxnRef} (live : world.handle t ≠ 0) :
      world.handle t ≠ world.native.txns.next :=
    Nat.ne_of_lt (natives.txns _ (sound.alive t live)).2
  have oldNative {t : TxnRef} (live : world.handle t ≠ 0) :
      native.txns.obj (world.handle t) = world.native.txns.obj (world.handle t) :=
    begins.txn_of_ne (older live)
  have oldChain {t : TxnRef} (different : t ≠ world.txns.next) (live : world.handle t ≠ 0) :
      (world.begun kind parent registry native).chain t = world.chain t := by
    rw [World.chain, begun_handle_of_ne different]
    exact congrArg NativeTxn.chain (oldNative live)
  refine ⟨fun t live => ?_, fun t u live equal => ?_, fun u live => ?_, fun t live => ?_⟩
  · by_cases same : t = world.txns.next
    · rw [same, begun_handle_new, Native.live, begun_native, begins.txn_new]
      rfl
    · rw [begun_handle_of_ne same] at live ⊢
      rw [Native.live, begun_native, oldNative live]
      exact sound.alive t live
  · by_cases same : t = world.txns.next
    · by_cases sameOther : u = world.txns.next
      · exact same.trans sameOther.symm
      · rw [same, begun_handle_new, begun_handle_of_ne sameOther] at equal
        exact absurd equal.symm (older (equal ▸ positive))
    · rw [begun_handle_of_ne same] at live equal
      by_cases sameOther : u = world.txns.next
      · rw [sameOther, begun_handle_new] at equal
        exact absurd equal (older live)
      · rw [begun_handle_of_ne sameOther] at equal
        exact sound.injective t u live equal
  · by_cases same : u = world.txns.next
    · have chain : (world.begun kind parent registry native).chain u =
          (world.native.begun (LmdbEnvironment.parentHandle world parent) modes).chain := by
        rw [World.chain, same, begun_handle_new, begun_native, begins.txn_new]
      rw [chain, Native.begun]
      dsimp only
      split
      · exact .inl rfl
      · rename_i nested
        cases parent with
        | none => exact (nested rfl).elim
        | some p =>
            have known : p ≠ world.txns.next := Nat.ne_of_lt (of_decide_eq_true valid)
            refine .inr ⟨p, by rw [same, World.parent, begun_txn_new], ?_, ?_⟩
            · rw [begun_handle_of_ne known]
              exact nested
            · rw [begun_handle_of_ne known, oldChain known nested]
              rfl
    · rw [begun_handle_of_ne same] at live
      rw [oldChain same live]
      rcases sound.linked u live with root | ⟨p, isParent, parentLive, linked⟩
      · exact .inl root
      · have known : p ≠ world.txns.next := by
          rintro rfl
          exact Nat.lt_irrefl _ (transactions.bound parentLive)
        refine .inr ⟨p, by rw [World.parent, begun_txn_of_ne same]; exact isParent, ?_, ?_⟩
        · rw [begun_handle_of_ne known]
          exact parentLive
        · rw [begun_handle_of_ne known, oldChain known parentLive]
          exact linked
  · by_cases same : t = world.txns.next
    · rw [same, begun_handle_new, begun_txn_new, begun_native, begins.txn_new, Native.begun]
      dsimp only
      cases creates with
      | database writable => simp [writable]
      | plain => cases readOnly : modes.isReadOnly <;> simp [kindOf, readOnly]
    · rw [begun_handle_of_ne same] at live ⊢
      rw [begun_txn_of_ne same, begun_native, oldNative live]
      exact sound.readers t live

end TreeSound

end KdSoftLmdb
