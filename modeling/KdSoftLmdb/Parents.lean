import KdSoftLmdb.Invariants.Ancestry
import KdSoftLmdb.Session

/-!
# Beginning a transaction under a parent

A begin reads `parent?.Handle` without a check. The cleared handle of a parent
that was committed or aborted is what LMDB takes for "no parent", so the begin
creates a top-level transaction whose `Parent` says otherwise.
-/

namespace KdSoftLmdb

variable {runtime : Runtime}

open LmdbEnvironment (BeginAnswer parentHandle)

/-- The modes, the parent and LMDB's answer of a begin. -/
def Op.beginning? : Op → Option (TransactionModes × Option TxnRef × DbRetCode)
  | .beginTransaction modes parent answer => some (modes, parent, answer.ret)
  | .beginReadOnlyTransaction modes parent answer => some (modes ||| .readOnly, parent, answer.ret)
  | .beginDatabaseTransaction modes parent answer => some (modes, parent, answer)
  | _ => none

/-- A begin that throws before LMDB is asked. -/
def Op.RefusedEarly (world : World runtime) : Op → Prop
  | .beginDatabaseTransaction modes _ _ => modes.isReadOnly = true ∨ world.environment.env = 0
  | _ => world.environment.env = 0

/-- The id of the new transaction is registered already and may not be shared. -/
def Op.IdTaken (world : World runtime) (op : Op) : Prop :=
  ∃ modes parent answer, op.begin? = some (modes, parent, answer) ∧
    (modes.isReadOnly = true → answer.getFlags = .success) ∧
    world.environment.transactions.containsKey (world.nextId modes parent) = true ∧
    world.mayShareId modes = false

/-- The call throws, LMDB has the same live transactions as before, and it was
not asked about a parent that it had freed. -/
structure BeginsNothing (p : TxnRef) (world : World runtime) (result : Except Exception Returned)
    (after : World runtime) : Prop where
  threw : ∃ exception, result = .error exception
  live : ∀ txn, after.native.live txn = world.native.live txn
  unasked : world.native.freed (.txn (world.handle p)) = true →
    after.native.calls = world.native.calls

/-- The call returns a transaction whose native parent is the live native
transaction of its `Parent`. -/
structure BeginsChild (p : TxnRef) (world : World runtime) (result : Except Exception Returned)
    (after : World runtime) : Prop where
  parent : world.fate p = .live
  child : ∃ t, result = .ok (.transaction t) ∧ after.parent t = some p ∧
    after.native.live (after.handle t) = true ∧
    after.chain t = world.handle p :: world.chain p ∧ world.native.live (world.handle p) = true

/-- How a begin under `p` ends: refused by the wrapper, refused by LMDB, or carried
out, in which case the new native transaction gets an object, is aborted because
its id is taken, or is left behind. -/
inductive BeginEnds (world : World runtime) (op : Op) (p : TxnRef) (modes : TransactionModes)
    (ret : DbRetCode) : Except Exception Returned → World runtime → Prop where
  | early {exception} (refused : op.RefusedEarly world) :
      BeginEnds world op p modes ret (.error exception) world
  | failed {exception} (asked : ¬op.RefusedEarly world) (failed : ret ≠ .success) :
      BeginEnds world op p modes ret (.error exception) { world with
        native := world.native.record .mdbTxnBegin
          [.env world.environment.env, .txn (world.handle p)] }
  | begun {kind registry native} (asked : ¬op.RefusedEarly world) (succeeded : ret = .success)
      (begins : Begins world modes (some p) native) (free : ¬op.IdTaken world) :
      BeginEnds world op p modes ret (.ok (.transaction world.txns.next))
        (world.begun kind (some p) registry native)
  | taken {exception native} (asked : ¬op.RefusedEarly world) (succeeded : ret = .success)
      (begins : Begins world modes (some p) native) (taken : op.IdTaken world) :
      BeginEnds world op p modes ret (.error exception)
        { world with native := native.mdbTxnAbort world.native.txns.next }
  | leaked {exception native} (asked : ¬op.RefusedEarly world) (succeeded : ret = .success)
      (begins : Begins world modes (some p) native) (free : ¬op.IdTaken world)
      (readOnly : modes.isReadOnly = true) :
      BeginEnds world op p modes ret (.error exception) { world with native := native }

section Outcome

variable {world after : World runtime} {op : Op} {p : TxnRef} {modes : TransactionModes}
  {ret : DbRetCode} {result : Except Exception Returned}

private theorem beginEnds_of_plain {answer : BeginAnswer} {inner : Except Exception TxnRef}
    (begin : op.begin? = some (modes, some p, answer))
    (early : op.RefusedEarly world ↔ world.environment.env = 0)
    (returned : LmdbEnvironment.beginTransaction modes (some p) answer world =
      some (inner, after)) :
    BeginEnds world op p modes answer.ret (inner.map Returned.transaction) after := by
  have takenIff : op.IdTaken world ↔ (modes.isReadOnly = true → answer.getFlags = .success) ∧
      world.environment.transactions.containsKey (world.nextId modes (some p)) = true ∧
      world.mayShareId modes = false := by
    constructor
    · rintro ⟨_, _, _, same, taken⟩
      cases begin.symm.trans same
      exact taken
    · exact fun taken => ⟨_, _, _, begin, taken⟩
  rcases Method.bind_eq_some_iff.mp returned with ⟨exception, threw, rfl⟩ | ⟨_, _, begun, _⟩
  · rcases beginTransactionInternal_threw threw with ⟨shut, rfl⟩ | ⟨opened, failed, rfl⟩
    · exact .early (early.mpr shut)
    · exact .failed (fun refused => opened (early.mp refused)) failed
  · obtain ⟨native, succeeded, begins, outcome⟩ := beginTransaction_of_begun begun returned
    have asked : ¬op.RefusedEarly world := fun refused => begins.opened (early.mp refused)
    rcases outcome with ⟨readOnly, unflagged, ⟨_, rfl⟩, rfl⟩ |
      ⟨flagged, taken, unshared, ⟨_, rfl⟩, rfl⟩ | ⟨_, free, rfl, rfl⟩
    · refine .leaked asked succeeded begins ?_ readOnly
      intro taken
      exact unflagged ((takenIff.mp taken).1 readOnly)
    · exact .taken asked succeeded begins (takenIff.mpr ⟨flagged, taken, unshared⟩)
    · refine .begun asked succeeded begins ?_
      intro taken
      obtain ⟨_, registered, unshared⟩ := takenIff.mp taken
      cases unshared.symm.trans (free registered)

private theorem beginEnds_of_database {inner : Except Exception TxnRef}
    (idle : world.environment.activeDbTxn = none)
    (returned : LmdbEnvironment.beginDatabaseTransaction modes (some p) ret world =
      some (inner, after)) :
    BeginEnds world (.beginDatabaseTransaction modes (some p) ret) p modes ret
      (inner.map Returned.transaction) after := by
  have free : ¬Op.IdTaken world (.beginDatabaseTransaction modes (some p) ret) := by
    rintro ⟨_, _, _, begin, _⟩
    cases begin
  cases readOnly : modes.isReadOnly with
  | true =>
      rw [LmdbEnvironment.beginDatabaseTransaction, readOnly] at returned
      cases returned
      exact .early (.inl readOnly)
  | false =>
      have asked (opened : world.environment.env ≠ 0) :
          ¬Op.RefusedEarly world (.beginDatabaseTransaction modes (some p) ret) := by
        rintro (writable | shut)
        · cases readOnly.symm.trans writable
        · exact opened shut
      rw [beginDatabaseTransaction_eq _ _ readOnly idle] at returned
      rcases Method.bind_eq_some_iff.mp returned with
        ⟨exception, threw, rfl⟩ | ⟨_, _, begun, constructed⟩
      · rcases beginTransactionInternal_threw threw with ⟨shut, rfl⟩ | ⟨opened, failed, rfl⟩
        · exact .early (.inr shut)
        · exact .failed (asked opened) failed
      · rcases beginTransactionInternal_cases begun with
          ⟨_, _, absurd, _⟩ | ⟨native, succeeded, begins, equal, rfl⟩
        · cases absurd
        · cases equal
          cases constructed
          exact .begun (asked begins.opened) succeeded begins free

private theorem beginEnds_of_execute (idle : world.environment.activeDbTxn = none)
    (begin : op.beginning? = some (modes, some p, ret))
    (executed : execute world op = some (result, after)) :
    BeginEnds world op p modes ret result after ∧ p < world.txns.next := by
  obtain ⟨typed, returned⟩ := execute_eq_some_iff.mp executed
  cases op with
  | beginTransaction _ _ answer =>
      cases begin
      obtain ⟨_, ran, rfl⟩ := returning_cases returned
      exact ⟨beginEnds_of_plain rfl .rfl ran, of_decide_eq_true typed⟩
  | beginReadOnlyTransaction =>
      cases begin
      obtain ⟨_, ran, rfl⟩ := returning_cases returned
      exact ⟨beginEnds_of_plain rfl .rfl ran, of_decide_eq_true typed⟩
  | beginDatabaseTransaction =>
      cases begin
      obtain ⟨_, ran, rfl⟩ := returning_cases returned
      exact ⟨beginEnds_of_database idle ran, of_decide_eq_true typed⟩
  | _ => cases begin

end Outcome

section Begin

variable {world after : World runtime} {op : Op} {p : TxnRef} {modes : TransactionModes}
  {ret : DbRetCode} {result : Except Exception Returned} {native : Native}

/-- An abort right after the begin leaves the live transactions as they were. -/
theorem live_abort_newest (natives : NativeSound world.native)
    (begins : Begins world modes (some p) native) (txn : IntPtr) :
    (native.mdbTxnAbort world.native.txns.next).live txn = world.native.live txn := by
  have begunSound := natives.begun begins.accepted begins.state
  have ended := Native.live_ended .abort world.native.txns.next native txn
  refine ended.trans ?_
  by_cases newest : txn = world.native.txns.next
  · have unborn : world.native.live txn = false := by
      by_contra born
      have bound := (natives.txns txn (by simpa using born)).2
      exact Nat.lt_irrefl _ (newest ▸ bound)
    rw [unborn, newest]
    simp [Native.within]
  · have same : native.live txn = world.native.live txn := by
      rw [Native.live, begins.txn_of_ne newest]
      rfl
    rw [same]
    by_cases older : txn < world.native.txns.next
    · rw [within_newest begunSound older]
      simp
    · have unborn : world.native.live txn = false := by
        by_contra born
        exact older (natives.txns txn (by simpa using born)).2
      simp [unborn]

/-- The new native transaction is live and was not before. -/
theorem live_newest (begins : Begins world modes (some p) native) :
    native.live world.native.txns.next = true := by
  rw [begins.state, Native.live, Heap.alloc_obj, if_pos rfl]
  rfl

private theorem not_live_next (natives : NativeSound world.native) :
    world.native.live world.native.txns.next = false := by
  by_contra live
  exact Nat.lt_irrefl _ (natives.txns _ (by simpa using live)).2

/-- A native begin under a handle that is not null has a live parent. -/
theorem Begins.parent_live (begins : Begins world modes (some p) native)
    (held : world.handle p ≠ 0) :
    world.native.live (world.handle p) = true ∧ modes.isReadOnly = false := by
  obtain ⟨writes, writable⟩ := Native.canBegin_nested held begins.accepted
  exact ⟨(Native.canWrite_iff.mp writes).1, writable⟩

private theorem Begins.chain (begins : Begins world modes (some p) native)
    (held : world.handle p ≠ 0) :
    (native.txns.obj world.native.txns.next).chain = world.handle p :: world.chain p := by
  rw [begins.state, Heap.alloc_obj, if_pos rfl, Native.begun]
  exact if_neg held

private theorem BeginsChild.of_begun {kind : TransactionKind}
    {registry : Dictionary (id : IntPtr → IntPtr) TxnRef}
    (begins : Begins world modes (some p) native) (alive : world.fate p = .live)
    (held : world.handle p ≠ 0) :
    BeginsChild p world (.ok (.transaction world.txns.next))
      (world.begun kind (some p) registry native) := by
  refine ⟨alive, world.txns.next, rfl, ?_, ?_, ?_, (begins.parent_live held).1⟩
  · rw [World.parent, begun_txn_new]
  · rw [begun_handle_new]
    exact live_newest begins
  · rw [World.chain, begun_handle_new]
    exact begins.chain held

private theorem freed_iff {txn : IntPtr} :
    world.native.freed (.txn txn) = true ↔ txn ≠ 0 ∧ world.native.live txn ≠ true := by
  simp [Native.freed]

private theorem beginsNothing_of_failed {exception : Exception} :
    BeginsNothing p world (.error exception) { world with
      native := world.native.record .mdbTxnBegin
        [.env world.environment.env, .txn (world.handle p)] } ↔
      ¬world.native.freed (.txn (world.handle p)) = true := by
  constructor
  · intro begins freed
    exact List.cons_ne_self _ _ (begins.unasked freed)
  · intro kept
    exact ⟨⟨_, rfl⟩, fun _ => rfl, fun freed => absurd freed kept⟩

private theorem keepsParent_of_begin (natives : NativeSound world.native) (fates : FatesSound world)
    (known : p < world.txns.next) (ends : BeginEnds world op p modes ret result after) :
    BeginsNothing p world result after ∨ BeginsChild p world result after ↔
      world.fate p = .live ∨ op.RefusedEarly world ∨
        world.handle p = 0 ∧ (ret ≠ .success ∨ op.IdTaken world) := by
  have aliveIff := fates.fate_eq_live_iff known
  cases ends with
  | early refused =>
      exact ⟨fun _ => .inr (.inl refused), fun _ => .inl ⟨⟨_, rfl⟩, fun _ => rfl, fun _ => rfl⟩⟩
  | failed asked failed =>
      rw [or_congr_left beginsNothing_of_failed]
      constructor
      · rintro (kept | child)
        · rw [freed_iff, not_and_or, not_not, not_not] at kept
          by_cases null : world.handle p = 0
          · exact .inr (.inr ⟨null, .inl failed⟩)
          · exact .inl (aliveIff.mpr ⟨null, kept.resolve_left null⟩)
        · exact .inl child.parent
      · rintro (alive | refused | ⟨null, _⟩)
        · exact .inl fun freed => (freed_iff.mp freed).2 (aliveIff.mp alive).2
        · exact absurd refused asked
        · exact .inl fun freed => (freed_iff.mp freed).1 null
  | begun asked succeeded begins free =>
      constructor
      · rintro (nothing | child)
        · obtain ⟨_, threw⟩ := nothing.threw
          cases threw
        · exact .inl child.parent
      · rintro (alive | refused | ⟨_, failed | taken⟩)
        · exact .inr (.of_begun begins alive (aliveIff.mp alive).1)
        · exact absurd refused asked
        · exact absurd succeeded failed
        · exact absurd taken free
  | taken asked succeeded begins taken =>
      constructor
      · intro _
        by_cases null : world.handle p = 0
        · exact .inr (.inr ⟨null, .inr taken⟩)
        · exact .inl (aliveIff.mpr ⟨null, (begins.parent_live null).1⟩)
      · intro _
        refine .inl ⟨⟨_, rfl⟩, live_abort_newest natives begins, fun freed => ?_⟩
        obtain ⟨held, dead⟩ := freed_iff.mp freed
        exact absurd (begins.parent_live held).1 dead
  | leaked asked succeeded begins free readOnly =>
      have null : world.handle p = 0 := by
        by_contra held
        cases readOnly.symm.trans (begins.parent_live held).2
      constructor
      · rintro (nothing | child)
        · have same := nothing.live world.native.txns.next
          rw [not_live_next natives] at same
          cases same.symm.trans (live_newest begins)
        · exact .inl child.parent
      · rintro (alive | refused | ⟨_, failed | taken⟩)
        · exact absurd null (aliveIff.mp alive).1
        · exact absurd refused asked
        · exact absurd succeeded failed
        · exact absurd taken free

end Begin

section Chains

variable {world after : World runtime} {op : Op} {t : TxnRef} {ending : Ending} {txn : IntPtr}

/-- The end of a transaction leaves the ancestors of every native transaction alone. -/
theorem chain_closing (world : World runtime) (t : TxnRef) (ending : Ending) (txn : IntPtr) :
    ((closing t ending world).native.txns.obj txn).chain =
      (world.native.txns.obj txn).chain := by
  rw [closing_native, Native.ended_txn, (Native.endOf_identity _ _ _ _ _).2.2]
  rfl

/-- No step changes the ancestors of a native transaction that LMDB has begun. -/
theorem chain_of_effect (idle : world.environment.activeDbTxn = none)
    (effect : Effect world op after) (known : txn < world.native.txns.next) :
    (after.native.txns.obj txn).chain = (world.native.txns.obj txn).chain := by
  have older : txn ≠ world.native.txns.next := Nat.ne_of_lt known
  cases effect with
  | recorded unchanged => rw [unchanged]
  | begunDatabase _ _ _ begins => rw [begun_native, begins.txn_of_ne older]
  | begun _ _ _ begins => rw [begun_native, begins.txn_of_ne older]
  | @begunTaken _ _ _ _ native _ _ begins =>
      have kept := Native.ended_txn .abort world.native.txns.next native txn
      refine (congrArg NativeTxn.chain kept).trans ?_
      rw [(Native.endOf_identity _ _ _ _ _).2.2, begins.txn_of_ne older]
  | begunLeaked _ _ begins => rw [begins.txn_of_ne older]
  | closed => exact chain_closing world _ _ txn
  | promoted _ _ _ _ promoted =>
      obtain ⟨_, _, rfl⟩ := promoted
      split <;> exact chain_closing world _ _ txn
  | reader _ _ state =>
      rw [state, Heap.modify_obj]
      split <;> rfl
  | @opened _ t text kind dbi native _ _ _ _ slot =>
      have same : (world.added t kind dbi text native).native = native := rfl
      rw [same, slot.elsewhere.txns]
  | openFailed _ _ slot => rw [slot.elsewhere.txns]
  | databaseGone _ _ elsewhere => rw [databaseCallback_native, elsewhere.txns]
  | @cursorOpened d t native _ _ state =>
      have same : (world.cursorAdded d t native).native = native := rfl
      rw [same, state.txns]
  | cursorGone _ state => rw [cursorCallback_native, state.txns]
  | cursorRenewed _ _ _ state => rw [state]
  | @environmentDisposed order =>
      by_cases shut : world.environment.env = 0
      · rw [dispose_of_shut order shut]
      · rw [dispose_of_open order shut idle]
        exact enumerated_invariant (fun current => (current.native.txns.obj txn).chain =
          (world.native.txns.obj txn).chain) rfl
          fun held _ _ => (chain_closing _ _ .abort txn).trans held

end Chains

/-- The native ancestors of the transaction that an object was constructed with. -/
def World.nativeChain (world : World runtime) (t : TxnRef) : List IntPtr :=
  (world.native.txns.obj (world.nativeTxn t)).chain

/-- The `Parent` links are LMDB's parent links. -/
def World.ParentsAgree (world : World runtime) : Prop :=
  ∀ t < world.txns.next, world.nativeChain t = (world.ancestors t).map world.nativeTxn

/-- The changes of a committed transaction are visible to others: a nested one
hands them to its native parent, so all its native ancestors have committed too. -/
def World.Visible (world : World runtime) (t : TxnRef) : Prop :=
  ∀ txn ∈ world.nativeTxn t :: world.nativeChain t,
    (world.native.txns.obj txn).fate = .committed

/-- Every begin under a parent finds it live, or is refused. -/
def BeginsUnderLive (world : World runtime) (op : Op) : Prop :=
  ∀ modes p ret, op.beginning? = some (modes, some p, ret) →
    world.fate p = .live ∨ op.RefusedEarly world ∨
      world.handle p = 0 ∧ (ret ≠ .success ∨ op.IdTaken world)

section Agree

variable {world after : World runtime} {op : Op} {t : TxnRef}

private theorem Op.Creates.beginning {kind : TransactionKind} {modes : TransactionModes}
    {parent : Option TxnRef} (creates : op.Creates kind modes parent) :
    op.beginning? = some (modes, parent, .success) := by
  cases creates with
  | database => rfl
  | plain begin accepted =>
      cases op with
      | beginTransaction | beginReadOnlyTransaction =>
          cases begin
          exact congrArg (fun ret => some (_, _, ret)) accepted
      | _ => cases begin

private theorem nativeChain_eq (fates : FatesSound world) (held : world.handle t ≠ 0) :
    world.nativeChain t = world.chain t := by
  rw [World.nativeChain, fates.held t held]
  rfl

/-- A step that creates no transaction keeps both kinds of links. -/
theorem parentsAgree_same (sound : WorldSound world) (fates : FatesSound world)
    (agree : world.ParentsAgree) (effect : Effect world op after)
    (same : SameTransactions world after) : after.ParentsAgree := by
  intro t known
  rw [same.next] at known
  have native (u : TxnRef) : after.nativeTxn u = world.nativeTxn u := (same.object u).begun
  rw [World.nativeChain, native, chain_of_effect sound.transactions.idle effect (fates.bound t known),
    same.ancestors sound.transactions (sound.effect effect).transactions, funext native]
  exact agree t known

/-- A new transaction under a live parent gets the native link of its `Parent`. -/
theorem parentsAgree_begun (sound : WorldSound world) (fates : FatesSound world)
    (agree : world.ParentsAgree) {kind : TransactionKind} {modes : TransactionModes}
    {parent : Option TxnRef} {registry : Dictionary (id : IntPtr → IntPtr) TxnRef}
    {native : Native} (valid : validParent world parent = true)
    (begins : Begins world modes parent native)
    (live : ∀ p, parent = some p → world.handle p ≠ 0) :
    (world.begun kind parent registry native).ParentsAgree := by
  have later : TransactionsSound (world.begun kind parent registry native) :=
    sound.transactions.begun valid
  have oldNative {u : TxnRef} (known : u < world.txns.next) :
      (world.begun kind parent registry native).nativeTxn u = world.nativeTxn u :=
    congrArg Transaction.begun (if_neg (Nat.ne_of_lt known))
  have oldParent {u : TxnRef} (known : u < world.txns.next) :
      (world.begun kind parent registry native).parent u = world.parent u :=
    congrArg Transaction.parent (if_neg (Nat.ne_of_lt known))
  have oldAncestors {u : TxnRef} (known : u < world.txns.next) :
      ((world.begun kind parent registry native).ancestors u).map
          (world.begun kind parent registry native).nativeTxn =
        (world.ancestors u).map world.nativeTxn := by
    rw [sound.transactions.ancestors_congr later fun v below =>
      oldParent (Nat.lt_of_le_of_lt below known)]
    refine List.map_congr_left fun a member => oldNative ?_
    exact Nat.lt_trans (sound.transactions.ancestors_lt member) known
  have newNative : (world.begun kind parent registry native).nativeTxn world.txns.next =
      world.native.txns.next := by
    rw [World.nativeTxn, begun_txn, if_pos rfl]
  have newParent : (world.begun kind parent registry native).parent world.txns.next = parent := by
    rw [World.parent, begun_txn, if_pos rfl]
  have newChain : (world.begun kind parent registry native).nativeChain world.txns.next =
      (world.native.begun (parentHandle world parent) modes).chain := by
    rw [World.nativeChain, newNative, begun_native, begins.state, Heap.alloc_obj, if_pos rfl]
  intro t known
  by_cases new : t = world.txns.next
  · rw [new, newChain]
    cases isParent : parent with
    | none =>
        rw [TransactionsSound.ancestors_of_root (isParent ▸ newParent)]
        rfl
    | some p =>
        have held := live p isParent
        have knownParent := sound.transactions.bound held
        rw [isParent] at oldAncestors oldNative later newParent
        rw [later.ancestors_of_parent newParent, List.map_cons, oldAncestors knownParent,
          oldNative knownParent, ← agree p knownParent, nativeChain_eq fates held,
          fates.held p held]
        exact if_neg held
  · have older : t < world.txns.next := Nat.lt_of_le_of_ne (Nat.le_of_lt_succ known) new
    rw [World.nativeChain, oldNative older, begun_native,
      begins.txn_of_ne (Nat.ne_of_lt (fates.bound t older)), oldAncestors older]
    exact agree t older

/-- A begin that creates an object was not refused, so the parent is live. -/
theorem parent_live_of_begun (sound : WorldSound world) (fates : FatesSound world)
    (allowed : BeginsUnderLive world op) (transition : Step world op after)
    (created : after.txns.next = world.txns.next + 1) {modes : TransactionModes} {p : TxnRef}
    (begin : op.beginning? = some (modes, some p, .success)) : world.handle p ≠ 0 := by
  obtain ⟨result, executed⟩ := transition
  obtain ⟨ends, known⟩ := beginEnds_of_execute sound.transactions.idle begin executed
  cases ends with
  | begun asked succeeded begins free =>
      rcases allowed _ _ _ begin with alive | refused | ⟨_, failed | taken⟩
      · exact ((fates.fate_eq_live_iff known).mp alive).1
      · exact absurd refused asked
      · exact absurd rfl failed
      · exact absurd taken free
  | early | failed | taken | leaked => exact absurd created (Nat.ne_of_lt (Nat.lt_succ_self _))

private theorem parentsAgree_step (sound : WorldSound world) (fates : FatesSound world)
    (agree : world.ParentsAgree) (allowed : BeginsUnderLive world op)
    (transition : Step world op after) : after.ParentsAgree := by
  have effect := effect_of_step transition
  rcases transactions_of_effect sound.transactions.idle effect with
    ⟨_, _, parent, _, _, creates, valid, begins, equal⟩ | same
  · have live (p : TxnRef) (isParent : parent = some p) : world.handle p ≠ 0 := by
      have begin := creates.beginning
      rw [isParent] at begin
      exact parent_live_of_begun sound fates allowed transition (by rw [equal]; rfl) begin
    rw [equal]
    exact parentsAgree_begun sound fates agree valid begins live
  · exact parentsAgree_same sound fates agree effect same

/-- While every begin under a parent finds it live, both kinds of links agree. -/
theorem parentsAgree_of_history {flags : LmdbEnvironmentOptions} {lastTxnId : Nat}
    {ops : List Op} (history : History BeginsUnderLive flags lastTxnId ops world) :
    world.ParentsAgree := by
  have all := history.invariant
    (fun world => WorldSound world ∧ FatesSound world ∧ world.ParentsAgree)
    ⟨.opened flags lastTxnId, .opened flags lastTxnId, nofun⟩
    fun ⟨sound, fates, agree⟩ allowed transition =>
      ⟨sound.step transition, fates.effect sound (effect_of_step transition),
        parentsAgree_step sound fates agree allowed transition⟩
  exact all.2.2

/-- What a nested transaction changed becomes visible with its ancestors only. -/
theorem World.ParentsAgree.committed (agree : world.ParentsAgree)
    (known : t < world.txns.next) (visible : world.Visible t) :
    ∀ a ∈ world.ancestors t, world.fate a = .committed := by
  intro a member
  apply visible
  rw [agree t known]
  exact List.mem_cons_of_mem _ (List.mem_map_of_mem member)

end Agree

section Decidable

variable (world : World runtime) (op : Op)

instance : Decidable (op.RefusedEarly world) := by
  apply op.casesOn (motive := fun op => Decidable (op.RefusedEarly world)) <;> intros <;>
    unfold Op.RefusedEarly <;> infer_instance

/-- The condition of `IdTaken` for the fields of one begin. -/
def takenBy (modes : TransactionModes) (parent : Option TxnRef) (answer : BeginAnswer) : Prop :=
  (modes.isReadOnly = true → answer.getFlags = .success) ∧
    world.environment.transactions.containsKey (world.nextId modes parent) = true ∧
    world.mayShareId modes = false

instance (modes : TransactionModes) (parent : Option TxnRef) (answer : BeginAnswer) :
    Decidable (takenBy world modes parent answer) :=
  inferInstanceAs (Decidable (_ ∧ _))

instance : Decidable (op.IdTaken world) :=
  decidable_of_iff (∃ fields ∈ op.begin?, takenBy world fields.1 fields.2.1 fields.2.2) (by
    constructor
    · rintro ⟨⟨modes, parent, answer⟩, begin, taken⟩
      exact ⟨modes, parent, answer, begin, taken⟩
    · rintro ⟨modes, parent, answer, begin, taken⟩
      exact ⟨(modes, parent, answer), begin, taken⟩)

instance : Decidable (BeginsUnderLive world op) :=
  decidable_of_iff (∀ fields ∈ op.beginning?, ∀ p ∈ fields.2.1, world.fate p = .live ∨
      op.RefusedEarly world ∨ world.handle p = 0 ∧ (fields.2.2 ≠ .success ∨ op.IdTaken world)) (by
    constructor
    · intro allowed modes p ret begin
      exact allowed (modes, some p, ret) begin p rfl
    · rintro allowed ⟨modes, parent, ret⟩ begin p isParent
      cases isParent
      exact allowed modes p ret begin)

end Decidable

/-- In every reachable state a begin under a parent begins nothing or a child of
the parent's live native transaction exactly when the parent has not ended or the
begin is refused for another reason; and if all begins of a history are such,
`Parent` is LMDB's parent relation and no change becomes visible before the
ancestors' commits. -/
theorem begin_under_parent (world : World runtime) :
    (∀ after op p modes ret result, Reachable world →
      op.beginning? = some (modes, some p, ret) → execute world op = some (result, after) →
      (BeginsNothing p world result after ∨ BeginsChild p world result after ↔
        world.fate p = .live ∨ op.RefusedEarly world ∨
          world.handle p = 0 ∧ (ret ≠ .success ∨ op.IdTaken world))) ∧
    ∀ flags lastTxnId ops, History BeginsUnderLive flags lastTxnId ops world →
      world.ParentsAgree ∧ ∀ t < world.txns.next, world.Visible t →
        ∀ a ∈ world.ancestors t, world.fate a = .committed := by
  constructor
  · intro after op p modes ret result reachable begin executed
    have sound := reachable_sound reachable
    obtain ⟨ends, known⟩ := beginEnds_of_execute sound.transactions.idle begin executed
    exact keepsParent_of_begin sound.natives (.of_reachable reachable) known ends
  · intro flags lastTxnId ops history
    have agree := parentsAgree_of_history history
    exact ⟨agree, fun t known visible => agree.committed known visible⟩

/-- A nested transaction and its parent commit. -/
def nestedCommits : List Op :=
  [.beginTransaction .none none ⟨.success, .success⟩,
    .beginDatabaseTransaction .none (some 0) .success, .commit 1 ⟨.success, true⟩,
    .commit 0 ⟨.success, true⟩]

/-- A begin under a live parent, and a run of two nested commits. -/
theorem begin_under_parent_nested : ∃ (world : World .ascii) (start begun : World .ascii)
    (result : Except Exception Returned),
    execute start (.beginDatabaseTransaction .none (some 0) .success) = some (result, begun) ∧
    (BeginsNothing 0 start result begun ∨ BeginsChild 0 start result begun) ∧
    History BeginsUnderLive .none 0 nestedCommits world ∧ world.ancestors 1 = [0] ∧
    world.Visible 1 ∧ world.ParentsAgree ∧ world.fate 0 = .committed := by
  obtain ⟨start, opening, alive, ran⟩ := history_of_replay BeginsUnderLive .none 0
    (nestedCommits.take 1) (fun world : World .ascii => world.fate 0 = .live ∧
      (execute world (.beginDatabaseTransaction .none (some 0) .success)).isSome)
    (by decide +kernel)
  obtain ⟨⟨result, begun⟩, executed⟩ := Option.isSome_iff_exists.mp ran
  have nests := (begin_under_parent start).1 begun _ 0 _ _ result (reachable_of_history opening)
    rfl executed
  obtain ⟨world, history, ancestors, known, visible⟩ := history_of_replay BeginsUnderLive .none 0
    nestedCommits (fun world : World .ascii => world.ancestors 1 = [0] ∧ 1 < world.txns.next ∧
      ∀ txn ∈ world.nativeTxn 1 :: world.nativeChain 1,
        (world.native.txns.obj txn).fate = .committed) (by decide +kernel)
  obtain ⟨agree, committed⟩ := (begin_under_parent world).2 _ _ _ history
  refine ⟨world, start, begun, result, executed, nests.mpr (.inl alive), history, ancestors, visible,
    agree, committed 1 known visible 0 ?_⟩
  rw [ancestors]
  exact List.mem_singleton_self 0

/-- A transaction that was aborted. -/
def abortedHistory : List Op :=
  [.beginTransaction .none none ⟨.success, .success⟩, .disposeTransaction 0]

/-- A begin under the aborted transaction is carried out as a begin without a
parent, and its commit is visible at once. -/
theorem begin_under_aborted : ∃ (world begun committed : World .ascii)
    (result : Except Exception Returned),
    History Always .none 0 abortedHistory world ∧ world.fate 0 = .aborted ∧
    execute world (.beginDatabaseTransaction .none (some 0) .success) = some (result, begun) ∧
    ¬(BeginsNothing 0 world result begun ∨ BeginsChild 0 world result begun) ∧
    begun.parent 1 = some 0 ∧ begun.nativeChain 1 = [] ∧
    Step begun (.commit 1 ⟨.success, true⟩) committed ∧ committed.Visible 1 ∧
    committed.fate 0 = .aborted := by
  obtain ⟨world, history, fate, ran⟩ := history_of_replay Always .none 0 abortedHistory
    (fun world : World .ascii => world.fate 0 = .aborted ∧
      ((execute world (.beginDatabaseTransaction .none (some 0) .success)).any fun outcome =>
        decide (outcome.1 = .ok (.transaction 1) ∧ outcome.2.parent 1 = some 0 ∧
          outcome.2.nativeChain 1 = []) &&
        (stepTo outcome.2 (.commit 1 ⟨.success, true⟩)).any fun committed => decide (
          committed.fate 0 = .aborted ∧
          ∀ txn ∈ committed.nativeTxn 1 :: committed.nativeChain 1,
            (committed.native.txns.obj txn).fate = .committed)) = true) (by decide +kernel)
  obtain ⟨⟨result, begun⟩, executed, observed⟩ := (Option.any_eq_true _ _).mp ran
  obtain ⟨left, ended⟩ := Bool.and_eq_true_iff.mp observed
  obtain ⟨rfl, parent, chain⟩ := of_decide_eq_true left
  obtain ⟨committed, stepped, last⟩ := (Option.any_eq_true _ _).mp ended
  obtain ⟨aborted, visible⟩ := of_decide_eq_true last
  refine ⟨world, begun, committed, _, history, fate, executed, ?_, parent, chain,
    step_of_stepTo stepped, visible, aborted⟩
  rintro (nothing | child)
  · obtain ⟨_, threw⟩ := nothing.threw
    cases threw
  · cases fate.symm.trans child.parent

end KdSoftLmdb
