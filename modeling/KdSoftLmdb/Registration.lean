import KdSoftLmdb.Invariants.Handles

/-!
# The registry of transactions

`transactions` is keyed by native ids. A reader's id is not its own: readers of
one snapshot share it, `Renew` changes it, and without thread-local storage the
registry silently drops the reader whose id is taken. The registry is exact as
long as no transaction meets the id of another one.
-/

namespace KdSoftLmdb

variable {runtime : Runtime}

open LmdbEnvironment (BeginAnswer)

/-- The registry knows the transaction under the id that it has now. -/
def World.OwnEntry (world : World runtime) (t : TxnRef) : Prop :=
  world.handle t = 0 ∨ world.environment.transactions.find? (world.txnId t) = some t

instance (world : World runtime) (t : TxnRef) : Decidable (world.OwnEntry t) :=
  inferInstanceAs (Decidable (_ ∨ _))

/-- A reader that LMDB begins gets its options, and without thread-local storage
its id is free. -/
def World.ReaderFree (world : World runtime) (modes : TransactionModes) (parent : Option TxnRef)
    (answer : BeginAnswer) : Prop :=
  answer.ret = .success → modes.isReadOnly = true → answer.getFlags = .success ∧
    (world.mayShareId modes = true →
      world.environment.transactions.containsKey (world.nextId modes parent) = false)

instance (world : World runtime) (modes : TransactionModes) (parent : Option TxnRef)
    (answer : BeginAnswer) : Decidable (world.ReaderFree modes parent answer) :=
  inferInstanceAs (Decidable (_ → _ → _ ∧ (_ → _)))

/-- The registry takes a transaction whose begin went through. -/
theorem World.ReaderFree.untaken {world : World runtime} {modes : TransactionModes}
    {parent : Option TxnRef} {answer : BeginAnswer} (reader : world.ReaderFree modes parent answer)
    (accepted : answer.ret = .success)
    (free : world.environment.transactions.containsKey (world.nextId modes parent) = true →
      world.mayShareId modes = true) :
    world.environment.transactions.containsKey (world.nextId modes parent) = false := by
  cases taken : world.environment.transactions.containsKey (world.nextId modes parent) with
  | false => rfl
  | true =>
      have shares := free taken
      have readOnly : modes.isReadOnly = true := (Bool.and_eq_true_iff.mp shares).1
      exact taken.symm.trans ((reader accepted readOnly).2 shares)

/-- The calls that begin, end, reset and renew transactions, where a reader
begins under a free id and a transaction ends under its own. -/
def Registers (world : World runtime) : Op → Prop
  | .beginTransaction modes parent answer => world.ReaderFree modes parent answer
  | .beginReadOnlyTransaction modes parent answer =>
      world.ReaderFree (modes ||| .readOnly) parent answer
  | .commit t _ | .disposeTransaction t => world.OwnEntry t
  | .reset _ | .renew _ _ => True
  | _ => False

instance : ∀ (world : World runtime) (op : Op), Decidable (Registers world op) := by
  intro world op
  apply op.casesOn (motive := fun op => Decidable (Registers world op)) <;> intros <;>
    unfold Registers <;> infer_instance

/-- The values of the registry are the live transaction objects, each once, and
their handles are LMDB's live transactions. -/
structure RegistryExact (world : World runtime) : Prop where
  nodup : world.environment.transactions.values.Nodup
  values : ∀ t, t ∈ world.environment.transactions.values ↔ world.handle t ≠ 0
  natives : ∀ txn, world.native.live txn = true ↔ txn ≠ 0 ∧ ∃ t, world.handle t = txn
  injective : ∀ t u, world.handle t ≠ 0 → world.handle t = world.handle u → t = u

/-- What holds of every state of a history that registers. -/
structure RegistrySound (world : World runtime) : Prop where
  nesting : NestingSound world
  plain : ∀ t, world.isDatabaseTransaction t = false
  orphans : ∀ u p, world.handle u ≠ 0 → world.parent u = some p → world.handle p = 0
  listed : ∀ t, world.handle t ≠ 0 → ∃ key, (key, t) ∈ world.environment.transactions.entries
  live : ∀ entry ∈ world.environment.transactions.entries, world.handle entry.2 ≠ 0
  single : ∀ left ∈ world.environment.transactions.entries,
    ∀ right ∈ world.environment.transactions.entries, left.2 = right.2 → left.1 = right.1
  writers : ∀ t, world.handle t ≠ 0 → (world.txns.obj t).kind = .transaction →
    (world.txnId t, t) ∈ world.environment.transactions.entries
  held : ∀ txn, world.native.live txn = true → ∃ t, world.handle t = txn

namespace RegistrySound

variable {world after : World runtime} {op : Op}

private theorem exact (sound : RegistrySound world) : RegistryExact world where
  nodup := Dictionary.values_nodup sound.single
  values t := by
    rw [Dictionary.mem_values]
    exact ⟨fun ⟨_, entry⟩ => sound.live _ entry, sound.listed t⟩
  natives txn := by
    constructor
    · intro live
      exact ⟨Nat.ne_of_gt (sound.nesting.sound.natives.txns txn live).1, sound.held txn live⟩
    · rintro ⟨positive, t, rfl⟩
      exact sound.nesting.tree.alive t positive
  injective := sound.nesting.tree.injective

/-- Nothing is nested in a live transaction. -/
theorem leaf (sound : RegistrySound world) (t : TxnRef) : world.Leaf t := by
  by_cases live : world.handle t = 0
  · exact .inl live
  · refine .inr fun u _ isParent => ?_
    by_contra alive
    exact live (sound.orphans u t alive isParent)

private theorem endsLeaves (sound : RegistrySound world) (registers : Registers world op) :
    EndsLeaves world op := by
  cases op with
  | commit | disposeTransaction => exact sound.leaf _
  | disposeEnvironment => exact registers.elim
  | _ => trivial

/-- A step that leaves the objects and the registry alone, starts nothing, and
keeps the ids of writers. -/
theorem quiet (sound : RegistrySound world) {native : Native}
    (nesting : NestingSound { world with native := native })
    (ids : ∀ t, world.handle t ≠ 0 → (world.txns.obj t).kind = .transaction →
      (native.txns.obj (world.handle t)).id = world.txnId t)
    (held : ∀ txn, native.live txn = true → world.native.live txn = true) :
    RegistrySound { world with native := native } where
  nesting := nesting
  plain := sound.plain
  orphans := sound.orphans
  listed := sound.listed
  live := sound.live
  single := sound.single
  writers t live kind := by
    have entry := sound.writers t live kind
    rw [← ids t live kind] at entry
    exact entry
  held txn live := sound.held txn (held txn live)

/-- A begin under a live parent would take the parent's id, which is registered. -/
theorem parent_disposed (sound : RegistrySound world) {modes : TransactionModes}
    {parent : Option TxnRef} {native : Native} (begins : Begins world modes parent native)
    (free : world.environment.transactions.containsKey (world.nextId modes parent) = true →
      world.mayShareId modes = true) : LmdbEnvironment.parentHandle world parent = 0 := by
  cases parent with
  | none => rfl
  | some p =>
      by_contra live
      have alive : world.handle p ≠ 0 := live
      obtain ⟨canWrite, notReadOnly⟩ := Native.canBegin_nested alive begins.accepted
      obtain ⟨_, writable, _⟩ := Native.canWrite_iff.mp canWrite
      have kind : (world.txns.obj p).kind = .transaction := by
        have reader := (sound.nesting.tree.readers p alive).mpr
        have plain := sound.plain p
        rw [World.isDatabaseTransaction] at plain
        cases kind : (world.txns.obj p).kind with
        | transaction => rfl
        | readOnlyTransaction => cases writable.symm.trans (reader kind)
        | databaseTransaction => simp [kind] at plain
      have id : world.nextId modes (some p) = world.txnId p := if_pos live
      have shares := free (Dictionary.containsKey_iff.mpr
        ⟨_, sound.writers p alive kind, id.symm⟩)
      rw [World.mayShareId, notReadOnly] at shares
      cases shares

private theorem begun (sound : RegistrySound world) {modes : TransactionModes}
    {parent : Option TxnRef}
    {answer : BeginAnswer} {native : Native} (begins : Begins world modes parent native)
    (accepted : answer.ret = .success) (reader : world.ReaderFree modes parent answer)
    (free : world.environment.transactions.containsKey (world.nextId modes parent) = true →
      world.mayShareId modes = true)
    (nesting : NestingSound (world.begun (kindOf modes) parent
      (world.environment.transactions.tryAdd (world.nextId modes parent) world.txns.next).2
      native)) :
    RegistrySound (world.begun (kindOf modes) parent
      (world.environment.transactions.tryAdd (world.nextId modes parent) world.txns.next).2
      native) := by
  have untaken := reader.untaken accepted free
  generalize registry : (world.environment.transactions.tryAdd (world.nextId modes parent)
    world.txns.next).2 = after at nesting ⊢
  have entries : after.entries =
      world.environment.transactions.entries ++ [(world.nextId modes parent, world.txns.next)] := by
    rw [← registry]
    exact Dictionary.tryAdd_entries_of_free _ untaken
  have member {entry : IntPtr × TxnRef} : entry ∈ after.entries ↔
      entry ∈ world.environment.transactions.entries ∨
        entry = (world.nextId modes parent, world.txns.next) := by
    rw [entries, List.mem_append, List.mem_singleton]
  have known {t : TxnRef} (live : world.handle t ≠ 0) : t ≠ world.txns.next :=
    Nat.ne_of_lt (sound.nesting.sound.transactions.bound live)
  have nativeObj (txn : IntPtr) : native.txns.obj txn = if txn = world.native.txns.next then
      world.native.begun (LmdbEnvironment.parentHandle world parent) modes
      else world.native.txns.obj txn := by
    rw [begins.state.txns]
    rfl
  have unlisted {entry : IntPtr × TxnRef}
      (listed : entry ∈ world.environment.transactions.entries) : entry.2 ≠ world.txns.next :=
    known (sound.live entry listed)
  refine ⟨nesting, fun t => ?_, fun u p live isParent => ?_, fun t live => ?_,
    fun entry listed => ?_, fun left leftListed right rightListed same => ?_,
    fun t live kind => ?_, fun txn live => ?_⟩
  · by_cases same : t = world.txns.next
    · rw [World.isDatabaseTransaction, same, begun_txn_new]
      exact decide_eq_false (kindOf_ne modes)
    · rw [World.isDatabaseTransaction, begun_txn_of_ne same]
      exact sound.plain t
  · by_cases same : u = world.txns.next
    · rw [World.parent, same, begun_txn_new] at isParent
      dsimp only at isParent
      have disposed := sound.parent_disposed begins free
      rw [isParent] at disposed
      have older := nesting.sound.transactions.older world.txns.next p
        (by rw [begun_txn_new]; exact isParent)
      rw [begun_handle_of_ne (Nat.ne_of_lt older)]
      exact disposed
    · rw [begun_handle_of_ne same] at live
      rw [World.parent, begun_txn_of_ne same] at isParent
      have disposed := sound.orphans u p live isParent
      have older := sound.nesting.sound.transactions.older u p isParent
      rw [begun_handle_of_ne (Nat.ne_of_lt (Nat.lt_trans older
        (sound.nesting.sound.transactions.bound live)))]
      exact disposed
  · by_cases same : t = world.txns.next
    · exact ⟨_, member.mpr (.inr (by rw [same]))⟩
    · rw [begun_handle_of_ne same] at live
      obtain ⟨key, listed⟩ := sound.listed t live
      exact ⟨key, member.mpr (.inl listed)⟩
  · rcases member.mp listed with before | added
    · rw [begun_handle_of_ne (unlisted before)]
      exact sound.live entry before
    · rw [added, begun_handle_new]
      exact Nat.ne_of_gt sound.nesting.sound.natives.positive.1
  · rcases member.mp leftListed with before | added <;>
      rcases member.mp rightListed with before' | added'
    · exact sound.single left before right before' same
    · rw [added'] at same
      exact absurd same (unlisted before)
    · rw [added] at same
      exact absurd same.symm (unlisted before')
    · rw [added, added']
  · by_cases same : t = world.txns.next
    · refine member.mpr (.inr ?_)
      rw [World.txnId, same, begun_handle_new, begun_native, nativeObj, if_pos rfl]
      rfl
    · rw [begun_handle_of_ne same] at live
      rw [begun_txn_of_ne same] at kind
      have older := Nat.ne_of_lt
        (sound.nesting.sound.natives.txns _ (sound.nesting.tree.alive t live)).2
      rw [World.txnId, begun_handle_of_ne same, begun_native, nativeObj, if_neg older]
      exact member.mpr (.inl (sound.writers t live kind))
  · rw [begun_native, Native.live, nativeObj] at live
    by_cases same : txn = world.native.txns.next
    · exact ⟨world.txns.next, begun_handle_new.trans same.symm⟩
    · rw [if_neg same] at live
      obtain ⟨t, holds⟩ := sound.held txn live
      have positive := Nat.ne_of_gt (sound.nesting.sound.natives.txns txn live).1
      exact ⟨t, (begun_handle_of_ne (known (holds ▸ positive))).trans holds⟩

/-- What the end of a plain transaction leaves of the registry. -/
theorem mem_closing (sound : RegistrySound world) {t : TxnRef} {ending : Ending}
    {entry : IntPtr × TxnRef} :
    entry ∈ (closing t ending world).environment.transactions.entries ↔
      entry ∈ world.environment.transactions.entries ∧ entry.1 ≠ world.txnId t := by
  rw [closing_environment, if_neg (by rw [sound.plain t]; exact Bool.false_ne_true)]
  exact Dictionary.mem_remove

/-- Under its own id a transaction ends with its own entry, and with no other. -/
theorem own_entry (sound : RegistrySound world) {t : TxnRef} (live : world.handle t ≠ 0)
    (own : world.OwnEntry t) {entry : IntPtr × TxnRef}
    (listed : entry ∈ world.environment.transactions.entries) :
    entry.1 = world.txnId t ↔ entry.2 = t := by
  obtain ⟨mine, listedMine, key, value⟩ :=
    Dictionary.exists_mem_of_find?_eq_some (own.resolve_left live)
  constructor
  · intro same
    rw [Dictionary.entry_unique listed listedMine (same.trans key.symm), value]
  · intro same
    rw [sound.single entry listed mine listedMine (same.trans value.symm)]
    exact key

private theorem closed (sound : RegistrySound world) {t : TxnRef} {ending : Ending}
    (live : world.handle t ≠ 0) (own : world.OwnEntry t)
    (nesting : NestingSound (closing t ending world)) :
    RegistrySound (closing t ending world) := by
  have handle := closing_handle world t ending
  have kept {u : TxnRef} (different : u ≠ t) : (closing t ending world).handle u = world.handle u := by
    rw [handle, if_neg different]
  have survivor {u : TxnRef} (alive : (closing t ending world).handle u ≠ 0) :
      u ≠ t ∧ world.handle u ≠ 0 :=
    survives_of_handle handle alive
  have listed {entry : IntPtr × TxnRef} :
      entry ∈ (closing t ending world).environment.transactions.entries ↔
        entry ∈ world.environment.transactions.entries ∧ entry.2 ≠ t := by
    rw [sound.mem_closing]
    exact and_congr_right fun member => not_congr (sound.own_entry live own member)
  refine ⟨nesting, fun u => ?_, fun u p alive isParent => ?_, fun u alive => ?_,
    fun entry member => ?_, fun left leftMember right rightMember => ?_, fun u alive kind => ?_,
    fun txn alive => ?_⟩
  · rw [closing_isDatabaseTransaction]
    exact sound.plain u
  · obtain ⟨different, alive⟩ := survivor alive
    rw [World.parent, closing_txn_of_ne _ _ _ different] at isParent
    rw [handle, sound.orphans u p alive isParent]
    exact ite_self 0
  · obtain ⟨different, alive⟩ := survivor alive
    obtain ⟨key, member⟩ := sound.listed u alive
    exact ⟨key, listed.mpr ⟨member, different⟩⟩
  · obtain ⟨before, different⟩ := listed.mp member
    rw [kept different]
    exact sound.live entry before
  · exact sound.single left (listed.mp leftMember).1 right (listed.mp rightMember).1
  · obtain ⟨different, alive⟩ := survivor alive
    rw [closing_txn_of_ne _ _ _ different] at kind
    have id : (closing t ending world).txnId u = world.txnId u := by
      rw [World.txnId, kept different, closing_native, Native.ended_txn]
      exact (Native.endOf_identity _ _ _ _ _).2.1
    rw [id]
    exact listed.mpr ⟨sound.writers u alive kind, different⟩
  · obtain ⟨u, different, holds⟩ := holder_of_closing sound.held alive
    exact ⟨u, (kept different).trans holds⟩

/-- One step that registers. -/
theorem effect (sound : RegistrySound world) (registers : Registers world op)
    (effect : Effect world op after) : RegistrySound after := by
  have nesting := sound.nesting.effect (sound.endsLeaves registers) effect
  have natives := sound.nesting.sound.natives
  have reader {modes : TransactionModes} {parent : Option TxnRef} {answer : BeginAnswer}
      (begin : op.begin? = some (modes, parent, answer)) :
      world.ReaderFree modes parent answer := by
    cases op with
    | beginTransaction | beginReadOnlyTransaction =>
        cases begin
        exact registers
    | _ => cases begin
  cases effect with
  | recorded unchanged =>
      have txns := unchanged.txns
      refine sound.quiet nesting (fun t _ _ => by rw [txns]; rfl) fun txn live => ?_
      rw [Native.live, txns] at live
      exact live
  | begun begin _ accepted begins _ free =>
      exact sound.begun begins accepted (reader begin) free nesting
  | @begunTaken _ _ _ _ native _ _ begins =>
      have txns := begins.state.txns
      refine sound.quiet nesting (fun t live _ => ?_) fun txn live => ?_
      · have older := Nat.ne_of_lt (natives.txns _ (sound.nesting.tree.alive t live)).2
        have ended := Native.ended_txn .abort world.native.txns.next native (world.handle t)
        refine (congrArg NativeTxn.id ended).trans ?_
        rw [(Native.endOf_identity _ _ _ _ _).2.1, txns]
        exact congrArg NativeTxn.id (Heap.alloc_obj_of_ne _ _ older)
      · have ended := Native.live_ended .abort world.native.txns.next native txn
        have alive := Bool.and_eq_true_iff.mp (ended.symm.trans live)
        have older : txn ≠ world.native.txns.next := by
          rintro rfl
          simp [Native.within] at alive
        rw [Native.live, txns, Heap.alloc_obj_of_ne _ _ older] at alive
        exact alive.1
  | begunLeaked begin accepted _ readOnly unflagged =>
      exact absurd (reader begin accepted readOnly).1 unflagged
  | closed ends live =>
      cases op with
      | commit | disposeTransaction =>
          cases ends
          exact sound.closed live registers nesting
      | _ => cases ends
  | promoted _ _ database => cases (sound.plain _).symm.trans database
  | @reader _ t _ _ _ kind live state =>
      have txns := state.txns
      refine sound.quiet nesting (fun u alive writer => ?_) fun txn live => ?_
      · have different : world.handle u ≠ world.handle t := by
          intro same
          rw [sound.nesting.tree.injective u t alive same, kind] at writer
          cases writer
        rw [txns]
        exact congrArg NativeTxn.id (if_neg different)
      · rw [Native.live, txns] at live
        rw [Native.live]
        by_cases same : txn = world.handle t
        · subst same
          simpa using live
        · rw [Heap.modify_obj_of_ne _ _ same] at live
          exact live
  | opened opens | openFailed opens => cases op <;> first | exact registers.elim | cases opens
  | databaseGone gone => rcases gone with rfl | ⟨_, _, rfl⟩ <;> exact registers.elim
  | begunDatabase | cursorOpened | cursorGone | cursorRenewed | environmentDisposed =>
      exact registers.elim

private theorem of_history {flags : LmdbEnvironmentOptions} {lastTxnId : Nat} {ops : List Op}
    (history : History Registers flags lastTxnId ops world) : RegistrySound world :=
  history.invariant RegistrySound
    ⟨.opened flags lastTxnId, fun _ => rfl, fun _ _ live => (live rfl).elim,
      fun _ live => (live rfl).elim, nofun, nofun, fun _ live => (live rfl).elim,
      fun txn live => by simp [World.opened, Native.opened, Native.live, default] at live⟩
    fun held registers transition => held.effect registers (effect_of_step transition)

/-- The end of a transaction takes no other entry out of the registry. -/
theorem entries_kept (sound : RegistrySound world) {t : TxnRef} {ending : Ending}
    (ends : op.ending? = some (t, ending)) (registers : Registers world op)
    (transition : Step world op after) {entry : IntPtr × TxnRef}
    (member : entry ∈ world.environment.transactions.entries) (other : entry.2 ≠ t) :
    entry ∈ after.environment.transactions.entries := by
  have own : world.OwnEntry t := by
    cases op with
    | commit | disposeTransaction =>
        cases ends
        exact registers
    | _ => cases ends
  cases treeEffect_of_effect sound.nesting.sound.natives (effect_of_step transition) with
  | begun creates =>
      cases creates with
      | database => cases ends
      | plain begin =>
          cases op with
          | commit | disposeTransaction => cases begin
          | _ => cases ends
  | ended ends' live leaves =>
      cases ends.symm.trans ends'
      rw [leaves.transactions]
      exact sound.mem_closing.mpr ⟨member, (not_congr (sound.own_entry live own member)).mpr other⟩
  | disposed dispose =>
      subst dispose
      cases ends
  | kept keeps =>
      rw [keeps.transactions]
      exact member

/-- A begin that throws leaves the objects as they are. -/
theorem begin_error {modes : TransactionModes} {parent : Option TxnRef} {answer : BeginAnswer}
    {exception : Exception} (begin : op.begin? = some (modes, parent, answer))
    (executed : execute world op = some (.error exception, after)) :
    ∃ native, after = { world with native := native } := by
  obtain ⟨_, returned⟩ := execute_eq_some_iff.mp executed
  have ran : ∃ inner, LmdbEnvironment.beginTransaction modes parent answer world =
      some (inner, after) ∧ Except.error exception = inner.map Returned.transaction := by
    cases op with
    | beginTransaction | beginReadOnlyTransaction =>
        cases begin
        exact returning_cases returned
    | _ => cases begin
  obtain ⟨inner, began, equal⟩ := ran
  rcases beginTransaction_cases began with ⟨_, native, _, same, _⟩ | ⟨native, _, _, outcome⟩
  · exact ⟨native, same⟩
  · rcases outcome with ⟨_, _, _, same⟩ | ⟨_, _, _, _, same⟩ | ⟨_, _, rfl, _⟩
    · exact ⟨native, same⟩
    · exact ⟨_, same⟩
    · cases equal

/-- A begin that throws leaves no native transaction behind. -/
theorem begin_error_live (sound : RegistrySound world) {modes : TransactionModes}
    {parent : Option TxnRef} {answer : BeginAnswer} {exception : Exception}
    (begin : op.begin? = some (modes, parent, answer)) (registers : Registers world op)
    (executed : execute world op = some (.error exception, after)) {txn : IntPtr}
    (live : after.native.live txn = true) : world.native.live txn = true := by
  have later := sound.effect registers (effect_of_step ⟨_, executed⟩)
  have positive := Nat.ne_of_gt (later.nesting.sound.natives.txns txn live).1
  obtain ⟨t, holds⟩ := later.held txn live
  obtain ⟨native, rfl⟩ := begin_error begin executed
  have held : world.handle t = txn := holds
  exact held ▸ sound.nesting.tree.alive t (held ▸ positive)

end RegistrySound

/-- While readers begin under free ids and transactions end under their own, the
registry holds exactly the live transactions in every state, an end takes away
no other entry, and a begin that throws leaves nothing live behind. -/
theorem registry_exact {flags : LmdbEnvironmentOptions} {lastTxnId : Nat} {ops : List Op}
    {world : World runtime} (history : History Registers flags lastTxnId ops world) :
    RegistryExact world ∧
    (∀ op t ending after, op.ending? = some (t, ending) → Registers world op →
      Step world op after → ∀ entry ∈ world.environment.transactions.entries, entry.2 ≠ t →
      entry ∈ after.environment.transactions.entries) ∧
    ∀ op begin exception after, op.begin? = some begin → Registers world op →
      execute world op = some (.error exception, after) → ∀ txn,
      after.native.live txn = true → world.native.live txn = true := by
  have sound := RegistrySound.of_history history
  refine ⟨sound.exact, fun op t ending after ends registers transition entry member other => ?_,
    fun op begin exception after begins registers executed txn live => ?_⟩
  · exact sound.entries_kept ends registers transition member other
  · exact sound.begin_error_live begins registers executed live

/-- A writer and two readers of different snapshots, without thread-local
storage; the first reader was renewed to the snapshot that it already had. -/
def registeringHistory : List Op :=
  [.beginTransaction .none none ⟨.success, .success⟩,
    .beginReadOnlyTransaction .none none ⟨.success, .success⟩, .reset 1, .renew 1 .success,
    .commit 0 ⟨.success, true⟩, .beginReadOnlyTransaction .none none ⟨.success, .success⟩,
    .disposeTransaction 1]

/-- One of two readers is left in the registry. -/
theorem registry_exact_readers : ∃ world : World .ascii,
    History Registers .noThreadLocalStorage 0 registeringHistory world ∧
    world.environment.transactions.entries = [(1, 2)] ∧ RegistryExact world := by
  obtain ⟨world, history, entries⟩ := history_of_replay Registers .noThreadLocalStorage 0
    registeringHistory (fun world : World .ascii =>
      world.environment.transactions.entries = [(1, 2)]) (by decide +kernel)
  exact ⟨world, history, entries, (registry_exact history).1⟩

/-- Two readers of one snapshot, without thread-local storage. -/
def sharedSnapshot : List Op :=
  [.beginReadOnlyTransaction .none none ⟨.success, .success⟩,
    .beginReadOnlyTransaction .none none ⟨.success, .success⟩]

/-- The second reader of a snapshot is not registered, and its end takes the
entry of the first. -/
theorem registry_misses_reader : ∃ world after : World .ascii,
    History Always .noThreadLocalStorage 0 sharedSnapshot world ∧ ¬RegistryExact world ∧
    world.handle 0 ≠ 0 ∧ world.handle 1 ≠ 0 ∧ world.environment.transactions.values = [0] ∧
    Step world (.disposeTransaction 1) after ∧ after.handle 0 ≠ 0 ∧
    after.environment.transactions.values = [] := by
  obtain ⟨world, history, first, second, values, ended⟩ := history_of_replay Always
    .noThreadLocalStorage 0 sharedSnapshot (fun world : World .ascii => world.handle 0 ≠ 0 ∧
      world.handle 1 ≠ 0 ∧ world.environment.transactions.values = [0] ∧
      ((stepTo world (.disposeTransaction 1)).any fun after => decide (after.handle 0 ≠ 0 ∧
        after.environment.transactions.values = [])) = true) (by decide +kernel)
  obtain ⟨after, stepped, observed⟩ := (Option.any_eq_true _ _).mp ended
  have left := of_decide_eq_true observed
  refine ⟨world, after, history, fun exact => ?_, first, second, values, step_of_stepTo stepped,
    left.1, left.2⟩
  have listed := (exact.values 1).mpr second
  rw [values] at listed
  simp at listed

end KdSoftLmdb
