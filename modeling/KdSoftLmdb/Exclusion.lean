import KdSoftLmdb.Invariants.Reachable

/-!
# One database transaction at a time

`activeDbTxn` is meant to hold the live database transaction, and
`BeginDatabaseTransaction` refuses to begin another one while it is set. The
field is never set (`TransactionsSound.idle`), so the check never refuses
anything: it only works out when there is nothing to refuse.
-/

namespace KdSoftLmdb

variable {runtime : Runtime}

/-- A `DatabaseTransaction` that is not disposed. -/
def World.LiveDatabaseTransaction (world : World runtime) (t : TxnRef) : Prop :=
  world.isDatabaseTransaction t = true ∧ world.handle t ≠ 0

/-- No `DatabaseTransaction` is live. -/
def World.NoDatabaseTransaction (world : World runtime) : Prop :=
  ∀ t < world.txns.next, ¬world.LiveDatabaseTransaction t

instance (world : World runtime) (t : TxnRef) : Decidable (world.LiveDatabaseTransaction t) :=
  inferInstanceAs (Decidable (_ ∧ _))

instance (world : World runtime) : Decidable world.NoDatabaseTransaction :=
  inferInstanceAs (Decidable (∀ t < world.txns.next, ¬world.LiveDatabaseTransaction t))

/-- The call throws an `LmdbException` and leaves everything as it is, the calls
made to LMDB included. -/
def Refused (world : World runtime) (op : Op) : Prop :=
  ∃ errorCode message, execute world op = some (.error (.lmdb errorCode message), world)

/-- A database transaction is only begun while none is live; a begin that asks
for a read-only one is refused anyway. -/
def BeginsAlone (world : World runtime) : Op → Prop
  | .beginDatabaseTransaction modes _ _ => modes.isReadOnly = true ∨ world.NoDatabaseTransaction
  | _ => True

instance : ∀ (world : World runtime) (op : Op), Decidable (BeginsAlone world op) := by
  intro world op
  apply op.casesOn (motive := fun op => Decidable (BeginsAlone world op)) <;> intros <;>
    unfold BeginsAlone <;> infer_instance

section Step

variable {world after : World runtime}

/-- Without a `DatabaseTransaction` in progress none is live. -/
theorem TransactionsSound.none_live (sound : TransactionsSound world)
    (none : world.NoDatabaseTransaction) (t : TxnRef) : ¬world.LiveDatabaseTransaction t :=
  fun live => none t (sound.bound live.2) live

/-- Read-only modes are refused before anything else. -/
theorem refused_of_readOnly {modes : TransactionModes} {parent : Option TxnRef}
    (answer : DbRetCode) (valid : validParent world parent = true)
    (readOnly : modes.isReadOnly = true) :
    Refused world (.beginDatabaseTransaction modes parent answer) := by
  refine ⟨⟨0⟩, "An OpenDbTransaction must not be read-only", ?_⟩
  have typed : Op.typed world (.beginDatabaseTransaction modes parent answer) = true := valid
  rw [execute, if_pos typed, Op.body, returning, LmdbEnvironment.beginDatabaseTransaction,
    if_pos readOnly]
  rfl

/-- Every other begin goes on to LMDB. -/
theorem not_refused (sound : TransactionsSound world) {modes : TransactionModes}
    {parent : Option TxnRef} {answer : DbRetCode} (writable : modes.isReadOnly = false) :
    ¬Refused world (.beginDatabaseTransaction modes parent answer) := by
  rintro ⟨errorCode, message, executed⟩
  obtain ⟨_, returned⟩ := execute_eq_some_iff.mp executed
  obtain ⟨inner, ran, equal⟩ := returning_cases returned
  rw [beginDatabaseTransaction_eq parent answer writable sound.idle] at ran
  rcases Method.bind_eq_some_iff.mp ran with ⟨exception, threw, rfl⟩ | ⟨_, _, _, constructed⟩
  · rcases beginTransactionInternal_cases threw with
      ⟨_, native, same, unchanged, _, _, asked⟩ | ⟨_, _, _, absurd, _⟩
    · cases same
      rcases asked with rfl | more
      · cases equal
      · rw [congrArg (fun current : World runtime => current.native.calls.length) unchanged] at more
        exact Nat.succ_ne_self _ more.symm
    · cases absurd
  · cases constructed
    cases equal

/-- With LMDB's consent a begin returns a live database transaction. -/
theorem begun_of_accepted (sound : WorldSound world) {modes : TransactionModes}
    {parent : Option TxnRef} (valid : validParent world parent = true)
    (writable : modes.isReadOnly = false) (opened : world.environment.env ≠ 0)
    (accepted : world.native.canBegin (LmdbEnvironment.parentHandle world parent) modes = true) :
    ∃ after, execute world (.beginDatabaseTransaction modes parent .success) =
        some (.ok (.transaction world.txns.next), after) ∧
      after.LiveDatabaseTransaction world.txns.next := by
  have typed : Op.typed world (.beginDatabaseTransaction modes parent .success) = true := valid
  refine ⟨world.begun .databaseTransaction parent world.environment.transactions
    (world.native.beginning world.environment.env (LmdbEnvironment.parentHandle world parent)
      modes), ?_, ?_⟩
  · have ran := beginDatabaseTransaction_eq parent .success writable sound.transactions.idle
    rw [Method.bind_of_ok (beginTransactionInternal_of_accepted opened accepted)] at ran
    rw [execute, if_pos typed, Op.body, returning, Method.bind_of_ok ran]
    rfl
  · refine ⟨?_, ?_⟩
    · rw [World.isDatabaseTransaction, begun_txn, if_pos rfl]
      rfl
    · rw [World.handle, begun_txn, if_pos rfl]
      exact Nat.ne_of_gt sound.natives.positive.1

end Step

section Run

variable {world after : World runtime}

/-- Only a begin of its own makes a database transaction live. -/
theorem liveDatabaseTransaction_of_effect (sound : WorldSound world) {op : Op}
    (effect : Effect world op after) {t : TxnRef} (live : after.LiveDatabaseTransaction t) :
    world.LiveDatabaseTransaction t ∨ t = world.txns.next ∧
      ∃ modes parent, op = .beginDatabaseTransaction modes parent .success ∧
        modes.isReadOnly = false := by
  obtain ⟨kind, handle⟩ := live
  rcases transactions_of_effect sound.transactions.idle effect with
    ⟨_, modes, parent, registry, native, creates, _, _, rfl⟩ | same
  · rw [World.isDatabaseTransaction, begun_txn] at kind
    rw [World.handle, begun_txn] at handle
    by_cases new : t = world.txns.next
    · rw [if_pos new] at kind
      cases creates with
      | database writable => exact .inr ⟨new, modes, parent, rfl, writable⟩
      | plain => exact absurd (of_decide_eq_true kind) (kindOf_ne modes)
    · rw [if_neg new] at kind handle
      exact .inl ⟨kind, handle⟩
  · refine .inl ⟨?_, ?_⟩
    · rw [World.isDatabaseTransaction, (same.object t).kind] at kind
      exact kind
    · rcases (same.object t).txn with kept | cleared
      · rw [World.handle, kept] at handle
        exact handle
      · exact absurd cleared handle

/-- One allowed step keeps at most one database transaction live. -/
theorem exclusive_step (sound : WorldSound world)
    (exclusive : ∀ t u, world.LiveDatabaseTransaction t → world.LiveDatabaseTransaction u → t = u)
    {op : Op} (allowed : BeginsAlone world op) (effect : Effect world op after) (t u : TxnRef)
    (live : after.LiveDatabaseTransaction t) (liveOther : after.LiveDatabaseTransaction u) :
    t = u := by
  have alone {modes : TransactionModes} {parent : Option TxnRef}
      (begins : op = .beginDatabaseTransaction modes parent .success)
      (writable : modes.isReadOnly = false) (v : TxnRef) : ¬world.LiveDatabaseTransaction v := by
    subst begins
    rcases allowed with readOnly | none
    · rw [writable] at readOnly
      cases readOnly
    · exact sound.transactions.none_live none v
  rcases liveDatabaseTransaction_of_effect sound effect live with
    before | ⟨new, modes, parent, begins, writable⟩
  · rcases liveDatabaseTransaction_of_effect sound effect liveOther with
      beforeOther | ⟨_, modes, parent, begins, writable⟩
    · exact exclusive t u before beforeOther
    · exact absurd before (alone begins writable t)
  · rcases liveDatabaseTransaction_of_effect sound effect liveOther with
      beforeOther | ⟨newOther, _⟩
    · exact absurd beforeOther (alone begins writable u)
    · exact new.trans newOther.symm

private theorem exclusive_of_history {flags : LmdbEnvironmentOptions} {lastTxnId : Nat}
    {ops : List Op}
    (history : History BeginsAlone flags lastTxnId ops world) (t u : TxnRef)
    (live : world.LiveDatabaseTransaction t) (liveOther : world.LiveDatabaseTransaction u) :
    t = u := by
  have both := history.invariant
    (fun current => WorldSound current ∧ ∀ t u, current.LiveDatabaseTransaction t →
      current.LiveDatabaseTransaction u → t = u)
    ⟨.opened flags lastTxnId, fun _ _ live => (live.2 rfl).elim⟩
    fun held allowed transition => ⟨held.1.step transition,
      exclusive_step held.1 held.2 allowed (effect_of_step transition)⟩
  exact both.2 t u live liveOther

end Run

/-- While every begin finds no live database transaction, at most one is live in
every state. In any reachable state a begin is refused without effect, as the
live transaction demands, exactly when there is none or the modes are read-only;
and once none is live, LMDB's consent is all that a new one needs. -/
theorem databaseTransaction_exclusive {world : World runtime} (reachable : Reachable world) :
    (∀ flags lastTxnId ops, History BeginsAlone flags lastTxnId ops world → ∀ t u,
      world.LiveDatabaseTransaction t → world.LiveDatabaseTransaction u → t = u) ∧
    (∀ modes parent answer, validParent world parent = true →
      (((∃ t, world.LiveDatabaseTransaction t) →
          Refused world (.beginDatabaseTransaction modes parent answer)) ↔
        modes.isReadOnly = true ∨ world.NoDatabaseTransaction)) ∧
    ∀ modes parent, validParent world parent = true → modes.isReadOnly = false →
      world.NoDatabaseTransaction → world.environment.env ≠ 0 →
      world.native.canBegin (LmdbEnvironment.parentHandle world parent) modes = true →
      ∃ after, execute world (.beginDatabaseTransaction modes parent .success) =
          some (.ok (.transaction world.txns.next), after) ∧
        after.LiveDatabaseTransaction world.txns.next := by
  have sound := reachable_sound reachable
  refine ⟨fun _ _ _ => exclusive_of_history,
    fun modes parent answer valid => ⟨fun refused => ?_, ?_⟩, ?_⟩
  · cases writable : modes.isReadOnly with
    | true => exact .inl rfl
    | false =>
        refine .inr fun t _ live => ?_
        exact not_refused sound.transactions writable (refused ⟨t, live⟩)
  · rintro (readOnly | none) ⟨t, live⟩
    · exact refused_of_readOnly answer valid readOnly
    · exact absurd live (sound.transactions.none_live none t)
  · intro modes parent valid writable _ opened accepted
    exact begun_of_accepted sound valid writable opened accepted

/-- A database transaction, its end, and a second one after it. -/
def successiveBegins : List Op :=
  [.beginDatabaseTransaction .none none .success, .disposeTransaction 0,
    .beginDatabaseTransaction .none none .success]

/-- One such transaction after another, and one that LMDB refuses. -/
theorem databaseTransaction_exclusive_successive :
    ∃ world : World .ascii, History BeginsAlone .none 0 successiveBegins world ∧
      world.LiveDatabaseTransaction 1 ∧
      (∀ t u, world.LiveDatabaseTransaction t → world.LiveDatabaseTransaction u → t = u) ∧
      Refused world (.beginDatabaseTransaction .readOnly none .success) := by
  obtain ⟨world, history, live⟩ := history_of_replay BeginsAlone .none 0 successiveBegins
    (fun world : World .ascii => world.LiveDatabaseTransaction 1) (by decide)
  have exclusive := databaseTransaction_exclusive (reachable_of_history history)
  exact ⟨world, history, live, exclusive.1 _ _ _ history,
    (exclusive.2.1 .readOnly none .success rfl).mpr (.inl (by decide)) ⟨1, live⟩⟩

/-- A nested begin under the live database transaction is accepted: two are live. -/
theorem databaseTransaction_nested_accepted :
    ∃ world : World .ascii, History Always .none 0
        [.beginDatabaseTransaction .none none .success,
          .beginDatabaseTransaction .none (some 0) .success] world ∧
      world.LiveDatabaseTransaction 0 ∧ world.LiveDatabaseTransaction 1 :=
  history_of_replay Always .none 0 _ (fun world : World .ascii =>
    world.LiveDatabaseTransaction 0 ∧ world.LiveDatabaseTransaction 1) (by decide)

end KdSoftLmdb
