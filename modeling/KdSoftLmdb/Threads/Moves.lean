import KdSoftLmdb.Effects.Beginning
import KdSoftLmdb.Effects.Opening
import KdSoftLmdb.Threads.Frames

/-!
# What a step of a thread does

`Moves` lists what one step can do, to the shared state and to the thread itself.
Most steps only ask LMDB something or read a field; these are the cases of
`Follows`.
-/

namespace KdSoftLmdb

variable {runtime : Runtime}

open LmdbEnvironment (BeginAnswer parentHandle)
open Transaction (CommitAnswer)

/-- The native transaction that a begin in progress holds. -/
def Frame.began? : Frame → Option IntPtr
  | mdbTxnId txn .. | options txn .. | tryAdd txn .. | refused txn _ | databaseTxnId txn _ =>
      some txn
  | _ => none

/-- The transaction that is being ended and whose callback has not run yet. -/
def Frame.closes? : Frame → Option TxnRef
  | endId t .. | nativeEnd t .. | release t .. | callback t .. => some t
  | _ => none

/-- The name that an open has checked and for which it has no database object yet. -/
def Frame.opens? : Frame → Option String
  | openHandle _ name | mdbDbiOpen _ name _ | mdbTxnEnv _ name _ _ | mdbSetCompare _ name _ _ _
  | mdbSetDupsort _ name _ _ _ | addNew _ name _ _ => some name
  | _ => none

/-- The first frame of a call, with what its type check says. -/
inductive Enters (world : World runtime) : Op → Frame → Prop where
  | begin {op modes parent answer} (quiet : op.ending? = none) :
      Enters world op (.begin modes parent answer)
  | beginDatabase {op modes parent answer} (quiet : op.ending? = none) :
      Enters world op (.beginDatabase modes parent answer)
  | commit {t answer} (known : t < world.txns.next) :
      Enters world (.commit t answer) (.commit t answer)
  | dispose {t} (known : t < world.txns.next) :
      Enters world (.disposeTransaction t) (.exchange t .abort)
  | nameCheck {op call} (quiet : op.ending? = none) (known : call.t < world.txns.next)
      (database : world.isDatabaseTransaction call.t = true) : Enters world op (.nameCheck call)

/-- Every call enters in one of these ways. -/
theorem enters_of_enter {world : World runtime} {op : Op} {frame : Frame}
    (entered : (machine runtime).enter world op = some frame) : Enters world op frame := by
  dsimp only [machine] at entered
  split at entered
  · rename_i typed
    cases op
    case openDatabase | openMultiValueDatabase | openFixedMultiValueDatabase =>
      obtain ⟨_, _, rfl⟩ := Option.map_eq_some_iff.mp entered
      rw [Op.typed, Bool.and_eq_true] at typed
      exact .nameCheck rfl (of_decide_eq_true typed.1) typed.2
    case commit =>
      cases entered
      exact .commit (of_decide_eq_true typed)
    case disposeTransaction =>
      cases entered
      exact .dispose (of_decide_eq_true typed)
    case beginDatabaseTransaction =>
      cases entered
      exact .beginDatabase rfl
    case beginTransaction | beginReadOnlyTransaction =>
      cases entered
      exact .begin rfl
    all_goals cases entered
  · cases entered

/-- The steps that lead to another frame and change nothing that the wrapper's
objects or LMDB's transactions hold. -/
inductive Follows (world : World runtime) : Frame → Frame → Prop where
  | begin {modes parent answer} : Follows world (.begin modes parent answer)
      (.mdbTxnBegin (parentHandle world parent) modes parent answer)
  | readerId {txn modes parent answer} (readOnly : modes.isReadOnly = true) :
      Follows world (.mdbTxnId txn modes parent answer)
        (.options txn (world.native.txns.obj txn).id parent answer.getFlags)
  | writerId {txn modes parent answer} (writable : modes.isReadOnly = false) :
      Follows world (.mdbTxnId txn modes parent answer)
        (.tryAdd txn (world.native.txns.obj txn).id .transaction parent true)
  | options {txn txnId parent} : Follows world (.options txn txnId parent .success)
      (.tryAdd txn txnId .readOnlyTransaction parent
        (!world.native.flags.hasFlag .noThreadLocalStorage))
  | taken {txn txnId kind parent}
      (taken : world.environment.transactions.containsKey txnId = true) :
      Follows world (.tryAdd txn txnId kind parent true) (.refused txn txnId)
  | beginDatabase {modes parent answer} (writable : modes.isReadOnly = false)
      (idle : world.environment.activeDbTxn = none) :
      Follows world (.beginDatabase modes parent answer)
        (.databaseTxnBegin (parentHandle world parent) modes parent answer)
  | commit {t answer} (live : world.handle t ≠ 0) :
      Follows world (.commit t answer) (.exchange t (.commit answer))
  | endId {t handle ending} : Follows world (.endId t handle ending)
      (.nativeEnd t handle (world.native.txns.obj handle).id ending)
  | nameCheck {call name} (named : call.name = some name)
      (free : world.environment.databases.containsKey name = false) :
      Follows world (.nameCheck call) (.openHandle call name)
  | openHandle {call name} (live : world.handle call.t ≠ 0) :
      Follows world (.openHandle call name) (.mdbDbiOpen call name (world.handle call.t))
  | mdbDbiOpen {call name handle dbi} :
      Follows world (.mdbDbiOpen call name handle) (.mdbTxnEnv call name handle dbi)
  | mdbTxnEnv {call name handle dbi} : Follows world (.mdbTxnEnv call name handle dbi)
      (.mdbSetCompare call name handle dbi envHandle)
  | mdbSetCompare {call name handle dbi env} :
      Follows world (.mdbSetCompare call name handle dbi env)
        (call.afterCompare name handle dbi env)
  | compareRejected {call name handle dbi env ret} (rejected : ret ≠ .success) :
      Follows world (.mdbSetCompare call name handle dbi env) (.mdbDbiClose call dbi env ret)
  | mdbSetDupsort {call name handle dbi env} :
      Follows world (.mdbSetDupsort call name handle dbi env) (.addNew call name dbi env)
  | dupsortRejected {call name handle dbi env ret} (rejected : ret ≠ .success) :
      Follows world (.mdbSetDupsort call name handle dbi env) (.mdbDbiClose call dbi env ret)

/-- LMDB's side after `mdb_txn_begin` succeeded under the handle `parentTxn`. -/
structure BeginsUnder (native : Native) (parentTxn : IntPtr) (modes : TransactionModes)
    (after : Native) : Prop where
  accepted : native.canBegin parentTxn modes = true
  state : ({ native with txns := native.txns.alloc (native.begun parentTxn modes) }
    : Native).Unchanged after

/-- What one step of a frame does. -/
inductive Moves (world : World runtime) :
    Frame → Progress Frame (Except Exception Returned) → World runtime → Prop where
  | follows {frame next native} (follows : Follows world frame next)
      (same : native.txns = world.native.txns) :
      Moves world frame (.more next) { world with native := native }
  | failed {frame exception native} (fails : frame.closes? = none)
      (same : native.txns = world.native.txns) :
      Moves world frame (.finish (.error exception)) { world with native := native }
  | closed {call dbi env ret native} (same : native.txns = world.native.txns) :
      Moves world (.mdbDbiClose call dbi env ret) (.finish (.ok .nothing))
        { world with native := native }
  | begun {parentTxn modes parent answer native}
      (begins : BeginsUnder world.native parentTxn modes native) :
      Moves world (.mdbTxnBegin parentTxn modes parent answer)
        (.more (.mdbTxnId world.native.txns.next modes parent answer))
        { world with native := native }
  | databaseBegun {parentTxn modes parent answer native}
      (begins : BeginsUnder world.native parentTxn modes native) :
      Moves world (.databaseTxnBegin parentTxn modes parent answer)
        (.more (.databaseTxnId world.native.txns.next parent)) { world with native := native }
  | constructed {txn txnId kind parent checkConcurrent}
      (free : checkConcurrent = true → world.environment.transactions.containsKey txnId = false) :
      Moves world (.tryAdd txn txnId kind parent checkConcurrent)
        (.finish (.ok (.transaction world.txns.next)))
        (LmdbEnvironment.construct kind txn parent
          (LmdbEnvironment.tryAdd txnId world.txns.next world).2).2
  | databaseConstructed {txn parent native} (same : native.txns = world.native.txns) :
      Moves world (.databaseTxnId txn parent) (.finish (.ok (.transaction world.txns.next)))
        (LmdbEnvironment.construct .databaseTransaction txn parent
          { world with native := native }).2
  | refused {txn txnId exception} : Moves world (.refused txn txnId) (.finish (.error exception))
      (world.onNative (Native.mdbTxnAbort txn))
  | unheld {t ending} (disposed : world.handle t = 0) :
      Moves world (.exchange t ending) (.finish (.ok .nothing)) (Transaction.exchange t world).2
  | exchanged {t ending} (live : world.handle t ≠ 0) :
      Moves world (.exchange t ending) (.more (.endId t (world.handle t) ending))
        (Transaction.exchange t world).2
  | ended {t handle txnId ending} : Moves world (.nativeEnd t handle txnId ending)
      (.more (.release t txnId ending)) (world.onNative (ending.native handle))
  | released {t txnId ending} : Moves world (.release t txnId ending)
      (.more (.callback t txnId ending))
      (Transaction.releaseManagedResources t ending.forCommit world)
  | aborted {t txnId} : Moves world (.callback t txnId .abort) (.finish (.ok .nothing))
      (Transaction.invokeDisposed t txnId world)
  | commitFailed {t txnId answer exception} (failed : answer.ret ≠ .success) :
      Moves world (.callback t txnId (.commit answer)) (.finish (.error exception))
        (Transaction.invokeDisposed t txnId world)
  | commitSucceeded {t txnId answer} (succeeded : answer.ret = .success) :
      Moves world (.callback t txnId (.commit answer)) (.more (.committed t))
        (Transaction.invokeDisposed t txnId world)
  | committed {t result after} (returned : Transaction.committed t world = some (result, after)) :
      Moves world (.committed t) (.finish (result.map fun _ => .nothing)) after
  | added {call name dbi env} : Moves world (.addNew call name dbi env)
      (.finish (.ok (.database world.dbs.next)))
      { world with
        dbs := world.dbs.alloc
          ⟨call.kind, dbi, env, name, .newDatabaseDisposed call.t, call.t⟩
        txns := world.txns.modify call.t fun transaction =>
          { transaction with newDatabases := transaction.newDatabases ++ [world.dbs.next] } }

section Native

variable {native after : Native}

private theorem mdbDbiOpen_txns {txn : IntPtr} {name : List UInt8} {flags : BitVec 32}
    {ret : DbRetCode}
    {slot : Nat} {value : DbRetCode × Nat}
    (returned : native.mdbDbiOpen txn name flags ret slot = some (value, after)) :
    after.txns = native.txns := by
  unfold Native.mdbDbiOpen at returned
  dsimp only at returned
  repeat' split at returned
  all_goals cases returned
  all_goals rfl

private theorem setOrder_txns {function : LibFunc} {change : NativeDbi → NativeDbi} {txn : IntPtr}
    {dbi : Nat} {ret : DbRetCode} :
    (native.setOrder function change txn dbi ret).2.txns = native.txns := by
  unfold Native.setOrder
  dsimp only
  split <;> rfl

/-- How `mdb_txn_begin` ends. -/
theorem mdbTxnBegin_cases {env parentTxn txn : IntPtr} {modes : TransactionModes}
    {ret code : DbRetCode}
    (returned : native.mdbTxnBegin env parentTxn modes ret = some ((code, txn), after)) :
    code = ret ∧ (ret = .success ∧ txn = native.txns.next ∧
        BeginsUnder native parentTxn modes after ∨
      ret ≠ .success ∧ after.txns = native.txns) := by
  unfold Native.mdbTxnBegin at returned
  dsimp only at returned
  split at returned
  · rename_i succeeded
    split at returned
    · rename_i accepted
      cases returned
      exact ⟨rfl, .inl ⟨succeeded, rfl, accepted, rfl⟩⟩
    · cases returned
  · rename_i failed
    cases returned
    exact ⟨rfl, .inr ⟨failed, rfl⟩⟩

end Native

section Moves

variable {world after : World runtime}

private theorem checkRetCode_cases {ret : DbRetCode} {result : Except Exception Unit}
    (checked : checkRetCode ret world = some (result, after)) :
    after = world ∧ (ret = .success ∧ result = .ok () ∨
      ret ≠ .success ∧ ∃ exception, result = .error exception) := by
  by_cases succeeded : ret = .success
  · rw [succeeded, checkRetCode_success] at checked
    cases checked
    exact ⟨rfl, .inl ⟨succeeded, rfl⟩⟩
  · obtain ⟨message, threw⟩ := checkRetCode_failed succeeded world
    cases checked.symm.trans threw
    exact ⟨rfl, .inr ⟨succeeded, _, rfl⟩⟩

/-- A sequence that starts with a check of a code. -/
theorem checked_cases {α : Type} {ret : DbRetCode} {next : Unit → Call runtime α}
    {result : Except Exception α}
    (returned : (checkRetCode ret >>= next) world = some (result, after)) :
    ret = .success ∧ next () world = some (result, after) ∨
      ret ≠ .success ∧ after = world ∧ ∃ exception, result = .error exception := by
  rcases Method.bind_eq_some_iff.mp returned with
    ⟨exception, threw, rfl⟩ | ⟨_, middle, checked, rest⟩
  · obtain ⟨rfl, ⟨_, absurd⟩ | ⟨failed, _⟩⟩ := checkRetCode_cases threw
    · cases absurd
    · exact .inr ⟨failed, rfl, exception, rfl⟩
  · obtain ⟨rfl, ⟨succeeded, _⟩ | ⟨_, _, absurd⟩⟩ := checkRetCode_cases checked
    · exact .inl ⟨succeeded, rest⟩
    · cases absurd

private theorem setComparer_after
    {set : Comparer → IntPtr → Nat → DbRetCode → Native → DbRetCode × Native}
    {holder : Option CompareHolder} {handle dbi : Nat} {answer : DbRetCode}
    {result : Except Exception DbRetCode}
    (keeps : ∀ comparer native, (set comparer handle dbi answer native).2.txns = native.txns)
    (returned : setComparer set holder handle dbi answer world = some (result, after)) :
    ∃ ret native, result = .ok ret ∧ after = { world with native := native } ∧
      native.txns = world.native.txns := by
  rw [setComparer] at returned
  cases registered : holder.bind CompareHolder.registered with
  | none =>
      simp only [registered] at returned
      cases returned
      exact ⟨_, world.native, rfl, rfl, rfl⟩
  | some comparer =>
      simp only [registered] at returned
      cases returned
      exact ⟨_, _, rfl, rfl, keeps _ _⟩

variable {outcome : Except Exception (Progress Frame Returned)}

/-- A step that only threw. -/
theorem Moves.threw {frame : Frame} {exception : Exception} (fails : frame.closes? = none) :
    Moves world frame (Frame.settle (.error exception)) world :=
  .failed fails rfl

/-- A native begin that two methods make, with the frame that follows it. -/
theorem mdbTxnBegin_moves {parentTxn : IntPtr} {modes : TransactionModes} {ret : DbRetCode}
    (next : IntPtr → Progress Frame Returned)
    (returned : (do
      let handle ← LmdbEnvironment.checkDisposed
      let (ret, txn) ← .await (World.awaitNative (Native.mdbTxnBegin handle parentTxn modes ret))
      checkRetCode ret
      pure (next txn) : Call runtime (Progress Frame Returned)) world = some (outcome, after)) :
    (∃ exception native, outcome = .error exception ∧ after = { world with native := native } ∧
      native.txns = world.native.txns) ∨
    ∃ native, outcome = .ok (next world.native.txns.next) ∧
      after = { world with native := native } ∧ BeginsUnder world.native parentTxn modes native := by
  by_cases shut : world.environment.env = 0
  · rw [Method.bind_of_error (envCheck_of_shut shut)] at returned
    cases returned
    exact .inl ⟨_, world.native, rfl, rfl, rfl⟩
  rw [Method.bind_of_ok (envCheck_of_open shut), Method.bind_apply, Method.await_apply,
    World.awaitNative] at returned
  cases began : world.native.mdbTxnBegin world.environment.env parentTxn modes ret with
  | none =>
      simp only [began] at returned
      cases returned
  | some value =>
      obtain ⟨⟨code, txn⟩, native⟩ := value
      simp only [began, Option.map_some] at returned
      obtain ⟨rfl, ⟨rfl, rfl, begins⟩ | ⟨failed, same⟩⟩ := mdbTxnBegin_cases began
      · cases returned
        exact .inr ⟨native, rfl, rfl, begins⟩
      · rcases checked_cases returned with ⟨succeeded, _⟩ | ⟨_, rfl, exception, rfl⟩
        · exact absurd succeeded failed
        · exact .inl ⟨exception, native, rfl, rfl, same⟩

private theorem options_moves {txn txnId : Nat} {parent : Option TxnRef} {answer : DbRetCode}
    (returned : (Frame.options txn txnId parent answer).body world = some (outcome, after)) :
    Moves world (.options txn txnId parent answer) (Frame.settle outcome) after := by
  rw [Frame.body] at returned
  by_cases shut : world.environment.env = 0
  · rw [LmdbEnvironment.getOptions, Method.bind_assoc, Method.bind_of_error (envCheck_of_shut shut)]
      at returned
    cases returned
    exact .threw rfl
  rw [Method.bind_apply, getOptions_eq world shut] at returned
  by_cases succeeded : answer = .success
  · subst succeeded
    rw [Method.bind_of_ok (checkRetCode_success _)] at returned
    cases returned
    exact .follows .options rfl
  · obtain ⟨message, threw⟩ := checkRetCode_failed succeeded { world with
      native := world.native.record .mdbEnvGetFlags [.env world.environment.env] }
    rw [Method.bind_of_error threw] at returned
    cases returned
    exact .failed rfl rfl

private theorem tryAdd_moves {txn txnId : Nat} {kind : TransactionKind} {parent : Option TxnRef}
    {checkConcurrent : Bool}
    (returned : (Frame.tryAdd txn txnId kind parent checkConcurrent).body world =
      some (outcome, after)) :
    Moves world (.tryAdd txn txnId kind parent checkConcurrent) (Frame.settle outcome) after := by
  rw [Frame.body, Method.get_bind, Method.call_bind, LmdbEnvironment.tryAdd,
    Dictionary.tryAdd_fst] at returned
  cases taken : world.environment.transactions.containsKey txnId <;> cases checkConcurrent
  case true.true =>
    simp only [taken, Bool.not_true, Bool.not_false, Bool.and_self, if_true,
      Dictionary.tryAdd_of_taken _ taken] at returned
    cases returned
    exact .follows (.taken taken) rfl
  all_goals
    simp only [taken, Bool.not_true, Bool.not_false, Bool.and_true, Bool.and_false,
      Bool.false_eq_true, if_false] at returned
    cases returned
    exact .constructed (by simp [taken])

private theorem mdbDbiOpen_moves {call : OpenCall} {name : String} {handle : IntPtr}
    (returned : (Frame.mdbDbiOpen call name handle).body world = some (outcome, after)) :
    Moves world (.mdbDbiOpen call name handle) (Frame.settle outcome) after := by
  rw [Frame.body, Method.bind_apply, Method.await_apply, World.awaitNative] at returned
  cases opened : world.native.mdbDbiOpen handle (runtime.marshal name) call.options call.answer.ret
      call.answer.slot with
  | none =>
      simp only [opened] at returned
      cases returned
  | some value =>
      obtain ⟨⟨ret, dbi⟩, native⟩ := value
      have same := mdbDbiOpen_txns opened
      simp only [opened, Option.map_some] at returned
      rcases checked_cases returned with ⟨_, rest⟩ | ⟨_, rfl, exception, rfl⟩
      · cases rest
        exact .follows .mdbDbiOpen same
      · exact .failed rfl same

/-- Setting a comparison function, with the frames after a success and a failure. -/
theorem setComparer_moves {frame taken : Frame} {refused : DbRetCode → Frame}
    {set : Comparer → IntPtr → Nat → DbRetCode → Native → DbRetCode × Native}
    {holder : Option CompareHolder} {handle dbi : Nat} {answer : DbRetCode}
    (keeps : ∀ comparer native, (set comparer handle dbi answer native).2.txns = native.txns)
    (follows : Follows world frame taken)
    (rejected : ∀ ret, ret ≠ .success → Follows world frame (refused ret))
    (returned : (do
      let ret ← setComparer set holder handle dbi answer
      if ret ≠ .success then pure (.more (refused ret)) else pure (.more taken)
        : Call runtime (Progress Frame Returned)) world = some (outcome, after)) :
    Moves world frame (Frame.settle outcome) after := by
  rcases Method.bind_eq_some_iff.mp returned with
    ⟨exception, threw, rfl⟩ | ⟨ret, middle, set, rest⟩
  · obtain ⟨_, _, absurd, _⟩ := setComparer_after keeps threw
    cases absurd
  · obtain ⟨_, native, _, rfl, same⟩ := setComparer_after keeps set
    split at rest
    · rename_i failed
      cases rest
      exact .follows (rejected ret failed) same
    · cases rest
      exact .follows follows same

private theorem nameCheck_moves {call : OpenCall}
    (returned : (Frame.nameCheck call).body world = some (outcome, after)) :
    Moves world (.nameCheck call) (Frame.settle outcome) after := by
  rw [Frame.body, Method.get_bind] at returned
  cases named : call.name with
  | none =>
      simp only [named] at returned
      cases returned
      exact .threw rfl
  | some name =>
      simp only [named] at returned
      cases taken : world.environment.databases.containsKey name with
      | true =>
          rw [if_pos taken] at returned
          cases returned
          exact .threw rfl
      | false =>
          rw [if_neg (by simp [taken])] at returned
          cases returned
          exact .follows (.nameCheck named taken) rfl

private theorem callback_moves {t txnId : Nat} {ending : Ending}
    (returned : (Frame.callback t txnId ending).body world = some (outcome, after)) :
    Moves world (.callback t txnId ending) (Frame.settle outcome) after := by
  cases ending with
  | abort =>
      cases returned
      exact .aborted
  | commit answer =>
      rw [Frame.body, Method.modify_bind] at returned
      rcases checked_cases returned with ⟨succeeded, rest⟩ | ⟨failed, rfl, exception, rfl⟩
      · cases rest
        exact .commitSucceeded succeeded
      · exact .commitFailed failed

/-- Every step of a frame is one of the moves. -/
theorem moves_of_body {frame : Frame} (returned : frame.body world = some (outcome, after)) :
    Moves world frame (Frame.settle outcome) after := by
  cases frame
  case begin =>
    cases returned
    exact .follows .begin rfl
  case mdbTxnBegin parentTxn modes parent answer =>
    rw [Frame.body] at returned
    rcases mdbTxnBegin_moves (fun txn => .more (.mdbTxnId txn modes parent answer)) returned with
      ⟨exception, native, rfl, rfl, same⟩ | ⟨native, rfl, rfl, begins⟩
    · exact .failed rfl same
    · exact .begun begins
  case mdbTxnId =>
    rw [Frame.body, Method.call_bind] at returned
    split at returned
    · rename_i readOnly
      cases returned
      exact .follows (.readerId readOnly) rfl
    · rename_i writable
      cases returned
      exact .follows (.writerId (by simpa using writable)) rfl
  case options => exact options_moves returned
  case tryAdd => exact tryAdd_moves returned
  case refused =>
    cases returned
    exact .refused
  case beginDatabase =>
    rw [Frame.body] at returned
    split at returned
    · cases returned
      exact .threw rfl
    · rename_i writable
      rw [Method.get_bind] at returned
      split at returned
      · cases returned
        exact .threw rfl
      · rename_i idle
        cases returned
        exact .follows (.beginDatabase (by simpa using writable) (by simpa using idle)) rfl
  case databaseTxnBegin parentTxn modes parent answer =>
    rw [Frame.body] at returned
    rcases mdbTxnBegin_moves (fun txn => .more (.databaseTxnId txn parent)) returned with
      ⟨exception, native, rfl, rfl, same⟩ | ⟨native, rfl, rfl, begins⟩
    · exact .failed rfl same
    · exact .databaseBegun begins
  case databaseTxnId =>
    cases returned
    exact .databaseConstructed rfl
  case commit t answer =>
    rw [Frame.body] at returned
    rcases checkDisposed_cases returned with ⟨_, rfl, _, rfl⟩ | ⟨disposed, returned⟩
    · exact .threw rfl
    · cases returned
      exact .follows (.commit disposed) rfl
  case exchange t ending =>
    have handle : (Transaction.exchange t world).1 = world.handle t := rfl
    rw [Frame.body, Method.call_bind, handle] at returned
    by_cases disposed : world.handle t = 0
    · rw [if_neg (not_not_intro disposed)] at returned
      cases returned
      exact .unheld disposed
    · rw [if_pos disposed] at returned
      cases returned
      exact .exchanged disposed
  case endId =>
    cases returned
    exact .follows .endId rfl
  case nativeEnd =>
    cases returned
    exact .ended
  case release =>
    cases returned
    exact .released
  case callback => exact callback_moves returned
  case committed t =>
    rcases Method.bind_eq_some_iff.mp returned with
      ⟨exception, threw, rfl⟩ | ⟨_, middle, promoted, rest⟩
    · exact .committed threw
    · cases rest
      exact .committed promoted
  case nameCheck => exact nameCheck_moves returned
  case openHandle call name =>
    rw [Frame.body] at returned
    rcases checkDisposed_cases returned with ⟨_, rfl, _, rfl⟩ | ⟨disposed, returned⟩
    · exact .threw rfl
    · cases returned
      exact .follows (.openHandle disposed) rfl
  case mdbDbiOpen => exact mdbDbiOpen_moves returned
  case mdbTxnEnv =>
    cases returned
    exact .follows .mdbTxnEnv rfl
  case mdbSetCompare =>
    exact setComparer_moves (fun _ _ => setOrder_txns) .mdbSetCompare
      (fun _ failed => .compareRejected failed) returned
  case mdbSetDupsort =>
    exact setComparer_moves (fun _ _ => setOrder_txns) .mdbSetDupsort
      (fun _ failed => .dupsortRejected failed) returned
  case mdbDbiClose =>
    rcases checked_cases returned with ⟨succeeded, rest⟩ | ⟨_, rfl, exception, rfl⟩
    · cases rest
      exact .closed rfl
    · exact .failed rfl rfl
  case addNew =>
    cases returned
    exact .added

/-- Every step of a thread is one of the moves. -/
theorem moves_of_advance {frame : Frame} {progress : Progress Frame (Except Exception Returned)}
    (stepped : (machine runtime).advance frame world = some (progress, after)) :
    Moves world frame progress after := by
  obtain ⟨⟨outcome, _⟩, returned, equal⟩ := Option.map_eq_some_iff.mp stepped
  cases equal
  exact moves_of_body returned

end Moves

end KdSoftLmdb
