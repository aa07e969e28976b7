import KdSoftLmdb.Threads.Persists

/-!
# Begins that overlap other calls

Between the native begin and `TryAdd` other threads may begin, commit and abort.
The entry that `TryAdd` runs into belongs to a transaction that is still
undisposed, or whose end has not reached its callback yet: the registry holds no
other entries. That is the invariant of this module, together with what the
threads know while they are in a call.
-/

namespace KdSoftLmdb

variable {runtime : Runtime} {τ : Type}

/-- The id of the native transaction that an object was constructed over. -/
def World.nativeId (world : World runtime) (t : TxnRef) : Nat :=
  (world.native.txns.obj (world.nativeTxn t)).id

/-- A transaction that `BeginTransaction` has registered, or would have, is
undisposed, or its end has not come to the callback yet. -/
def Outstanding (pool : Threads τ runtime) (t : TxnRef) : Prop :=
  (pool.shared.handle t ≠ 0 ∨ pool.Has Frame.closes? t) ∧
    pool.shared.isDatabaseTransaction t = false

instance [Fintype τ] (pool : Threads τ runtime) (t : TxnRef) : Decidable (Outstanding pool t) :=
  inferInstanceAs (Decidable (_ ∧ _))

/-- LMDB began the transaction and has not ended it. -/
structure World.Live (world : World runtime) (txn : IntPtr) : Prop where
  positive : txn ≠ 0
  known : txn < world.native.txns.next
  live : world.native.live txn = true

/-- What the condition asks of the step of a frame: the flags of a reader can be
read; an outstanding transaction has another id than one that is registered and
must not share its id; and no transaction is ended under a begin in progress. -/
def Frame.Undisturbed (pool : Threads τ runtime) : Frame → Prop
  | options _ _ _ answer => answer = .success
  | tryAdd txn _ _ _ checkConcurrent => checkConcurrent = true →
      ∀ t < pool.shared.txns.next, Outstanding pool t →
        pool.shared.nativeId t ≠ (pool.shared.native.txns.obj txn).id
  | nativeEnd _ handle _ _ => ∀ other, ∀ txn ∈ (pool.frames other).bind Frame.began?,
      handle ∉ (pool.shared.native.txns.obj txn).chain
  | _ => True

/-- What a thread knows in a frame. No thread is ever refused. -/
def Frame.Sound (frame : Frame) (world : World runtime) : Prop :=
  match frame with
  | mdbTxnId txn .. | databaseTxnId txn _ => world.Live txn
  | options txn txnId _ _ => world.Live txn ∧ txnId = (world.native.txns.obj txn).id
  | tryAdd txn txnId kind _ _ =>
      (world.Live txn ∧ txnId = (world.native.txns.obj txn).id) ∧ kind ≠ .databaseTransaction
  | refused .. => False
  | commit t _ | exchange t _ => t < world.txns.next
  | endId t handle _ => t < world.txns.next ∧ handle = world.nativeTxn t
  | nativeEnd t handle txnId _ =>
      (t < world.txns.next ∧ handle = world.nativeTxn t) ∧ txnId = world.nativeId t
  | release t txnId _ | callback t txnId _ => t < world.txns.next ∧ txnId = world.nativeId t
  | _ => True

/-- The registry has entries of outstanding transactions only. -/
structure RegisteringSound (pool : Threads τ runtime) : Prop where
  opened : pool.shared.environment.env ≠ 0
  bound : ∀ t < pool.shared.txns.next, pool.shared.nativeTxn t < pool.shared.native.txns.next
  registered : ∀ entry ∈ pool.shared.environment.transactions.entries,
    entry.2 < pool.shared.txns.next ∧ pool.shared.nativeId entry.2 = entry.1 ∧
      Outstanding pool entry.2
  frames : pool.Everywhere Frame.Sound

section Steps

variable {world after : World runtime} {frame next : Frame}
  {progress : Progress Frame (Except Exception Returned)}

private theorem Persists.nativeId (persists : Persists world after) {t : TxnRef}
    (known : t < world.txns.next) (bound : world.nativeTxn t < world.native.txns.next) :
    after.nativeId t = world.nativeId t := by
  rw [World.nativeId, (persists.object t known).1, (persists.native _ bound).id]
  rfl

/-- An undisposed transaction stays so, or its end gets under way. -/
theorem handle_of_advance (stepped : (machine runtime).advance frame world = some (progress, after))
    {t : TxnRef} (known : t < world.txns.next) (undisposed : world.handle t ≠ 0) :
    after.handle t ≠ 0 ∨ progress.frame?.bind Frame.closes? = some t := by
  have hands := hands_of_advance stepped
  generalize progress.frame? = frame? at hands
  cases hands with
  | keeps same | refused same | ended same =>
      rw [same.handle t]
      exact .inl undisposed
  | begun objects =>
      rw [World.handle, objects]
      exact .inl undisposed
  | constructed _ objects =>
      rw [World.handle, objects, Heap.alloc_obj_of_ne _ _ (Nat.ne_of_lt known)]
      exact .inl undisposed
  | @exchanged next u _ live objects _ _ carries =>
      by_cases same : t = u
      · subst same
        refine .inr ?_
        rw [Option.bind_some]
        have ends := carries.2
        unfold Frame.ends? at ends
        split at ends <;> cases ends <;> rfl
      · rw [World.handle, objects, Heap.modify_obj_of_ne _ _ same]
        exact .inl undisposed

/-- An end that is under way stays so until its callback. -/
theorem closes_of_advance (stepped : (machine runtime).advance frame world = some (progress, after))
    {t : TxnRef} (closes : frame.closes? = some t) :
    progress.frame?.bind Frame.closes? = some t ∨ ∃ txnId ending, frame = .callback t txnId ending := by
  cases moves_of_advance stepped with
  | follows follows =>
      cases follows
      case endId => exact .inl closes
      all_goals cases closes
  | failed fails => cases fails.symm.trans closes
  | ended | released => exact .inl closes
  | aborted | commitFailed | commitSucceeded =>
      cases closes
      exact .inr ⟨_, _, rfl⟩
  | _ => cases closes

/-- A live native transaction stays live unless the step ends it or one it is nested in. -/
theorem live_of_advance (stepped : (machine runtime).advance frame world = some (progress, after))
    {txn : IntPtr} (live : world.Live txn)
    (outside : ∀ root, frame.releases? = some root → world.native.within txn root = false) :
    after.Live txn := by
  refine ⟨live.positive, Nat.lt_of_lt_of_le live.known (persists_of_advance stepped).natives, ?_⟩
  have of_eq (same : after.native.txns = world.native.txns) : after.native.live txn = true := by
    rw [Native.live, same]
    exact live.live
  have of_ended (ending : Ending) {root : IntPtr} (releases : frame.releases? = some root) :
      (ending.native root world.native).live txn = true := by
    rw [Native.live_ended, live.live, outside root releases]
    rfl
  have unchanged {t : TxnRef} {txnId : Nat} :
      (Transaction.invokeDisposed t txnId world).native.live txn = true := by
    rw [invokeDisposed_native]
    exact live.live
  cases moves_of_advance stepped with
  | follows _ same | failed _ same | closed same | databaseConstructed same => exact of_eq same
  | begun begins | databaseBegun begins =>
      rw [Native.live, begins.state.txns, Heap.alloc_obj_of_ne _ _ (Nat.ne_of_lt live.known)]
      exact live.live
  | refused => exact of_ended .abort rfl
  | ended => exact of_ended _ rfl
  | constructed | unheld | exchanged | added => exact live.live
  | released => exact of_eq (by rw [releaseManagedResources_eq])
  | aborted | commitFailed | commitSucceeded => exact unchanged
  | committed returned => exact of_eq (by rw [(committed_keeps returned).1])

/-- The callback of a plain transaction removes the entry under its id. -/
theorem mem_invokeDisposed {t : TxnRef} {txnId : Nat} {entry : Nat × TxnRef}
    (member : entry ∈
      (Transaction.invokeDisposed t txnId world).environment.transactions.entries) :
    entry ∈ world.environment.transactions.entries ∧
      (world.isDatabaseTransaction t = false → entry.1 ≠ txnId) := by
  unfold Transaction.invokeDisposed at member
  split at member
  · rename_i database
    refine ⟨member, fun plain => ?_⟩
    rw [World.isDatabaseTransaction, database] at plain
    cases plain
  all_goals
    obtain ⟨before, other⟩ := Dictionary.mem_remove.mp member
    exact ⟨before, fun _ => other⟩

/-- An entry of the registry was there before, and is not that of the callback, or
it is that of the transaction that was constructed. -/
theorem entry_of_advance (stepped : (machine runtime).advance frame world = some (progress, after))
    {entry : Nat × TxnRef} (member : entry ∈ after.environment.transactions.entries) :
    (entry ∈ world.environment.transactions.entries ∧ ∀ t txnId ending,
      frame = .callback t txnId ending → world.isDatabaseTransaction t = false → entry.1 ≠ txnId) ∨
    ∃ txn txnId kind parent checkConcurrent, frame = .tryAdd txn txnId kind parent checkConcurrent ∧
      progress = .finish (.ok (.transaction world.txns.next)) ∧ entry = (txnId, world.txns.next) := by
  by_cases callback : ∃ t txnId ending, frame = .callback t txnId ending
  · obtain ⟨t, txnId, ending, rfl⟩ := callback
    have removed (member : entry ∈
        (Transaction.invokeDisposed t txnId world).environment.transactions.entries) :
        entry ∈ world.environment.transactions.entries ∧ ∀ u id ending',
          Frame.callback t txnId ending = .callback u id ending' →
            world.isDatabaseTransaction u = false → entry.1 ≠ id := by
      obtain ⟨before, other⟩ := mem_invokeDisposed member
      refine ⟨before, fun u id ending' equal plain => ?_⟩
      cases equal
      exact other plain
    cases moves_of_advance stepped with
    | follows follows => cases follows
    | failed fails => cases fails
    | aborted | commitFailed | commitSucceeded => exact .inl (removed member)
  · have kept (before : entry ∈ world.environment.transactions.entries) :
        entry ∈ world.environment.transactions.entries ∧ ∀ t txnId ending,
          frame = .callback t txnId ending → world.isDatabaseTransaction t = false →
            entry.1 ≠ txnId :=
      ⟨before, fun t txnId ending equal => absurd ⟨t, txnId, ending, equal⟩ callback⟩
    cases moves_of_advance stepped with
    | @constructed txn txnId kind parent checkConcurrent =>
        cases taken : world.environment.transactions.containsKey txnId with
        | true =>
            rw [LmdbEnvironment.construct, LmdbEnvironment.tryAdd] at member
            dsimp only [World.onEnvironment] at member
            rw [Dictionary.tryAdd_of_taken _ taken] at member
            exact .inl (kept member)
        | false =>
            rw [LmdbEnvironment.construct, LmdbEnvironment.tryAdd] at member
            dsimp only [World.onEnvironment] at member
            rw [Dictionary.tryAdd_entries_of_free _ taken, List.mem_append,
              List.mem_singleton] at member
            rcases member with before | equal
            · exact .inl (kept before)
            · exact .inr ⟨txn, txnId, kind, parent, checkConcurrent, rfl, rfl, equal⟩
    | released =>
        rw [releaseManagedResources_eq] at member
        exact .inl (kept member)
    | committed returned => exact .inl (kept ((committed_environment returned).2 ▸ member))
    | aborted | commitFailed | commitSucceeded => exact absurd ⟨_, _, _, rfl⟩ callback
    | _ => exact .inl (kept member)

/-- A thread's knowledge stays true while the native transaction it holds lives. -/
theorem Frame.Sound.mono (sound : frame.Sound world) (persists : Persists world after)
    (bound : ∀ t < world.txns.next, world.nativeTxn t < world.native.txns.next)
    (live : ∀ txn, frame.began? = some txn → world.Live txn → after.Live txn) :
    frame.Sound after := by
  have known {t : TxnRef} (older : t < world.txns.next) : t < after.txns.next :=
    Nat.lt_of_lt_of_le older persists.txns
  have nativeId {t : TxnRef} (older : t < world.txns.next) : after.nativeId t = world.nativeId t :=
    persists.nativeId older (bound t older)
  have id {txn : IntPtr} (alive : world.Live txn) :
      (after.native.txns.obj txn).id = (world.native.txns.obj txn).id :=
    (persists.native txn alive.known).id
  cases frame
  case mdbTxnId => exact live _ rfl sound
  case databaseTxnId => exact live _ rfl sound
  case options => exact ⟨live _ rfl sound.1, sound.2.trans (id sound.1).symm⟩
  case tryAdd => exact ⟨⟨live _ rfl sound.1.1, sound.1.2.trans (id sound.1.1).symm⟩, sound.2⟩
  case refused => exact sound
  case commit => exact known sound
  case exchange => exact known sound
  case endId => exact ⟨known sound.1, sound.2.trans (persists.object _ sound.1).1.symm⟩
  case nativeEnd =>
    exact ⟨⟨known sound.1.1, sound.1.2.trans (persists.object _ sound.1.1).1.symm⟩,
      sound.2.trans (nativeId sound.1.1).symm⟩
  case release => exact ⟨known sound.1, sound.2.trans (nativeId sound.1).symm⟩
  case callback => exact ⟨known sound.1, sound.2.trans (nativeId sound.1).symm⟩
  all_goals trivial

/-- The steps that change nothing lead to a frame that knows as much. -/
theorem Follows.sound (follows : Follows world frame next) (sound : frame.Sound world)
    (free : ∀ txn txnId kind parent, frame = .tryAdd txn txnId kind parent true →
      world.environment.transactions.containsKey txnId = false) : next.Sound world := by
  cases follows with
  | readerId => exact ⟨sound, rfl⟩
  | writerId => exact ⟨⟨sound, rfl⟩, by decide⟩
  | options => exact ⟨sound, by decide⟩
  | @taken txn txnId kind parent taken =>
      cases (free txn txnId kind parent rfl).symm.trans taken
  | commit => exact sound
  | endId =>
      obtain ⟨known, rfl⟩ := sound
      exact ⟨⟨known, rfl⟩, rfl⟩
  | @mdbSetCompare call =>
      unfold OpenCall.afterCompare
      split <;> trivial
  | _ => trivial

/-- A call that begins knows the transaction it is made on. -/
theorem Frame.Sound.enter {op : Op} (enters : (machine runtime).enter world op = some frame) :
    frame.Sound world := by
  cases enters_of_enter enters with
  | commit known | dispose known => exact known
  | begin | beginDatabase | nameCheck => trivial

end Steps

namespace RegisteringSound

/-- Before the first call, nothing is registered. -/
theorem idle (flags : LmdbEnvironmentOptions) (lastTxnId : Nat) :
    RegisteringSound (Pool.idle τ (World.opened runtime flags lastTxnId) : Threads τ runtime) where
  opened := by
    intro closed
    cases closed
  bound t known := absurd known (Nat.not_lt_zero t)
  registered entry member := by cases member
  frames thread frame here := by cases here

variable {pool : Threads τ runtime} {thread : τ} {frame next : Frame}
  {frame? : Option Frame} {start shared : World runtime}
  {progress : Progress Frame (Except Exception Returned)}

/-- An id that no outstanding transaction has is free. -/
theorem free_of_undisturbed (sound : RegisteringSound pool) {txn : IntPtr} {txnId : Nat}
    {kind : TransactionKind} {parent : Option TxnRef}
    (knows : (Frame.tryAdd txn txnId kind parent true).Sound pool.shared)
    (undisturbed : (Frame.tryAdd txn txnId kind parent true).Undisturbed pool) :
    pool.shared.environment.transactions.containsKey txnId = false := by
  rw [Bool.eq_false_iff]
  intro taken
  obtain ⟨entry, member, equal⟩ := Dictionary.containsKey_iff.mp taken
  obtain ⟨known, id, outstanding⟩ := sound.registered entry member
  exact undisturbed rfl entry.2 known outstanding (id.trans (equal.trans knows.1.2))

/-- The native transaction of a begin survives the steps of all threads. -/
theorem live_kept (sound : RegisteringSound pool)
    (holding : HoldingSound start pool) (here : pool.frames thread = some frame)
    (undisturbed : frame.Undisturbed pool)
    (stepped : (machine runtime).advance frame pool.shared = some (progress, shared))
    {other : τ} {theirs : Frame} (there : pool.frames other = some theirs) {txn : IntPtr}
    (began : theirs.began? = some txn) (live : pool.shared.Live txn) : shared.Live txn := by
  refine live_of_advance stepped live fun root releases => ?_
  have knows := sound.frames thread frame here
  cases frame with
  | refused => exact knows.elim
  | nativeEnd t handle txnId ending =>
      cases releases
      have named : txn ∈ (pool.frames other).bind Frame.began? := by
        rw [there]
        exact began
      have outside := undisturbed other txn named
      have carried : theirs.carries? = some txn := by
        cases theirs <;> cases began <;> rfl
      -- a handle has one holder, and this one is held by the thread that ends it
      have different : txn ≠ root := by
        rintro rfl
        have mine : pool.holder (.inr thread) = txn := by
          rw [Pool.holder, here]
          rfl
        have others : pool.holder (.inr other) = txn := by
          rw [Pool.holder, there, Option.bind_some, carried]
          rfl
        have equal := holding.account.distinct (.inr thread) (.inr other)
          (mine ▸ live.positive) (mine.trans others.symm)
        cases equal
        cases here.symm.trans there
        cases began
      rw [Native.within, Bool.or_eq_false_iff]
      exact ⟨beq_eq_false_iff_ne.mpr different, by simpa using outside⟩
  | _ => cases releases

/-- The moving thread knows what it needs in its next frame. -/
theorem own (sound : RegisteringSound pool)
    (holding : HoldingSound start pool) (here : pool.frames thread = some frame)
    (undisturbed : frame.Undisturbed pool)
    (stepped : (machine runtime).advance frame pool.shared = some (progress, shared))
    (goes : progress.frame? = some next) : next.Sound shared := by
  have persists := persists_of_advance stepped
  have knows := sound.frames thread frame here
  have known {t : TxnRef} (older : t < pool.shared.txns.next) : t < shared.txns.next :=
    Nat.lt_of_lt_of_le older persists.txns
  cases moves_of_advance stepped with
  | follows follows =>
      cases goes
      have free (txn txnId kind parent) (equal : frame = .tryAdd txn txnId kind parent true) :
          pool.shared.environment.transactions.containsKey txnId = false := by
        subst equal
        exact sound.free_of_undisturbed knows undisturbed
      refine (follows.sound knows free).mono persists sound.bound fun txn _ live => ?_
      refine live_of_advance stepped live fun root releases => ?_
      cases follows <;> cases releases
  | begun begins | databaseBegun begins =>
      cases goes
      refine ⟨Nat.ne_of_gt holding.positive, ?_, ?_⟩
      · rw [begins.state.txns]
        exact Nat.lt_succ_self _
      · rw [Native.live, begins.state.txns, Heap.alloc_obj_next]
        rfl
  | exchanged live =>
      cases goes
      exact ⟨known knows, (holding.held _ live).trans (persists.object _ knows).1.symm⟩
  | ended =>
      cases goes
      exact ⟨known knows.1.1,
        knows.2.trans (persists.nativeId knows.1.1 (sound.bound _ knows.1.1)).symm⟩
  | released =>
      cases goes
      exact ⟨known knows.1, knows.2.trans (persists.nativeId knows.1 (sound.bound _ knows.1)).symm⟩
  | commitSucceeded =>
      cases goes
      trivial
  | _ => cases goes

/-- The objects are over native transactions that LMDB has handed out. -/
theorem bound_set (sound : RegisteringSound pool)
    (holding : HoldingSound start pool) (here : pool.frames thread = some frame)
    (stepped : (machine runtime).advance frame pool.shared = some (progress, shared)) :
    ∀ t < shared.txns.next, shared.nativeTxn t < shared.native.txns.next := by
  intro t known
  have hands := hands_of_advance stepped
  by_cases older : t < pool.shared.txns.next
  · rw [(hands.object older).1]
    exact Nat.lt_of_lt_of_le (sound.bound t older) hands.grows.2
  · generalize progress.frame? = frame? at hands
    cases hands with
    | @constructed txn transaction _ holds objects natives carried =>
        have equal : t = pool.shared.txns.next := by
          rw [objects, Heap.alloc_next] at known
          omega
        have begun : shared.nativeTxn t = txn := by
          rw [World.nativeTxn, objects, equal, Heap.alloc_obj_next]
          exact holds.2
        have held : pool.holder (.inr thread) = txn := by
          rw [Pool.holder, here, Option.bind_some, carried.1]
          rfl
        have positive := (holding.frames thread frame here).positive txn carried.1
        rw [begun, natives]
        exact held ▸ holding.account.bound (.inr thread) (held ▸ positive)
    | keeps same | refused same | ended same => exact absurd (same.objects ▸ known) older
    | begun objects | exchanged _ objects =>
        rw [objects] at known
        exact absurd known older

variable [DecidableEq τ]

/-- An outstanding transaction stays so until its callback. -/
theorem outstanding_set {t : TxnRef} (outstanding : Outstanding pool t)
    (undisposed : pool.shared.handle t ≠ 0 →
      shared.handle t ≠ 0 ∨ frame?.bind Frame.closes? = some t)
    (closing : (pool.frames thread).bind Frame.closes? = some t →
      frame?.bind Frame.closes? = some t)
    (plain : shared.isDatabaseTransaction t = pool.shared.isDatabaseTransaction t) :
    Outstanding (pool.set thread frame? shared) t := by
  refine ⟨?_, plain.trans outstanding.2⟩
  rcases outstanding.1 with live | ending
  · rcases undisposed live with still | closes
    · exact .inl still
    · refine .inr ⟨thread, ?_⟩
      rw [Pool.set_frames_self]
      exact closes
  · exact .inr (ending.set closing)

/-- A call begins. -/
theorem enter (sound : RegisteringSound pool) {op : Op} (idle : pool.frames thread = none)
    (enters : (machine runtime).enter pool.shared op = some frame) :
    RegisteringSound (pool.set thread (some frame) pool.shared) where
  opened := sound.opened
  bound := sound.bound
  registered entry member := by
    obtain ⟨known, id, outstanding⟩ := sound.registered entry member
    refine ⟨known, id, outstanding_set outstanding .inl (fun closes => ?_) rfl⟩
    rw [idle] at closes
    cases closes
  frames := by
    refine sound.frames.set (fun next equal => ?_) fun _ _ _ _ knows => knows
    cases equal
    exact .enter enters

/-- The entries of the registry after a step are of outstanding transactions. -/
theorem registered_set (sound : RegisteringSound pool) (here : pool.frames thread = some frame)
    (stepped : (machine runtime).advance frame pool.shared = some (progress, shared))
    {entry : Nat × TxnRef} (member : entry ∈ shared.environment.transactions.entries) :
    entry.2 < shared.txns.next ∧ shared.nativeId entry.2 = entry.1 ∧
      Outstanding (pool.set thread progress.frame? shared) entry.2 := by
  have persists := persists_of_advance stepped
  have knows := sound.frames thread frame here
  rcases entry_of_advance stepped member with
    ⟨before, kept⟩ | ⟨txn, txnId, kind, parent, checkConcurrent, rfl, rfl, rfl⟩
  · obtain ⟨known, id, outstanding⟩ := sound.registered entry before
    have bound := sound.bound entry.2 known
    refine ⟨Nat.lt_of_lt_of_le known persists.txns, (persists.nativeId known bound).trans id,
      outstanding_set outstanding (handle_of_advance stepped known) (fun closes => ?_)
        (persists.object entry.2 known).2⟩
    rw [here] at closes
    rcases closes_of_advance stepped closes with still | ⟨txnId, ending, rfl⟩
    · exact still
    · exact absurd (id.symm.trans knows.2.symm) (kept _ _ _ rfl outstanding.2)
  · cases moves_of_advance stepped with
    | constructed =>
        obtain ⟨⟨live, id⟩, plain⟩ := knows
        have object : (LmdbEnvironment.construct kind txn parent (LmdbEnvironment.tryAdd txnId
            pool.shared.txns.next pool.shared).2).2.txns.obj pool.shared.txns.next =
            ⟨kind, txn, parent, [], [], txn⟩ := Heap.alloc_obj_next _ _
        refine ⟨Nat.lt_succ_self _, ?_, .inl ?_, ?_⟩
        · rw [World.nativeId, World.nativeTxn, object]
          exact id.symm
        · rw [Pool.set_shared, World.handle, object]
          exact live.positive
        · rw [Pool.set_shared, World.isDatabaseTransaction, object]
          exact decide_eq_false plain

/-- A step under the condition keeps the registry. -/
theorem advance (sound : RegisteringSound pool) (holding : HoldingSound start pool)
    (here : pool.frames thread = some frame) (undisturbed : frame.Undisturbed pool)
    (stepped : (machine runtime).advance frame pool.shared = some (progress, shared)) :
    RegisteringSound (pool.set thread progress.frame? shared) where
  opened := by
    rw [Pool.set_shared, (persists_of_advance stepped).env]
    exact sound.opened
  bound := sound.bound_set holding here stepped
  registered _ member := sound.registered_set here stepped member
  frames := by
    refine sound.frames.set (fun next goes => sound.own holding here undisturbed stepped goes) ?_
    intro other theirs _ there knows
    refine knows.mono (persists_of_advance stepped) sound.bound fun txn began live => ?_
    exact sound.live_kept holding here undisturbed stepped there began live

end RegisteringSound

end KdSoftLmdb
