import KdSoftLmdb.Effects.Releasing
import KdSoftLmdb.Effects.Tree
import KdSoftLmdb.Invariants.Reachable
import KdSoftLmdb.Library.Account

/-!
# No native resource is released twice

The handles of transaction objects and of cursor objects are accounts: a native
transaction is held by one object, or was given up and then committed or
aborted at most once; the same goes for a native cursor and its close. The
environment handle is given up by the first `Dispose`, which closes it.
-/

namespace KdSoftLmdb

variable {runtime : Runtime}

/-- What holds of handles and their releases in every reachable state. -/
structure ReleasesSound (world : World runtime) : Prop where
  sound : WorldSound world
  txns : Account world.handle world.native.txns.next fun txn => world.released (.txn txn)
  cursors : Account world.cur world.native.cursors.next fun cursor =>
    world.released (.cursor cursor)
  open' : world.environment.env ≠ 0 → ∀ env, world.released (.env env) = 0
  once : ∀ env, world.released (.env env) ≤ 1

section Handles

variable {world after : World runtime} {op : Op}

/-- Cursor objects keep or lose their handles, and LMDB's counter does not go back. -/
structure LosesCursors (world after : World runtime) : Prop where
  next : world.native.cursors.next ≤ after.native.cursors.next
  cur : ∀ c, after.cur c = world.cur c ∨ after.cur c = 0

private theorem LosesCursors.of_eq (native : after.native.cursors = world.native.cursors)
    (cursors : after.cursors = world.cursors) : LosesCursors world after :=
  ⟨Nat.le_of_eq (by rw [native]), fun c => .inl (by rw [World.cur, cursors, World.cur])⟩

private theorem LosesCursors.closing (world : World runtime) (t : TxnRef) (ending : Ending) :
    LosesCursors world (closing t ending world) := by
  refine ⟨Nat.le_of_eq ?_, fun c => ?_⟩
  · rw [closing_native, Ending.native_cursors]
    rfl
  · rw [World.cur, closing_cursor]
    split
    · unfold Cursor.release
      split
      · exact .inl rfl
      · exact .inr rfl
    · exact .inl rfl

private theorem LosesCursors.trans {middle : World runtime} (first : LosesCursors world middle)
    (second : LosesCursors middle after) : LosesCursors world after := by
  refine ⟨Nat.le_trans first.next second.next, fun c => ?_⟩
  rcases second.cur c with same | lost
  · exact (first.cur c).imp same.trans same.trans
  · exact .inr lost

private theorem LosesCursors.environmentDisposed (idle : world.environment.activeDbTxn = none)
    (order : List TxnRef) : LosesCursors world (LmdbEnvironment.dispose order world) := by
  by_cases shut : world.environment.env = 0
  · rw [dispose_of_shut order shut]
    exact .of_eq rfl rfl
  · rw [dispose_of_open order shut idle]
    have looped : LosesCursors world (world.enumerated order) :=
      enumerated_invariant (LosesCursors world) (.of_eq rfl rfl)
        fun held _ _ => held.trans (.closing _ _ _)
    exact looped.trans (.of_eq rfl rfl)

/-- A step gives a new cursor object a new handle, or gives out none. -/
theorem cursors_of_effect (idle : world.environment.activeDbTxn = none)
    (effect : Effect world op after) :
    (∃ c, after.cur c = world.native.cursors.next ∧
      (∀ e, e ≠ c → after.cur e = world.cur e) ∧
      after.native.cursors.next = world.native.cursors.next + 1) ∨
    LosesCursors world after := by
  cases effect with
  | recorded unchanged => exact .inr (.of_eq unchanged.cursors rfl)
  | begunDatabase _ _ _ begins => exact .inr (.of_eq begins.state.cursors rfl)
  | begun _ _ _ begins => exact .inr (.of_eq begins.state.cursors rfl)
  | begunTaken _ _ begins =>
      refine .inr ⟨Nat.le_of_eq ?_, fun c => .inl rfl⟩
      exact (congrArg Heap.next begins.state.cursors).symm
  | begunLeaked _ _ begins => exact .inr (.of_eq begins.state.cursors rfl)
  | closed => exact .inr (.closing _ _ _)
  | @promoted t answer _ _ _ _ _ _ _ promoted =>
      have closed := LosesCursors.closing world t (.commit answer)
      obtain ⟨_, _, rfl⟩ := promoted
      refine .inr (closed.trans ?_)
      split <;> exact .of_eq rfl rfl
  | reader _ _ state => exact .inr (.of_eq state.cursors rfl)
  | opened _ _ _ _ slot => exact .inr (.of_eq slot.elsewhere.cursors rfl)
  | openFailed _ _ slot => exact .inr (.of_eq slot.elsewhere.cursors rfl)
  | databaseGone _ _ elsewhere =>
      refine .inr (.of_eq ?_ (by simp))
      rw [databaseCallback_native]
      exact elsewhere.cursors
  | cursorOpened _ _ state =>
      exact .inl ⟨world.cursors.next, congrArg Cursor.cur (if_pos rfl),
        fun e different => congrArg Cursor.cur (if_neg different), congrArg Heap.next state.cursors⟩
  | @cursorGone c native _ state =>
      refine .inr ⟨Nat.le_of_eq ?_, fun e => ?_⟩
      · rw [cursorCallback_native]
        exact (congrArg Heap.next state.cursors).symm
      · rw [World.cur, cursorCallback_cursors, Heap.modify_obj]
        split
        · exact .inr rfl
        · exact .inl rfl
  | cursorRenewed _ _ _ state =>
      exact .inr ⟨Nat.le_of_eq (congrArg Heap.next state.cursors).symm, fun c => .inl rfl⟩
  | environmentDisposed => exact .inr (.environmentDisposed idle _)

private theorem enumerated_native_next (world : World runtime) (order : List TxnRef) :
    (world.enumerated order).native.txns.next = world.native.txns.next := by
  refine enumerated_invariant (fun current => current.native.txns.next = world.native.txns.next)
    rfl fun held _ _ => ?_
  rw [closing_native, Native.ended_next]
  exact held

/-- A step gives a new transaction object a new handle, or gives out none. -/
theorem handles_of_effect (sound : WorldSound world) (effect : Effect world op after) :
    (∃ t, after.handle t = world.native.txns.next ∧
      (∀ u, u ≠ t → after.handle u = world.handle u) ∧
      after.native.txns.next = world.native.txns.next + 1) ∨
    (world.native.txns.next ≤ after.native.txns.next ∧
      ∀ t, after.handle t = world.handle t ∨ after.handle t = 0) := by
  have idle := sound.transactions.idle
  cases treeEffect_of_effect sound.natives effect with
  | @begun kind modes parent registry native creates valid begins equal =>
      subst equal
      refine .inl ⟨world.txns.next, congrArg Transaction.txn (if_pos rfl),
        fun u different => congrArg Transaction.txn (if_neg different), ?_⟩
      rw [begun_native, begins.state.txns]
      rfl
  | ended _ _ leaves =>
      refine .inr ⟨Nat.le_of_eq ?_, fun t => (leaves.same.object t).txn⟩
      rw [leaves.native, closing_native, Native.ended_next]
      rfl
  | @disposed order _ _ equal =>
      subst equal
      refine .inr ⟨Nat.le_of_eq ?_, fun t =>
        ((SameTransactions.environmentDisposed idle order).object t).txn⟩
      by_cases shut : world.environment.env = 0
      · rw [dispose_of_shut order shut]
      · rw [dispose_of_open order shut idle]
        exact (enumerated_native_next world order).symm
  | kept keeps => exact .inr ⟨keeps.known, fun t => .inl (keeps.handle t)⟩

/-- The environment handle stays or is cleared. -/
theorem env_of_effect (sound : WorldSound world) (effect : Effect world op after)
    (opened : after.environment.env ≠ 0) : world.environment.env ≠ 0 := by
  cases treeEffect_of_effect sound.natives effect with
  | begun _ _ begins => exact begins.opened
  | ended _ _ leaves => exact leaves.env ▸ opened
  | @disposed order _ _ equal =>
      intro shut
      rw [equal, dispose_of_shut order shut] at opened
      exact opened rfl
  | kept keeps => exact keeps.env ▸ opened

end Handles

namespace ReleasesSound

variable {world after : World runtime} {op : Op}

/-- A new environment has released nothing. -/
theorem opened (flags : LmdbEnvironmentOptions) (lastTxnId : Nat) :
    ReleasesSound (World.opened runtime flags lastTxnId) where
  sound := .opened flags lastTxnId
  txns := .empty
  cursors := .empty
  open' _ _ := rfl
  once _ := Nat.zero_le 1

/-- A step that releases nothing. -/
theorem quiet (releases : ReleasesSound world) (effect : Effect world op after)
    (same : after.released = world.released) : ReleasesSound after where
  sound := releases.sound.effect effect
  txns := by
    rw [same]
    rcases handles_of_effect releases.sound effect with ⟨t, got, others, next⟩ | ⟨next, kept⟩
    · exact next ▸ releases.txns.acquire t got others
    · exact releases.txns.lose next kept
  cursors := by
    rw [same]
    rcases cursors_of_effect releases.sound.transactions.idle effect with
      ⟨c, got, others, next⟩ | loses
    · exact next ▸ releases.cursors.acquire c got others
    · exact releases.cursors.lose loses.next loses.cur
  open' opened := by
    rw [same]
    exact releases.open' (env_of_effect releases.sound effect opened)
  once := by
    rw [same]
    exact releases.once

private theorem closing (releases : ReleasesSound world) {t : TxnRef} (live : world.handle t ≠ 0)
    (ending : Ending) : ReleasesSound (closing t ending world) := by
  have count := closing_released world t ending
  have loses := LosesCursors.closing world t ending
  refine ⟨releases.sound.closing live ending, ?_, ?_, fun opened env => ?_, fun env => ?_⟩
  · have gone : (KdSoftLmdb.closing t ending world).handle t = 0 := by
      rw [closing_handle, if_pos rfl]
    have next : (KdSoftLmdb.closing t ending world).native.txns.next = world.native.txns.next := by
      rw [closing_native, Native.ended_next]
      rfl
    rw [next]
    refine releases.txns.release live gone (fun u different => ?_) fun txn => ?_
    · rw [closing_handle, if_neg different]
    · simp only [count, withRelease, NativeHandle.txn.injEq]
  · refine (releases.cursors.lose loses.next loses.cur).congr (fun _ => rfl) rfl fun cursor => ?_
    rw [count, withRelease_of_ne (by simp)]
  · rw [count, withRelease_of_ne (by simp)]
    exact releases.open' (by rwa [closing_env] at opened) env
  · rw [count, withRelease_of_ne (by simp)]
    exact releases.once env

/-- Only handles, counters and calls matter. -/
theorem same (releases : ReleasesSound world) (sound : WorldSound after)
    (native : after.native = world.native) (handles : ∀ t, after.handle t = world.handle t)
    (cursors : after.cursors = world.cursors)
    (env : after.environment.env ≠ 0 → world.environment.env ≠ 0) : ReleasesSound after := by
  have released : after.released = world.released := congrArg Native.releases native
  refine ⟨sound, ?_, ?_, fun opened => ?_, ?_⟩
  · exact releases.txns.congr handles (by rw [native]) fun _ => by rw [released]
  · refine releases.cursors.congr (fun c => ?_) (by rw [native]) fun _ => by rw [released]
    rw [World.cur, cursors, World.cur]
  · rw [released]
    exact releases.open' (env opened)
  · rw [released]
    exact releases.once

private theorem commit (releases : ReleasesSound world) {t : TxnRef}
    {answer : Transaction.CommitAnswer}
    {result : Except Exception Unit} (sound : WorldSound after)
    (returned : Transaction.commit t answer world = some (result, after)) :
    ReleasesSound after := by
  cases commit_cases returned with
  | disposed => exact releases
  | failed live | plain live => exact releases.closing live (.commit answer)
  | @database _ _ rest _ live _ _ _ promoted =>
      have leaves := @EndsAs.promoted _ _ _ _ _ rest _ promoted
      refine (releases.closing live (.commit answer)).same sound leaves.native (fun u => ?_)
        leaves.cursors fun opened => ?_
      · rw [leaves.handle, closing_handle]
      · rw [closing_env, ← leaves.env]
        exact opened

private theorem beginTransaction (releases : ReleasesSound world) {modes : TransactionModes}
    {parent : Option TxnRef} {answer : LmdbEnvironment.BeginAnswer}
    {result : Except Exception TxnRef} (effect : Effect world op after)
    (returned : LmdbEnvironment.beginTransaction modes parent answer world =
      some (result, after)) : ReleasesSound after := by
  rcases beginTransaction_released returned with same | ⟨⟨native, begins, rfl⟩, count⟩
  · exact releases.quiet effect same
  have next : (native.mdbTxnAbort world.native.txns.next).txns.next =
      world.native.txns.next + 1 := congrArg Heap.next begins.state.txns
  have cursors : native.cursors.next = world.native.cursors.next :=
    congrArg Heap.next begins.state.cursors
  refine ⟨releases.sound.effect effect, ?_, ?_, fun _ env => ?_, fun env => ?_⟩
  · rw [next]
    refine releases.txns.burn fun txn => ?_
    simp only [count, withRelease, NativeHandle.txn.injEq]
  · refine releases.cursors.congr (fun _ => rfl) cursors fun cursor => ?_
    rw [count, withRelease_of_ne (by simp)]
  · rw [count, withRelease_of_ne (by simp)]
    exact releases.open' begins.opened env
  · rw [count, withRelease_of_ne (by simp)]
    exact releases.once env

private theorem disposeCursor (releases : ReleasesSound world) (c : CursorRef) :
    ReleasesSound (Cursor.dispose c world) := by
  have effect := effect_of_disposeCursor world c
  by_cases live : world.cur c = 0
  · rw [disposeCursor_of_disposed live]
    exact releases
  have count := disposeCursor_released live
  have state := disposeCursor_of_live live
  refine ⟨releases.sound.effect effect, ?_, ?_, fun opened env => ?_, fun env => ?_⟩
  · refine releases.txns.congr (fun t => ?_) ?_ fun txn => ?_
    · rw [state]
      obtain ⟨_, equal, _⟩ := cursorCallback_txn { world with
        cursors := world.cursors.modify c Cursor.clearHandle
        native := world.native.mdbCursorClose (world.cur c) } c t
      rw [World.handle, equal]
      rfl
    · rw [state, cursorCallback_native]
      rfl
    · rw [count, withRelease_of_ne (by simp)]
  · have next : (Cursor.dispose c world).native.cursors.next = world.native.cursors.next := by
      rw [state, cursorCallback_native]
      rfl
    have cur (e : CursorRef) : (Cursor.dispose c world).cur e =
        if e = c then 0 else world.cur e := by
      rw [state, World.cur, cursorCallback_cursors, Heap.modify_obj]
      split <;> rfl
    rw [next]
    refine releases.cursors.release live (by rw [cur, if_pos rfl]) (fun e different => ?_)
      fun cursor => ?_
    · rw [cur, if_neg different]
    · simp only [count, withRelease, NativeHandle.cursor.injEq]
  · rw [count, withRelease_of_ne (by simp)]
    refine releases.open' ?_ env
    rw [state, cursorCallback_environment] at opened
    exact opened
  · rw [count, withRelease_of_ne (by simp)]
    exact releases.once env

/-- The environment gave its handle up, and the handle was closed. -/
theorem closeEnvironment (releases : ReleasesSound world)
    (unreleased : ∀ env, world.released (.env env) = 0) {env : IntPtr} (sound : WorldSound after)
    (native : after.native = world.native.mdbEnvClose env)
    (handles : ∀ t, after.handle t = world.handle t) (cursors : after.cursors = world.cursors)
    (closed : after.environment.env = 0) : ReleasesSound after := by
  have count : after.released = withRelease world.released (.env env) := by
    rw [World.released, native]
    exact (Native.releases_congr _ rfl).trans (world.native.releases_releasing rfl)
  refine ⟨sound, ?_, ?_, fun opened => (opened closed).elim, fun other => ?_⟩
  · refine releases.txns.congr handles (by rw [native]; rfl) fun txn => ?_
    rw [count, withRelease_of_ne (by simp)]
  · refine releases.cursors.congr (fun c => ?_) (by rw [native]; rfl) fun cursor => ?_
    · rw [World.cur, cursors, World.cur]
    · rw [count, withRelease_of_ne (by simp)]
  · rw [count, withRelease, unreleased]
    split <;> decide

private theorem disposeEnvironment (releases : ReleasesSound world) {order : List TxnRef}
    (perm : order.Perm world.environment.transactions.values) :
    ReleasesSound (LmdbEnvironment.dispose order world) := by
  have idle := releases.sound.transactions.idle
  have sound := releases.sound.effect (.environmentDisposed perm)
  by_cases shut : world.environment.env = 0
  · rw [dispose_of_shut order shut] at sound ⊢
    exact releases.same sound rfl (fun _ => rfl) rfl fun opened => (opened rfl).elim
  · have looped : ReleasesSound (world.enumerated order) ∧
        (world.enumerated order).environment.env = 0 ∧
        ∀ env, (world.enumerated order).released (.env env) = 0 := by
      refine enumerated_invariant (fun current => ReleasesSound current ∧
        current.environment.env = 0 ∧ ∀ env, current.released (.env env) = 0)
        ⟨?_, rfl, releases.open' shut⟩ ?_
      · exact releases.same releases.sound.handleCleared rfl (fun _ => rfl) rfl
          fun opened => (opened rfl).elim
      · rintro before t ⟨held, closed, unreleased⟩ _ live
        refine ⟨held.closing live .abort, (closing_env _ _ _).trans closed, fun env => ?_⟩
        rw [closing_released, withRelease_of_ne (by simp)]
        exact unreleased env
    rw [dispose_of_open order shut idle] at sound ⊢
    exact looped.1.closeEnvironment looped.2.2 sound rfl (fun _ => rfl) rfl rfl

/-- The step lemma. -/
theorem step (releases : ReleasesSound world) (step : Step world op after) :
    ReleasesSound after := by
  have effect := effect_of_step step
  have sound := releases.sound.effect effect
  obtain ⟨result, executed⟩ := step
  obtain ⟨_, returned⟩ := execute_eq_some_iff.mp executed
  cases op with
  | beginTransaction | beginReadOnlyTransaction =>
      obtain ⟨_, ran, _⟩ := returning_cases returned
      exact releases.beginTransaction effect ran
  | commit t answer =>
      obtain ⟨_, ran⟩ := void_cases returned
      exact releases.commit sound ran
  | disposeTransaction t =>
      obtain ⟨_, ran⟩ := void_cases returned
      cases ran
      by_cases live : world.handle t = 0
      · rw [dispose_of_disposed live]
        exact releases
      · rw [dispose_of_live live]
        exact releases.closing live .abort
  | disposeCursor c =>
      obtain ⟨_, ran⟩ := void_cases returned
      cases ran
      exact releases.disposeCursor c
  | disposeEnvironment order =>
      obtain ⟨perm, _, rfl⟩ := disposeEnvironment_cases returned
      exact releases.disposeEnvironment perm
  | _ => exact releases.quiet effect (spares_body _ rfl _ _ _ returned)

/-- The run lemma, whatever the calls are restricted to. -/
theorem of_history {allowed : World runtime → Op → Prop} {flags : LmdbEnvironmentOptions}
    {lastTxnId : Nat} {ops : List Op} (history : History allowed flags lastTxnId ops world) :
    ReleasesSound world :=
  history.invariant ReleasesSound (opened flags lastTxnId) fun held _ transition =>
    held.step transition

end ReleasesSound

end KdSoftLmdb
