import KdSoftLmdb.Invariants.Shutdown
import KdSoftLmdb.Library.Reports
import KdSoftLmdb.Threads.Holding

/-!
# Commit against Dispose

`Commit` and `Dispose` both exchange the handle, so only one of them gets it and
ends the native transaction. `Commit` looks at the handle before, and throws when
it is gone by then. When it goes between the look and the exchange, `Commit` falls
through to its end and returns as if it had committed.
-/

namespace KdSoftLmdb

variable {runtime : Runtime} {τ : Type}

open Transaction (CommitAnswer)

/-- Threads that call the wrapper, with a report of every call. -/
abbrev Observed (τ : Type) (runtime : Runtime) :=
  Watched τ (World runtime) Frame Op (Except Exception Returned)

/-- The native call with which the step of a frame ends a transaction. -/
def Frame.ended? : Frame → Option (IntPtr × Ending)
  | nativeEnd _ handle _ ending => some (handle, ending)
  | _ => none

/-- The native calls with which a call ended transactions, the last first. -/
def nativeEnds (passed : List Frame) : List (IntPtr × Ending) := passed.filterMap Frame.ended?

/-- A transaction that was undisposed at the start or has begun since is neither
committed nor aborted while an object or a thread holds its handle, and one of the
two, once, when none does any more. A call that ends it leaves no handle behind. -/
structure EndedOnce (start : World runtime) (observed : Observed τ runtime) : Prop where
  before : ∀ t, observed.pool.shared.handle t ≠ 0 ∨ observed.pool.Has Frame.ends? t →
    observed.pool.shared.released (.txn (observed.pool.shared.nativeTxn t)) = 0
  after : ∀ t < observed.pool.shared.txns.next, start.handle t ≠ 0 ∨ start.txns.next ≤ t →
    observed.pool.shared.handle t = 0 → ¬observed.pool.Has Frame.ends? t →
      observed.pool.shared.released (.txn (observed.pool.shared.nativeTxn t)) = 1
  taken : ∀ report ∈ observed.reports, ∀ t ending, report.call.ending? = some (t, ending) →
    observed.pool.shared.handle t = 0

/-- A `Commit` returned normally exactly if it made the native commit and that succeeded. -/
def CommitTells (report : Report τ (World runtime) Frame Op (Except Exception Returned)) : Prop :=
  ∀ t answer, report.call = .commit t answer →
    ((∃ value, report.result = .ok value) ↔
      (report.shared.nativeTxn t, .commit answer) ∈ nativeEnds report.passed ∧
        answer.ret = .success)

/-- A `Commit` that has seen a handle still finds it when it exchanges it, and the
databases of a committed transaction all go into the registry. -/
def Frame.Uncontested (world : World runtime) : Frame → Prop
  | exchange t (.commit _) => world.handle t ≠ 0
  | committed t => world.isDatabaseTransaction t = true → world.PromotesAll t
  | _ => True

/-- The condition on the steps of the threads. -/
def Uncontested (observed : Observed τ runtime) : τ × Action Op → Prop
  | (_, .call _) => True
  | (thread, .advance) =>
      match observed.pool.frames thread with
      | some frame => frame.Uncontested observed.pool.shared
      | none => True

instance (observed : Observed τ runtime) (label : τ × Action Op) :
    Decidable (Uncontested observed label) := by
  unfold Uncontested Frame.Uncontested
  split
  · infer_instance
  · split
    · split <;> infer_instance
    · infer_instance

section Steps

variable {world after : World runtime} {t : TxnRef}

private theorem advance_commit (t : TxnRef) (answer : CommitAnswer) (world : World runtime) :
    (machine runtime).advance (.commit t answer) world =
      some (if world.handle t = 0
        then .finish (.error (.objectDisposed (world.txns.obj t).kind.typeName))
        else .more (.exchange t (.commit answer)), world) := by
  by_cases disposed : world.handle t = 0
  · rw [if_pos disposed]
    dsimp only [machine]
    rw [Frame.advance, Frame.body, Method.bind_of_error (checkDisposed_of_disposed disposed)]
    rfl
  · rw [if_neg disposed]
    dsimp only [machine]
    rw [Frame.advance, Frame.body, Method.bind_of_ok (checkDisposed_of_live disposed)]
    rfl

private theorem advance_exchange (t : TxnRef) (ending : Ending) (world : World runtime) :
    (machine runtime).advance (.exchange t ending) world =
      some (if world.handle t = 0 then .finish (.ok .nothing)
        else .more (.endId t (world.handle t) ending), (Transaction.exchange t world).2) := by
  have handle : (Transaction.exchange t world).1 = world.handle t := rfl
  dsimp only [machine]
  rw [Frame.advance, Frame.body, Method.call_bind, handle]
  by_cases disposed : world.handle t = 0
  · rw [if_neg (not_not_intro disposed), if_pos disposed]
    rfl
  · rw [if_pos disposed, if_neg disposed]
    rfl

/-- `Committed()` is one step. -/
theorem advance_committed (t : TxnRef) (world : World runtime) :
    (machine runtime).advance (.committed t) world =
      (Transaction.committed t world).map fun outcome =>
        (.finish (outcome.1.map fun _ => .nothing), outcome.2) := by
  dsimp only [machine]
  rw [Frame.advance, Frame.body, Method.bind_apply]
  rcases Transaction.committed t world with _ | ⟨_ | _, _⟩ <;> rfl

/-- Where a call that ends a transaction is, and what it has done natively by then. -/
inductive Frame.Tells (world : World runtime) (t : TxnRef) :
    Ending → List (IntPtr × Ending) → Frame → Prop where
  | commit {answer} : Tells world t (.commit answer) [] (.commit t answer)
  | exchange {ending} : Tells world t ending [] (.exchange t ending)
  | endId {handle ending} (taken : world.handle t = 0) :
      Tells world t ending [] (.endId t handle ending)
  | nativeEnd {handle txnId ending} (taken : world.handle t = 0) :
      Tells world t ending [] (.nativeEnd t handle txnId ending)
  | release {txnId ending} (taken : world.handle t = 0) :
      Tells world t ending [(world.nativeTxn t, ending)] (.release t txnId ending)
  | callback {txnId ending} (taken : world.handle t = 0) :
      Tells world t ending [(world.nativeTxn t, ending)] (.callback t txnId ending)
  | committed {answer} (taken : world.handle t = 0) (succeeded : answer.ret = .success) :
      Tells world t (.commit answer) [(world.nativeTxn t, .commit answer)] (.committed t)

/-- Where a call is depends on nothing that the other threads change. -/
theorem Frame.Tells.mono {ending : Ending} {ends : List (IntPtr × Ending)} {frame : Frame}
    (tells : frame.Tells world t ending ends) (native : after.nativeTxn t = world.nativeTxn t)
    (handle : world.handle t = 0 → after.handle t = 0) : frame.Tells after t ending ends := by
  cases tells with
  | commit => exact .commit
  | exchange => exact .exchange
  | endId taken => exact .endId (handle taken)
  | nativeEnd taken => exact .nativeEnd (handle taken)
  | release taken =>
      rw [← native]
      exact .release (handle taken)
  | callback taken =>
      rw [← native]
      exact .callback (handle taken)
  | committed taken succeeded =>
      rw [← native]
      exact .committed (handle taken) succeeded

/-- How the call is left: the handle is gone, and an uncontested `Commit` tells
whether it committed. -/
structure LeavesCall (frame : Frame) (world : World runtime) (t : TxnRef) (ending : Ending)
    (ends : List (IntPtr × Ending)) (result : Except Exception Returned) (after : World runtime) :
    Prop where
  taken : after.handle t = 0
  tells : ∀ answer, ending = .commit answer → frame.Uncontested world →
    ((∃ value, result = .ok value) ↔
      (after.nativeTxn t, .commit answer) ∈ ends ∧ answer.ret = .success)

/-- Every step of a call that ends a transaction leads on, or leaves the call as said. -/
theorem Frame.Tells.advance {ending : Ending} {passed : List Frame} {frame : Frame}
    {progress : Progress Frame (Except Exception Returned)}
    (tells : frame.Tells world t ending (nativeEnds passed)) (known : t < world.txns.next)
    (owns : frame.Owns world)
    (stepped : (machine runtime).advance frame world = some (progress, after)) :
    (∃ next, progress = .more next ∧
      next.Tells after t ending (nativeEnds (frame :: passed))) ∨
    ∃ result, progress = .finish result ∧
      LeavesCall frame world t ending (nativeEnds (frame :: passed)) result after := by
  obtain ⟨native, kept⟩ := (hands_of_advance stepped).object known
  have taken (before : world.handle t = 0) : after.handle t = 0 := by
    rcases kept with same | lost
    · exact same.trans before
    · exact lost
  have quiet (silent : frame.ended? = none) : nativeEnds (frame :: passed) = nativeEnds passed :=
    List.filterMap_cons_none silent
  generalize ended : nativeEnds passed = ends at tells quiet
  cases tells with
  | commit =>
      rw [quiet rfl]
      rw [advance_commit] at stepped
      by_cases disposed : world.handle t = 0
      · rw [if_pos disposed] at stepped
        cases stepped
        exact .inr ⟨_, rfl, disposed, fun _ _ _ => ⟨by simp, by simp⟩⟩
      · rw [if_neg disposed] at stepped
        cases stepped
        exact .inl ⟨_, rfl, .exchange⟩
  | exchange =>
      rw [quiet rfl]
      have gone : after.handle t = 0 := by
        rw [advance_exchange] at stepped
        cases stepped
        rw [World.handle, Transaction.exchange, World.onTxn_txns, Heap.modify_obj_self]
      rw [advance_exchange] at stepped
      by_cases disposed : world.handle t = 0
      · rw [if_pos disposed] at stepped
        cases stepped
        refine .inr ⟨_, rfl, gone, fun answer isCommit uncontested => ?_⟩
        subst isCommit
        exact absurd disposed uncontested
      · rw [if_neg disposed] at stepped
        cases stepped
        exact .inl ⟨_, rfl, .endId gone⟩
  | endId before =>
      rw [quiet rfl]
      cases stepped
      exact .inl ⟨_, rfl, .nativeEnd (taken before)⟩
  | @nativeEnd _ txnId ending before =>
      have own := (owns.ends t rfl).2
      cases own
      have made : nativeEnds (.nativeEnd t (world.nativeTxn t) txnId ending :: passed) =
          (world.nativeTxn t, ending) :: nativeEnds passed := rfl
      rw [made, ended, ← native]
      cases stepped
      exact .inl ⟨_, rfl, .release (taken before)⟩
  | release before =>
      rw [quiet rfl, ← native]
      cases stepped
      exact .inl ⟨_, rfl, .callback (taken before)⟩
  | @callback _ ending before =>
      rw [quiet rfl, ← native]
      cases moves_of_advance stepped with
      | aborted => exact .inr ⟨_, rfl, taken before, by simp⟩
      | commitFailed failed =>
          refine .inr ⟨_, rfl, taken before, fun answer isCommit _ => ?_⟩
          cases isCommit
          exact ⟨by simp, fun both => absurd both.2 failed⟩
      | commitSucceeded succeeded => exact .inl ⟨_, rfl, .committed (taken before) succeeded⟩
      | failed fails => cases fails
      | follows follows => cases follows
  | @committed answer before succeeded =>
      rw [quiet rfl, ← native]
      rw [advance_committed] at stepped
      obtain ⟨⟨result, _⟩, returned, equal⟩ := Option.map_eq_some_iff.mp stepped
      cases equal
      refine .inr ⟨_, rfl, taken before, fun given isCommit uncontested => ?_⟩
      cases isCommit
      obtain ⟨_, promoted⟩ := committed_of_promotesAll uncontested
      cases promoted.symm.trans returned
      exact ⟨fun _ => ⟨List.mem_cons_self, succeeded⟩, fun _ => ⟨_, rfl⟩⟩

end Steps

/-- What holds of the calls of every run. -/
structure CommitsSound (start : World runtime) (observed : Observed τ runtime) : Prop where
  holding : HoldingSound start observed.pool
  calls : observed.Calls fun frame world op passed => ∀ t ending, op.ending? = some (t, ending) →
    t < world.txns.next ∧ frame.Tells world t ending (nativeEnds passed)
  reports : ∀ report ∈ observed.reports, ∀ t ending, report.call.ending? = some (t, ending) →
    t < observed.pool.shared.txns.next ∧ observed.pool.shared.handle t = 0

section Runs

variable [DecidableEq τ] {start : World runtime} {observed after : Observed τ runtime}
  {label : τ × Action Op}

/-- A call that ends a transaction starts with one of two frames. -/
theorem tells_of_enter {world : World runtime} {op : Op} {frame : Frame} {t : TxnRef}
    {ending : Ending} (enters : (machine runtime).enter world op = some frame)
    (ends : op.ending? = some (t, ending)) :
    t < world.txns.next ∧ frame.Tells world t ending (nativeEnds []) := by
  cases enters_of_enter enters with
  | commit known =>
      cases ends
      exact ⟨known, .commit⟩
  | dispose known =>
      cases ends
      exact ⟨known, .exchange⟩
  | begin quiet | beginDatabase quiet | nameCheck quiet => cases quiet.symm.trans ends

omit [DecidableEq τ] in
/-- Before the first call, nothing was reported. -/
theorem CommitsSound.idle (reachable : Reachable start) :
    CommitsSound start (.idle τ start : Observed τ runtime) := by
  obtain ⟨_, _, _, history⟩ := id reachable
  refine ⟨.idle (.of_history history) (.of_reachable reachable), ?_, fun report member => ?_⟩
  · intro _ _ _ _ here
    cases here
  · cases member

/-- The step lemma. -/
theorem CommitsSound.step (sound : CommitsSound start observed)
    (step : observed.Step (machine runtime) label after) : CommitsSound start after := by
  have holding := sound.holding.step step.pool
  cases step with
  | call idle enters =>
      refine ⟨holding, sound.calls.entered fun t ending ends => ?_, sound.reports⟩
      exact tells_of_enter enters ends
  | @advance thread frame progress shared call passed here within unlocked stepped =>
      have hands := hands_of_advance stepped
      have own {t : TxnRef} {ending : Ending} (ends : call.ending? = some (t, ending)) :
          t < observed.pool.shared.txns.next ∧ _ :=
        have ⟨known, tells⟩ := sound.calls thread frame call passed here within t ending ends
        ⟨known, tells.advance known (sound.holding.frames thread frame here) stepped⟩
      have stays {t : TxnRef} (known : t < observed.pool.shared.txns.next) :
          t < shared.txns.next := Nat.lt_of_lt_of_le known hands.grows.1
      have gone {t : TxnRef} (known : t < observed.pool.shared.txns.next)
          (before : observed.pool.shared.handle t = 0) : shared.handle t = 0 := by
        rcases (hands.object known).2 with same | lost
        · exact same.trans before
        · exact lost
      refine ⟨holding, sound.calls.advanced ?_ ?_, fun report member t ending ends => ?_⟩
      · rintro next rfl t ending ends
        obtain ⟨known, ⟨_, equal, tells⟩ | ⟨_, equal, _⟩⟩ := own ends
        · cases equal
          exact ⟨stays known, tells⟩
        · cases equal
      · intro other frame' call' passed' _ _ _ tells t ending ends
        obtain ⟨known, tells⟩ := tells t ending ends
        exact ⟨stays known, tells.mono (hands.object known).1 (gone known)⟩
      · rcases Watched.mem_reports_advanced member with earlier | ⟨result, rfl, rfl⟩
        · obtain ⟨known, disposed⟩ := sound.reports report earlier t ending ends
          exact ⟨stays known, gone known disposed⟩
        · obtain ⟨known, ⟨_, equal, _⟩ | ⟨_, equal, leaves⟩⟩ := own ends
          · cases equal
          · exact ⟨stays known, leaves.taken⟩

/-- An uncontested step reports nothing but what the call has done. -/
theorem CommitsSound.tells_step (sound : CommitsSound start observed)
    (tells : ∀ report ∈ observed.reports, CommitTells report)
    (uncontested : Uncontested observed label)
    (step : observed.Step (machine runtime) label after) :
    ∀ report ∈ after.reports, CommitTells report := by
  cases step with
  | call => exact tells
  | @advance thread frame progress shared call passed here within unlocked stepped =>
      intro report member
      rcases Watched.mem_reports_advanced member with earlier | ⟨result, rfl, rfl⟩
      · exact tells report earlier
      · intro t answer isCommit
        dsimp only at isCommit
        subst isCommit
        obtain ⟨known, before⟩ := sound.calls thread frame _ passed here within t _ rfl
        rw [Uncontested, here] at uncontested
        rcases before.advance known (sound.holding.frames thread frame here) stepped with
          ⟨_, equal, _⟩ | ⟨_, equal, leaves⟩
        · cases equal
        · cases equal
          exact leaves.tells answer rfl uncontested

private theorem CommitsSound.run {labels : List (τ × Action Op)}
    {allowed : Observed τ runtime → τ × Action Op → Prop} (reachable : Reachable start)
    (run : Run (Watched.Step (machine runtime)) allowed (.idle τ start) labels observed) :
    CommitsSound start observed :=
  run.invariant (CommitsSound start) (.idle reachable) fun held _ step => held.step step

omit [DecidableEq τ] in
private theorem CommitsSound.endedOnce (sound : CommitsSound start observed) :
    EndedOnce start observed where
  before t holding := by
    have holds := sound.holding
    rcases holding with live | ⟨thread, ending⟩
    · rw [← holds.held t live]
      exact holds.account.held (.inl t) live
    · obtain ⟨frame, here, ends⟩ := Option.bind_eq_some_iff.mp ending
      exact holds.unreleased here ((holds.frames thread frame here).ends t ends).2
  after t known since disposed unheld := sound.holding.gone t known since disposed unheld
  taken report member t ending ends := (sound.reports report member t ending ends).2

end Runs

instance : ∀ (observed : Observed τ runtime) (label : τ × Action Op),
    Decidable (Always observed label) :=
  fun _ _ => .isTrue trivial

/-- Whatever the interleaving, a transaction is committed or aborted once. In every
run in which no `Commit` loses the handle that it has seen, `Commit` returns
normally exactly when it made the native commit and that succeeded. -/
theorem commit_tells [DecidableEq τ] {start : World runtime} {observed : Observed τ runtime}
    {labels : List (τ × Action Op)} (reachable : Reachable start)
    (run : Run (Watched.Step (machine runtime)) Always (.idle τ start) labels observed) :
    EndedOnce start observed ∧
    (Run (Watched.Step (machine runtime)) Uncontested (.idle τ start) labels observed →
      ∀ report ∈ observed.reports, CommitTells report) := by
  refine ⟨(CommitsSound.run reachable run).endedOnce, fun uncontested => ?_⟩
  have both : CommitsSound start observed ∧ ∀ report ∈ observed.reports, CommitTells report := by
    refine uncontested.invariant (fun observed => CommitsSound start observed ∧
      ∀ report ∈ observed.reports, CommitTells report) ⟨.idle reachable, ?_⟩ ?_
    · intro report member
      cases member
    · rintro _ _ _ ⟨sound, tells⟩ allowed step
      exact ⟨sound.step step, sound.tells_step tells allowed step⟩
  exact both.2

/-- The report is that of a `Commit` which returned normally, and it made a native
call or did not. -/
def Report.commitReturned (ended : Bool)
    (report : Report τ (World runtime) Frame Op (Except Exception Returned)) : Bool :=
  match report.call, report.result with
  | .commit _ _, .ok _ => (nativeEnds report.passed).isEmpty != ended
  | _, _ => false

/-- One thread begins a transaction and reaches the exchange of its `Commit`. -/
def untilExchange : List (Bool × Action Op) :=
  (false, .call (.beginTransaction .none none ⟨.success, .success⟩)) ::
    List.replicate 4 (false, .advance) ++
    [(false, .call (.commit 0 ⟨.success, true⟩)), (false, .advance)]

/-- The `Commit` gets the handle, and a `Dispose` between its steps does not. -/
theorem commit_tells_late_dispose : ∃ observed : Observed Bool .ascii,
    EndedOnce (World.opened .ascii .none 0) observed ∧
    (∀ report ∈ observed.reports, CommitTells report) ∧
    observed.reports.any (Report.commitReturned true) = true := by
  obtain ⟨observed, run, reported⟩ := Watched.watched_of_replay (machine .ascii) Uncontested
    (.idle Bool (World.opened .ascii .none 0)) (untilExchange ++ (false, .advance) ::
      (true, .call (.disposeTransaction 0)) :: (true, .advance) ::
      List.replicate 5 (false, .advance))
    (fun observed => observed.reports.any (Report.commitReturned true) = true) (by decide +kernel)
  have reachable : Reachable (World.opened .ascii .none 0) := ⟨.none, 0, [], .nil⟩
  have tells := commit_tells reachable (run.mono fun _ => trivial)
  exact ⟨observed, tells.1, tells.2 run, reported⟩

/-- A transaction that another thread aborts between the look at the handle and
the exchange: `Commit` returns normally. -/
theorem commit_loses_handle : ∃ observed : Observed Bool .ascii,
    Run (Watched.Step (machine .ascii)) Always (.idle Bool (World.opened .ascii .none 0))
      (untilExchange ++ (true, .call (.disposeTransaction 0)) ::
        List.replicate 5 (true, .advance) ++ [(false, .advance)]) observed ∧
    (observed.pool.shared.native.txns.obj 1).fate = .aborted ∧
    ∃ report ∈ observed.reports, ¬CommitTells report := by
  obtain ⟨observed, run, aborted, reported⟩ := Watched.watched_of_replay (machine .ascii) Always
    (.idle Bool (World.opened .ascii .none 0))
    (untilExchange ++ (true, .call (.disposeTransaction 0)) ::
      List.replicate 5 (true, .advance) ++ [(false, .advance)]) (fun observed =>
      (observed.pool.shared.native.txns.obj 1).fate = .aborted ∧
      observed.reports.any (Report.commitReturned false) = true) (by decide +kernel)
  obtain ⟨report, member, returned⟩ := List.any_eq_true.mp reported
  refine ⟨observed, run, aborted, report, member, fun tells => ?_⟩
  unfold Report.commitReturned at returned
  split at returned
  · rename_i t answer value isCommit result
    have ended := ((tells t answer isCommit).mp ⟨value, result⟩).1
    have none : nativeEnds report.passed = [] := by simpa using returned
    rw [none] at ended
    cases ended
  · cases returned

end KdSoftLmdb
