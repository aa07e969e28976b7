import KdSoftLmdb.Invariants.Ancestry
import KdSoftLmdb.Invariants.Handles
import KdSoftLmdb.Session

/-!
# Ending a transaction with live descendants

LMDB ends the live descendants of a transaction together with it. The wrapper
ends one object only: the descendants keep their handles, and the next call on
one of them hands LMDB a transaction or a cursor that it has freed. What keeps
the wrapper safe is the caller, who ends the descendants first.
-/

namespace KdSoftLmdb

variable {runtime : Runtime}

/-- Every descendant of `t` that was live in `world` is disposed, and so is
every cursor that was opened in it. -/
def DescendantsDisposed (t : TxnRef) (world after : World runtime) : Prop :=
  ∀ u, world.Descends u t → world.handle u ≠ 0 →
    after.handle u = 0 ∧ ∀ c, (world.cursors.obj c).disposed = some u → after.cur c = 0

section

variable {world after : World runtime} {t u : TxnRef} {op : Op} {ending : Ending}

/-- The end of one transaction leaves the handle of every other object alone. -/
theorem handle_of_ending (natives : NativeSound world.native)
    (ends : op.ending? = some (t, ending)) (transition : Step world op after)
    (different : u ≠ t) : after.handle u = world.handle u := by
  cases treeEffect_of_effect natives (effect_of_step transition) with
  | begun creates =>
      cases creates with
      | database => cases ends
      | plain begin =>
          cases op with
          | commit | disposeTransaction => cases begin
          | _ => cases ends
  | ended ends' _ leaves =>
      cases ends.symm.trans ends'
      rw [leaves.handle, if_neg different]
  | disposed dispose =>
      subst dispose
      cases ends
  | kept keeps => exact keeps.handle u

end

/-- The end of a transaction disposes its live descendants exactly when there
are none; and while every transaction ends without a live child, no call hands
LMDB a transaction or a cursor that LMDB has freed. -/
theorem descendants_disposed_iff {world after : World runtime} {op : Op} {t : TxnRef}
    {ending : Ending} (reachable : Reachable world) (ends : op.ending? = some (t, ending))
    (transition : Step world op after) :
    (DescendantsDisposed t world after ↔ ∀ u, world.Descends u t → world.handle u = 0) ∧
    ∀ flags lastTxnId ops, History EndsLeaves flags lastTxnId ops world →
      ∀ call ∈ world.native.calls, call.dangling = false := by
  have sound := reachable_sound reachable
  refine ⟨⟨fun disposed u descends => ?_, fun none u descends live => ?_⟩, fun _ _ _ history => ?_⟩
  · by_contra live
    have different : u ≠ t := Nat.ne_of_gt (sound.transactions.descends_lt descends)
    have kept := handle_of_ending sound.natives ends transition different
    exact live (kept.symm.trans (disposed u descends live).1)
  · exact absurd (none u descends) live
  · exact (NestingSound.of_history history).calls

/-- Two nested transactions with a cursor, ended leaves first. -/
def nestedHistory : List Op :=
  [.beginDatabaseTransaction .none none .success,
    .beginDatabaseTransaction .none (some 0) .success, plainOpen 1 "a" 2,
    .openCursor 0 1 .success, .commit 1 ⟨.success, true⟩]

/-- Its descendants have ended before the disposal. -/
theorem descendants_disposed_leaf : ∃ world after : World .ascii,
    History EndsLeaves .none 0 nestedHistory world ∧ world.handle 0 ≠ 0 ∧
    Step world (.disposeTransaction 0) after ∧ DescendantsDisposed 0 world after ∧
    ∀ call ∈ world.native.calls, call.dangling = false := by
  obtain ⟨world, history, live, ended⟩ := history_of_replay EndsLeaves .none 0 nestedHistory
    (fun world : World .ascii => world.handle 0 ≠ 0 ∧
      ∀ u < world.txns.next, 0 < u → world.handle u = 0) (by decide +kernel)
  have reachable := reachable_of_history history
  have transactions := (reachable_sound reachable).transactions
  have transition : Step world (.disposeTransaction 0) (Transaction.dispose 0 world) :=
    ⟨.ok .nothing, execute_eq_some_iff.mpr ⟨decide_eq_true (transactions.bound live), rfl⟩⟩
  have iff := descendants_disposed_iff reachable rfl transition
  refine ⟨world, _, history, live, transition, iff.1.mpr fun u descends => ?_, iff.2 _ _ _ history⟩
  by_contra alive
  exact alive (ended u (transactions.bound alive) (transactions.descends_lt descends))

/-- A database transaction nested in another one. -/
def nestedBegins : List Op :=
  [.beginDatabaseTransaction .none none .success,
    .beginDatabaseTransaction .none (some 0) .success]

/-- A parent is aborted before its child: the child is not disposed, and its own
abort hands LMDB the freed transaction. -/
theorem descendant_left_live : ∃ world after later : World .ascii,
    History Always .none 0 nestedBegins world ∧
    Step world (.disposeTransaction 0) after ∧ world.Descends 1 0 ∧ world.handle 1 ≠ 0 ∧
    after.handle 1 ≠ 0 ∧ Step after (.disposeTransaction 1) later ∧
    ⟨.mdbTxnAbort, [.txn (world.handle 1)], true⟩ ∈ later.native.calls := by
  obtain ⟨world, history, nested, live, ended⟩ := history_of_replay Always .none 0 nestedBegins
    (fun world : World .ascii => world.parent 1 = some 0 ∧ world.handle 1 ≠ 0 ∧
      ((stepTo world (.disposeTransaction 0)).any fun after => decide (after.handle 1 ≠ 0) &&
        (stepTo after (.disposeTransaction 1)).any fun later =>
          decide (⟨.mdbTxnAbort, [.txn (world.handle 1)], true⟩ ∈ later.native.calls)) = true)
    (by decide +kernel)
  obtain ⟨after, first, observed⟩ := (Option.any_eq_true _ _).mp ended
  obtain ⟨kept, called⟩ := Bool.and_eq_true_iff.mp observed
  obtain ⟨later, second, call⟩ := (Option.any_eq_true _ _).mp called
  exact ⟨world, after, later, history, step_of_stepTo first, .single nested, live,
    of_decide_eq_true kept, step_of_stepTo second, of_decide_eq_true call⟩

end KdSoftLmdb
