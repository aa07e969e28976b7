import KdSoftLmdb.Effects.Disposed
import KdSoftLmdb.Session

/-!
# The failure of a database transaction

`Abort` marks the new databases as disposed before the list is forgotten. A
commit takes the other branch of `ReleaseManagedResources` before its return
code is looked at, so a commit that fails leaves the new databases as they are,
with handles that LMDB has closed.
-/

namespace KdSoftLmdb

variable {runtime : Runtime}

/-- The step handed no database handle to LMDB. -/
def PassesNoDbi (world after : World runtime) : Prop :=
  ∃ calls, after.native.calls = calls ++ world.native.calls ∧
    ∀ call ∈ calls, ∀ dbi, .dbi dbi ∉ call.handles

/-- After a transaction that started in `before` and failed in `world`: every
database opened in it is disposed, the registry has only lost what was disposed
meanwhile, and no later call on one of the databases hands LMDB a database handle. -/
structure RolledBack (before world after : World runtime) : Prop where
  disposed : ∀ d, before.dbs.next ≤ d → d < world.dbs.next → after.dbi d = 0
  registry : ∀ entry, entry ∈ after.registry ↔
    entry ∈ before.registry ∧ world.dbi entry.2 ≠ 0
  silent : ∀ d, before.dbs.next ≤ d → d < world.dbs.next → ∀ ops later,
    Run Step Always after ops later → ∀ op next, op.database? = some d → Step later op next →
    PassesNoDbi later next

section Disposed

variable {world after : World runtime} {d : DbRef} {op : Op}

private theorem passesNoDbi_of_disposed (disposed : world.dbi d = 0) (named : op.database? = some d)
    (transition : Step world op after) : PassesNoDbi world after := by
  rcases database_disposed_step disposed named transition with rfl | ⟨_, rfl⟩
  · exact ⟨[], rfl, nofun⟩
  · refine ⟨[_], rfl, fun call member dbi given => ?_⟩
    rw [List.mem_singleton.mp member] at given
    simp at given

/-- A disposed database hands LMDB no database handle in any later call on it. -/
theorem silent_of_disposed (sound : WorldSound world) (known : d < world.dbs.next)
    (disposed : world.dbi d = 0) {allowed : World runtime → Op → Prop} {ops : List Op}
    {later next : World runtime} (run : Run Step allowed world ops later)
    (named : op.database? = some d) (transition : Step later op next) :
    PassesNoDbi later next := by
  have kept := run.invariant
    (fun current => WorldSound current ∧ d < current.dbs.next ∧ current.dbi d = 0)
    ⟨sound, known, disposed⟩ fun held _ transition => ⟨held.1.step transition,
      disposed_of_effect held.1.transactions.idle (effect_of_step transition) held.2.1 held.2.2⟩
  exact passesNoDbi_of_disposed kept.2.2 named transition

end Disposed

section Failure

variable {world before after : World runtime} {t : TxnRef} {op : Op} {ending : Ending}
  {result : Except Exception Returned}

/-- A failed end of a live transaction does nothing but close it. -/
theorem execute_failed (live : world.handle t ≠ 0) (ends : op.ending? = some (t, ending))
    (failed : ending.fate = .aborted) (executed : execute world op = some (result, after)) :
    after = closing t ending world := by
  obtain ⟨_, returned⟩ := execute_eq_some_iff.mp executed
  cases op with
  | commit _ answer =>
      cases ends
      obtain ⟨_, ran⟩ := void_cases returned
      have refused : answer.ret ≠ .success := fun succeeded => by
        simp [Ending.fate, succeeded] at failed
      obtain ⟨_, threw⟩ := commit_of_failed live refused
      cases ran.symm.trans threw
      rfl
  | disposeTransaction =>
      cases ends
      obtain ⟨_, ran⟩ := void_cases returned
      rw [Method.modify_apply, dispose_of_live live] at ran
      cases ran
      rfl
  | _ => cases ends

/-- Only `Abort` discards the new databases. -/
theorem forCommit_of_ending (ends : op.ending? = some (t, ending)) :
    op = .disposeTransaction t ∧ ending.forCommit = false ∨
      op ≠ .disposeTransaction t ∧ ending.forCommit = true := by
  cases op with
  | commit =>
      cases ends
      exact .inr ⟨nofun, rfl⟩
  | disposeTransaction =>
      cases ends
      exact .inl ⟨rfl, rfl⟩
  | _ => cases ends

private theorem SessionSound.discarded (session : SessionSound t before world) :
    discarded world t ending = if ending.forCommit then [] else world.newDatabases t := by
  unfold KdSoftLmdb.discarded
  rw [session.database]
  cases ending.forCommit <;> rfl

/-- The databases of a session are disposed afterwards if they were before, or
if the end discards them. -/
theorem SessionSound.closing_dbi_eq_zero (session : SessionSound t before world) {d : DbRef}
    (new : before.dbs.next ≤ d)
    (discards : ending.forCommit = false ∨ world.newDatabases t = []) :
    (closing t ending world).dbi d = 0 := by
  rw [DatabasesSound.closing_dbi, session.discarded]
  by_cases disposed : world.dbi d = 0
  · rw [disposed]
    exact ite_self 0
  · have member := (session.listed d).mpr ⟨new, disposed⟩
    rcases discards with dropped | empty
    · rw [dropped, if_neg Bool.false_ne_true, if_pos member]
    · rw [empty] at member
      cases member

end Failure

end KdSoftLmdb
