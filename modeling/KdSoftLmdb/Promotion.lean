import KdSoftLmdb.Session

/-!
# The commit of a database transaction

After the native commit the new databases move into the registry one by one. The
registry takes a name only once, whatever its case, but an open only looks at
the databases that are registered already. The loop therefore comes through
exactly when the names of the new databases differ; otherwise it stops at the
first repeated name, when the native commit cannot be undone any more.
-/

namespace KdSoftLmdb

variable {runtime : Runtime}

open Transaction (CommitAnswer)

/-- An open names no undisposed database that the transaction opened before,
whatever the case. -/
def OpensNewName (t : TxnRef) (world : World runtime) (op : Op) : Prop :=
  match op.open? with
  | some (_, some text) => ∀ d ∈ world.newDatabases t,
      runtime.ordinalIgnoreCase (world.dbName d) ≠ runtime.ordinalIgnoreCase text
  | _ => True

instance (t : TxnRef) (world : World runtime) (op : Op) : Decidable (OpensNewName t world op) := by
  unfold OpensNewName
  exact match op.open? with
  | some (_, some _) | some (_, none) | none => inferInstance

/-- The commit returned normally, and the registry is the one from the start of
the session less the databases disposed meanwhile plus the undisposed new ones. -/
structure CommitsInto (t : TxnRef) (before world : World runtime)
    (result : Except Exception Returned) (after : World runtime) : Prop where
  returned : result = .ok .nothing
  registry : ∀ entry, entry ∈ after.registry ↔
    entry ∈ before.registry ∧ world.dbi entry.2 ≠ 0 ∨
    before.dbs.next ≤ entry.2 ∧ world.dbi entry.2 ≠ 0 ∧ world.dbName entry.2 = entry.1
  dbi : ∀ d, after.dbi d = world.dbi d
  callback : ∀ d, before.dbs.next ≤ d → world.dbi d ≠ 0 → after.callback d = .databaseDisposed
  newDatabases : after.newDatabases t = []

section Commit

variable {world before : World runtime} {t : TxnRef} {answer : CommitAnswer}

/-- A committed database transaction promoted `done`; `rest` starts with a
database whose name is taken by then. -/
theorem execute_commit (sound : WorldSound world) (database : world.isDatabaseTransaction t = true)
    (live : world.handle t ≠ 0) (succeeded : answer.ret = .success) :
    ∃ result after done rest, execute world (.commit t answer) = some (result, after) ∧
      world.newDatabases t = done ++ rest ∧
      DatabasesSound.CommitLeaves t done rest world after ∧
      (result = .ok .nothing ∧ rest = [] ∨
        ∃ message d others, result = .error (.argument message) ∧ rest = d :: others ∧
          ∃ entry ∈ after.registry,
            runtime.ordinalIgnoreCase entry.1 = runtime.ordinalIgnoreCase (world.dbName d)) := by
  have typed : Op.typed world (.commit t answer) = true :=
    decide_eq_true (sound.transactions.bound live)
  obtain ⟨result, done, rest, middle, list, promoted, ran, outcome⟩ :=
    commit_of_database live succeeded database
  generalize finished : (if rest = [] then middle.onTxn t fun transaction =>
    { transaction with newDatabases := [] } else middle) = after at ran
  have leaves := DatabasesSound.commitLeaves promoted finished.symm
  rw [execute, if_pos typed, Op.body, void]
  rcases outcome with ⟨rfl, empty⟩ | ⟨message, d, others, rfl, shape, taken⟩
  · rw [Method.bind_of_ok ran]
    exact ⟨_, _, done, rest, rfl, list, leaves, .inl ⟨rfl, empty⟩⟩
  · rw [Method.bind_of_error ran]
    refine ⟨_, _, done, rest, rfl, list, leaves, .inr ⟨message, d, others, rfl, shape, ?_⟩⟩
    rw [if_neg (shape ▸ List.cons_ne_nil _ _)] at finished
    subst finished
    exact Dictionary.containsKey_iff.mp taken

/-- Two entries of the registry never have the same name, so a promotion that
came through had different names. -/
theorem distinct_of_committed {done : List DbRef} {after : World runtime}
    (leaves : DatabasesSound.CommitLeaves t done [] world after)
    (list : world.newDatabases t = done) : world.DistinctNames t := by
  have distinct := after.environment.databases.distinct
  rw [show after.environment.databases.entries = world.registry ++ entriesOf world done from
    leaves.registry, List.pairwise_append, entriesOf, List.pairwise_map] at distinct
  rw [World.DistinctNames, list]
  exact distinct.2.1

private theorem SessionSound.commitsInto_iff (session : SessionSound t before world)
    (succeeded : answer.ret = .success) :
    (∃ result after, execute world (.commit t answer) = some (result, after) ∧
      CommitsInto t before world result after) ↔ world.DistinctNames t := by
  obtain ⟨result, after, done, rest, ran, list, leaves, outcome⟩ :=
    execute_commit session.sound session.database session.live succeeded
  constructor
  · rintro ⟨result', after', ran', commits⟩
    cases ran.symm.trans ran'
    rcases outcome with ⟨_, rfl⟩ | ⟨_, _, _, threw, _⟩
    · exact distinct_of_committed leaves (by simpa using list)
    · cases threw.symm.trans commits.returned
  · intro distinct
    rcases outcome with ⟨returned, rfl⟩ | ⟨_, d, others, _, rfl, taken⟩
    · rw [List.append_nil] at list
      refine ⟨result, after, ran, returned, fun entry => ?_, leaves.dbi, fun d new open' => ?_, ?_⟩
      · rw [leaves.registry, List.mem_append, session.registry, DatabasesSound.mem_entriesOf,
          ← list, session.listed, and_assoc]
      · rw [leaves.callback, if_pos]
        rw [← list]
        exact (session.listed d).mpr ⟨new, open'⟩
      · rw [leaves.newDatabases, if_pos ⟨rfl, rfl⟩]
    · exact absurd taken (leaves.not_taken list distinct session.free)

end Commit

section Opens

variable {world before after : World runtime} {t : TxnRef} {op : Op}

/-- The names stay different while every open uses a new one. -/
theorem SessionSound.distinct_step (session : SessionSound t before world)
    (distinct : world.DistinctNames t) (within : InSession t op) (new : OpensNewName t world op)
    (transition : Step world op after) : after.DistinctNames t := by
  cases sessionEffect_of_effect within (effect_of_step transition) with
  | quiet => exact distinct
  | @opened text kind dbi native opens free =>
      have older {d : DbRef} (member : d ∈ world.newDatabases t) : d ≠ world.dbs.next :=
        Nat.ne_of_lt (session.sound.databases.bound d
          (session.sound.databases.pending t session.live d member).1)
      have name {d : DbRef} (member : d ∈ world.newDatabases t) :
          (world.added t kind dbi text native).dbName d = world.dbName d := by
        rw [World.dbName, added_dbs_of_ne (older member)]
        rfl
      rw [World.DistinctNames, added_newDatabases, List.pairwise_append]
      refine ⟨distinct.imp_of_mem fun left right different => ?_, List.pairwise_singleton _ _, ?_⟩
      · rw [name left, name right]
        exact different
      · intro d member e last
        rw [List.mem_singleton.mp last, name member, added_dbName]
        rw [OpensNewName, opens] at new
        exact new d member
  | gone live leaves =>
      have fewer : (after.newDatabases t).Sublist (world.newDatabases t) := by
        rw [leaves.newDatabases]
        split
        · exact List.erase_sublist
        · exact .refl _
      refine (distinct.sublist fewer).imp fun different => ?_
      rw [leaves.dbName, leaves.dbName]
      exact different

private theorem distinctNames_of_session (session : Session (OpensNewName t) t before world) :
    world.DistinctNames t := by
  refine (session.invariant (World.DistinctNames · t) (fun start => ?_) ?_).2
  · have empty : before.newDatabases t = [] := by
      refine List.eq_nil_iff_forall_not_mem.mpr fun d member => ?_
      obtain ⟨new, open'⟩ := (start.listed d).mp member
      exact Nat.not_lt_of_le new (start.sound.databases.bound d open')
    rw [World.DistinctNames, empty]
    exact .nil
  · exact fun sound distinct within new transition =>
      sound.distinct_step distinct within new transition

/-- An open of a registered name throws and changes none of the wrapper's objects. -/
theorem refused_of_registered {text : String} {result : Except Exception Returned}
    (opens : op.open? = some (t, some text))
    (taken : world.environment.databases.containsKey text = true)
    (executed : execute world op = some (result, after)) :
    (∃ exception, result = .error exception) ∧
      ∃ native, after = { world with native := native } := by
  obtain ⟨_, returned⟩ := execute_eq_some_iff.mp executed
  obtain ⟨inner, ends, rfl⟩ := open_cases opens returned
  rcases ends with ⟨exception, native, rfl, same, _⟩ | ⟨text', _, _, named, free, _⟩
  · exact ⟨⟨exception, rfl⟩, native, same⟩
  · cases named
    cases taken.symm.trans free

end Opens

end KdSoftLmdb
