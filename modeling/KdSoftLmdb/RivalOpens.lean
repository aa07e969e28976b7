import KdSoftLmdb.Commits
import KdSoftLmdb.Threads.Naming

/-!
# Two threads that open one name

`activeDbTxn` is never set, so what keeps two database transactions apart is
LMDB's writer lock alone, and it is free again as soon as the native commit is
done. The second transaction can then check a name before the first one's
`Committed` has registered it: both get a database object, LMDB gives both the
same handle, and the second commit fails on the name after LMDB has made it.
-/

namespace KdSoftLmdb

variable {runtime : Runtime} {τ : Type}

/-- The condition on the steps of the threads. -/
def Unraced (observed : Observed τ runtime) : τ × Action Op → Prop
  | (_, .call _) => True
  | (thread, .advance) =>
      ∀ frame ∈ observed.pool.frames thread, frame.Unraced observed.pool

instance [Fintype τ] (pool : Threads τ runtime) :
    ∀ frame : Frame, Decidable (frame.Unraced pool) := by
  intro frame
  apply frame.casesOn (motive := fun frame => Decidable (frame.Unraced pool)) <;> intros <;>
    unfold Frame.Unraced <;> infer_instance

instance [Fintype τ] (observed : Observed τ runtime) :
    ∀ label : τ × Action Op, Decidable (Unraced observed label)
  | (_, .call _) => .isTrue trivial
  | (thread, .advance) => inferInstanceAs
      (Decidable (∀ frame ∈ observed.pool.frames thread, frame.Unraced observed.pool))

/-- A `Commit` whose native commit succeeded returned, with the databases that
were opened in the transaction registered. -/
def CommitRegisters (report : Report τ (World runtime) Frame Op (Except Exception Returned)) :
    Prop :=
  ∀ t answer, report.call = .commit t answer →
    (report.shared.nativeTxn t, .commit answer) ∈ nativeEnds report.passed →
    answer.ret = .success → report.result = .ok .nothing ∧
      ∀ d, report.shared.dbi d ≠ 0 → (report.shared.dbs.obj d).openedIn = t →
        (report.shared.dbName d, d) ∈ report.shared.registry

/-- The steps that an end has still to make after the native one, at most. -/
def Frame.endStepsLeft : Frame → Nat
  | release .. => 3
  | callback .. => 2
  | committed _ => 1
  | _ => 0

/-- No two undisposed databases have the same name, a name that one of them has is
refused, and what LMDB commits is registered. -/
structure OpensApart (observed : Observed τ runtime) : Prop where
  names : ∀ d e, observed.pool.shared.dbi d ≠ 0 → observed.pool.shared.dbi e ≠ 0 →
    runtime.sameName (observed.pool.shared.dbName d) (observed.pool.shared.dbName e) → d = e
  refused : ∀ thread call name d, observed.pool.frames thread = some (.nameCheck call) →
    call.name = some name → observed.pool.shared.dbi d ≠ 0 →
    runtime.sameName (observed.pool.shared.dbName d) name → Unraced observed (thread, .advance) →
    (machine runtime).advance (.nameCheck call) observed.pool.shared =
      some (.finish (.error (.lmdbText s!"Database '{name}' exists already.")),
        observed.pool.shared)
  registers : ∀ report ∈ observed.reports, CommitRegisters report
  onward : ∀ thread frame, observed.pool.frames thread = some frame → 0 < frame.endStepsLeft →
    ∃ progress after, (machine runtime).advance frame observed.pool.shared =
      some (progress, after) ∧
        ∀ next, progress = .more next → next.endStepsLeft < frame.endStepsLeft

section Steps

variable {world after : World runtime} {frame : Frame} {t : TxnRef}

/-- After the native call an end can always go on. -/
theorem endStep (sound : NamesSound world) (ends : 0 < frame.endStepsLeft) :
    ∃ progress after, (machine runtime).advance frame world = some (progress, after) ∧
      ∀ next, progress = .more next → next.endStepsLeft < frame.endStepsLeft := by
  cases frame
  case release t txnId ending =>
    refine ⟨_, _, rfl, ?_⟩
    rintro _ ⟨⟩
    simp [Frame.endStepsLeft]
  case callback t txnId ending =>
    cases ending with
    | abort => exact ⟨_, _, rfl, by rintro _ ⟨⟩⟩
    | commit answer =>
        dsimp only [machine]
        rw [Frame.advance, Frame.body, Method.modify_bind]
        by_cases succeeded : answer.ret = .success
        · rw [succeeded, Method.bind_of_ok (checkRetCode_success _)]
          refine ⟨_, _, rfl, ?_⟩
          rintro _ ⟨⟩
          simp [Frame.endStepsLeft]
        · obtain ⟨message, threw⟩ := checkRetCode_failed succeeded
            (Transaction.invokeDisposed t txnId world)
          rw [Method.bind_of_error threw]
          exact ⟨_, _, rfl, by rintro _ ⟨⟩⟩
  case committed t =>
    obtain ⟨after, through⟩ := committed_of_promotesAll fun _ => sound.promotesAll t
    rw [advance_committed, through]
    exact ⟨_, _, rfl, by rintro _ ⟨⟩⟩
  all_goals exact absurd ends (Nat.lt_irrefl 0)

/-- The check finds a name that an undisposed database has, unless it is raced. -/
theorem refused_of_unraced {pool : Threads τ runtime} (sound : NamesSound pool.shared)
    {call : OpenCall} {name : String} (named : call.name = some name)
    (unraced : (Frame.nameCheck call).Unraced pool) {d : DbRef} (live : pool.shared.dbi d ≠ 0)
    (same : runtime.sameName (pool.shared.dbName d) name) :
    (machine runtime).advance (.nameCheck call) pool.shared =
      some (.finish (.error (.lmdbText s!"Database '{name}' exists already.")), pool.shared) := by
  have taken : pool.shared.environment.databases.containsKey name = true := by
    rcases sound.undisposed d live with ⟨t, listed⟩ | ⟨entry, member, rfl⟩
    · exact absurd same ((unraced name named).1 t (sound.known_of_listed listed) d listed)
    · refine Dictionary.containsKey_iff.mpr ⟨entry, member, ?_⟩
      rw [← (sound.registered entry member).1]
      exact same
  dsimp only [machine]
  rw [Frame.advance, Frame.body, Method.get_bind, named]
  dsimp only
  rw [if_pos taken]
  rfl

/-- A commit that LMDB has made ends with the promotion, which comes through. -/
theorem registers_of_finish (sound : NamesSound world) (persists : Persists world after)
    {answer : Transaction.CommitAnswer} {passed : List Frame}
    {result : Except Exception Returned}
    (tells : frame.Tells world t (.commit answer) (nativeEnds passed))
    (stepped : (machine runtime).advance frame world = some (.finish result, after))
    (made : (after.nativeTxn t, .commit answer) ∈ nativeEnds (frame :: passed))
    (succeeded : answer.ret = .success) : result = .ok .nothing ∧
      ∀ d, after.dbi d ≠ 0 → (after.dbs.obj d).openedIn = t →
        (after.dbName d, d) ∈ after.registry := by
  have quiet (silent : frame.ended? = none) : nativeEnds (frame :: passed) = nativeEnds passed :=
    List.filterMap_cons_none silent
  generalize nativeEnds passed = ends at tells quiet
  cases tells with
  | commit | exchange | endId =>
      rw [quiet rfl] at made
      cases made
  | nativeEnd | release => cases stepped
  | callback =>
      cases moves_of_advance stepped with
      | commitFailed failed => exact absurd succeeded failed
      | failed fails => cases fails
  | committed =>
      rw [advance_committed] at stepped
      obtain ⟨⟨outcome, _⟩, returned, equal⟩ := Option.map_eq_some_iff.mp stepped
      cases equal
      obtain ⟨rfl, promotes⟩ := sound.promotes_of_committed returned
      have sound := sound.promotes persists promotes
      refine ⟨rfl, fun d live own => ?_⟩
      rcases sound.undisposed d live with ⟨u, listed⟩ | ⟨entry, member, rfl⟩
      · have same : u = t := (sound.pending u d listed).2.symm.trans own
        rw [promotes.lists, if_pos same] at listed
        cases listed
      · rw [(sound.registered entry member).1]
        exact member

end Steps

/-- What holds of every run in which no check of a name is raced. -/
structure OpensSound (start : World runtime) (observed : Observed τ runtime) : Prop where
  commits : CommitsSound start observed
  naming : NamingSound observed.pool
  registers : ∀ report ∈ observed.reports, CommitRegisters report

namespace OpensSound

private theorem idle (flags : LmdbEnvironmentOptions) (lastTxnId : Nat) :
    OpensSound (World.opened runtime flags lastTxnId)
      (.idle τ (World.opened runtime flags lastTxnId) : Observed τ runtime) where
  commits := .idle ⟨flags, lastTxnId, [], .nil⟩
  naming := .idle flags lastTxnId
  registers report member := by cases member

variable {start : World runtime} {observed after : Observed τ runtime} {label : τ × Action Op}

private theorem opensApart (sound : OpensSound start observed) : OpensApart observed where
  names d e live live' equal :=
    sound.naming.names.distinct d e (sound.naming.names.undisposed d live)
      (sound.naming.names.undisposed e live') equal
  refused thread call name d here named live same unraced := by
    exact refused_of_unraced sound.naming.names named (unraced _ here) live same
  registers := sound.registers
  onward thread frame _ ends := endStep sound.naming.names ends

variable [DecidableEq τ]

private theorem step (sound : OpensSound start observed) (unraced : Unraced observed label)
    (step : observed.Step (machine runtime) label after) : OpensSound start after := by
  have commits := sound.commits.step step
  cases step with
  | call idle enters => exact ⟨commits, sound.naming.enter enters, sound.registers⟩
  | @advance thread frame progress shared call passed here within unlocked stepped =>
      have unraced := unraced frame here
      refine ⟨commits, sound.naming.advance here unraced stepped, fun report member => ?_⟩
      rcases Watched.mem_reports_advanced member with earlier | ⟨result, rfl, rfl⟩
      · exact sound.registers report earlier
      · intro t answer isCommit made succeeded
        dsimp only at isCommit
        subst isCommit
        obtain ⟨_, tells⟩ := sound.commits.calls thread frame _ passed here within t _ rfl
        exact registers_of_finish sound.naming.names (persists_of_advance stepped) tells stepped
          made succeeded

end OpensSound

/-- In every run in which no name is checked while another thread opens it, or
has opened it in a transaction that is not promoted yet, databases of one name
are never there twice and all that LMDB commits is registered. -/
theorem opens_apart [DecidableEq τ] {flags : LmdbEnvironmentOptions} {lastTxnId : Nat}
    {observed : Observed τ runtime} {labels : List (τ × Action Op)}
    (run : Run (Watched.Step (machine runtime)) Unraced
      (.idle τ (World.opened runtime flags lastTxnId)) labels observed) :
    OpensApart observed := by
  have sound := run.invariant (OpensSound (World.opened runtime flags lastTxnId))
    (.idle flags lastTxnId) fun held condition step => held.step condition step
  exact sound.opensApart

/-- A thread begins a database transaction, which becomes `t`, and opens a database,
in the slot that LMDB uses if the name is new. -/
def opensOn (thread : Bool) (t : TxnRef) (name : String) (slot : Nat) : List (Bool × Action Op) :=
  (thread, .call (.beginDatabaseTransaction .none none .success)) ::
    List.replicate 3 (thread, .advance) ++
    (thread, .call (.openDatabase t (some name) (some ⟨0, none, none⟩)
      ⟨.success, slot, .success, .success⟩)) :: List.replicate 6 (thread, .advance)

/-- A thread commits; the native commit is its fourth step, the promotion its seventh. -/
def commitsOn (thread : Bool) (t : TxnRef) (steps : Nat) : List (Bool × Action Op) :=
  (thread, .call (.commit t ⟨.success, true⟩)) :: List.replicate steps (thread, .advance)

/-- The report is that of an open which found the name taken. -/
def Report.nameRefused (name : String)
    (report : Report τ (World runtime) Frame Op (Except Exception Returned)) : Bool :=
  match report.call, report.result with
  | .openDatabase .., .error (.lmdbText text) => text = s!"Database '{name}' exists already."
  | _, _ => false

/-- The second transaction opens another name before the first one's promotion and has it; it
opens the same name after the promotion and is refused. -/
theorem opens_apart_other_name :
    (∃ observed : Observed Bool .ascii, OpensApart observed ∧
      observed.pool.shared.registry = [("a", 0), ("b", 1)]) ∧
    ∃ observed : Observed Bool .ascii, OpensApart observed ∧
      observed.reports.any (Report.nameRefused "a") = true ∧
      observed.pool.shared.registry = [("a", 0)] := by
  constructor
  · obtain ⟨observed, run, registered⟩ := Watched.watched_of_replay (machine .ascii) Unraced
      (.idle Bool (World.opened .ascii .none 0))
      (opensOn false 0 "a" 2 ++ commitsOn false 0 4 ++ opensOn true 1 "b" 3 ++
        List.replicate 3 (false, .advance) ++ commitsOn true 1 7)
      (fun observed => observed.pool.shared.registry = [("a", 0), ("b", 1)]) (by decide +kernel)
    exact ⟨observed, opens_apart run, registered⟩
  · obtain ⟨observed, run, refused⟩ := Watched.watched_of_replay (machine .ascii) Unraced
      (.idle Bool (World.opened .ascii .none 0))
      (opensOn false 0 "a" 2 ++ commitsOn false 0 7 ++ (opensOn true 1 "a" 2).take 6)
      (fun observed => observed.reports.any (Report.nameRefused "a") = true ∧
        observed.pool.shared.registry = [("a", 0)]) (by decide +kernel)
    exact ⟨observed, opens_apart run, refused⟩

/-- The report is that of a `Commit` that threw. -/
def Report.commitThrew (report : Report τ (World runtime) Frame Op (Except Exception Returned)) :
    Bool :=
  match report.call, report.result with
  | .commit _ _, .error (.argument _) => true
  | _, _ => false

/-- The second transaction opens the name between the first one's native commit
and its promotion: two databases have the name, and the second commit throws
although LMDB has made it. -/
theorem rival_opens : ∃ observed : Observed Bool .ascii,
    Run (Watched.Step (machine .ascii)) Always (.idle Bool (World.opened .ascii .none 0))
      (opensOn false 0 "a" 2 ++ commitsOn false 0 4 ++ opensOn true 1 "a" 2 ++
        List.replicate 3 (false, .advance) ++ commitsOn true 1 7) observed ∧
    (observed.pool.shared.native.txns.obj 2).fate = .committed ∧
    observed.reports.any Report.commitThrew = true ∧ ¬OpensApart observed := by
  obtain ⟨observed, run, fate, threw, first, second, same⟩ := Watched.watched_of_replay
    (machine .ascii) Always (.idle Bool (World.opened .ascii .none 0))
    (opensOn false 0 "a" 2 ++ commitsOn false 0 4 ++ opensOn true 1 "a" 2 ++
      List.replicate 3 (false, .advance) ++ commitsOn true 1 7)
    (fun observed => (observed.pool.shared.native.txns.obj 2).fate = .committed ∧
      observed.reports.any Report.commitThrew = true ∧ observed.pool.shared.dbi 0 ≠ 0 ∧
      observed.pool.shared.dbi 1 ≠ 0 ∧ Runtime.sameName .ascii
        (observed.pool.shared.dbName 0) (observed.pool.shared.dbName 1)) (by decide +kernel)
  refine ⟨observed, run, fate, threw, fun apart => ?_⟩
  cases apart.names 0 1 first second same

end KdSoftLmdb
