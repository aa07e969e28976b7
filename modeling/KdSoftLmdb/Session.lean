import KdSoftLmdb.Invariants.Reachable

/-!
# The session of a database transaction

A session starts where a database transaction without a parent has just begun,
and goes on with the calls that open databases in it and dispose or drop
databases. `SessionSound` relates every later state of the session to its start:
the transaction lists exactly the undisposed databases that were opened in the
session, and the registry has lost exactly the databases disposed meanwhile.
-/

namespace KdSoftLmdb

variable {runtime : Runtime}

/-- The calls of a session. -/
def InSession (t : TxnRef) : Op → Prop
  | .openDatabase u _ _ _ | .openMultiValueDatabase u _ _ _
  | .openFixedMultiValueDatabase u _ _ _ => u = t
  | .disposeDatabase _ | .drop _ _ _ => True
  | _ => False

instance (t : TxnRef) : DecidablePred (InSession t) := by
  intro op
  apply op.casesOn (motive := fun op => Decidable (InSession t op)) <;> intros <;>
    unfold InSession <;> infer_instance

/-- A session of `t` that started in `before` and whose calls meet a condition
has come to `world`. -/
structure Session (allowed : World runtime → Op → Prop) (t : TxnRef)
    (before world : World runtime) : Prop where
  start : ∃ prior modes, Reachable prior ∧
    execute prior (.beginDatabaseTransaction modes none .success) =
      some (.ok (.transaction t), before)
  run : ∃ ops, Run Step (fun current op => InSession t op ∧ allowed current op) before ops world

/-- What holds of every state of a session. -/
structure SessionSound (t : TxnRef) (before world : World runtime) : Prop where
  sound : WorldSound world
  opened : world.environment.env ≠ 0
  database : world.isDatabaseTransaction t = true
  live : world.handle t ≠ 0
  known : before.dbs.next ≤ world.dbs.next
  older : ∀ entry ∈ before.registry, entry.2 < before.dbs.next
  listed : ∀ d, d ∈ world.newDatabases t ↔ before.dbs.next ≤ d ∧ world.dbi d ≠ 0
  registry : ∀ entry, entry ∈ world.registry ↔
    entry ∈ before.registry ∧ world.dbi entry.2 ≠ 0
  free : ∀ d ∈ world.newDatabases t, ∀ entry ∈ world.registry,
    runtime.ordinalIgnoreCase entry.1 ≠ runtime.ordinalIgnoreCase (world.dbName d)

/-- What one call of a session does to the databases. -/
inductive SessionEffect (t : TxnRef) (world : World runtime) (op : Op) :
    World runtime → Prop where
  | quiet (native : Native) : SessionEffect t world op { world with native := native }
  | opened {text kind dbi native} (opens : op.open? = some (t, some text))
      (free : world.environment.databases.containsKey text = false) :
      SessionEffect t world op (world.added t kind dbi text native)
  | gone {d after} (live : world.dbi d ≠ 0) (leaves : DatabasesSound.DisposalLeaves d world after) :
      SessionEffect t world op after

section Step

variable {world after before : World runtime} {t : TxnRef} {op : Op}

private theorem open_inSession {u : TxnRef} {name : Option String} (within : InSession t op)
    (opens : op.open? = some (u, name)) : u = t := by
  cases op
  case openDatabase | openMultiValueDatabase | openFixedMultiValueDatabase =>
    cases opens
    exact within
  all_goals cases opens

/-- What a call of a session does to its databases. -/
theorem sessionEffect_of_effect (within : InSession t op) (effect : Effect world op after) :
    SessionEffect t world op after := by
  have noBegin : op.begin? = none := by cases op <;> first | rfl | exact within.elim
  have noEnd : op.ending? = none := by cases op <;> first | rfl | exact within.elim
  cases effect with
  | recorded => exact .quiet _
  | openFailed => exact .quiet _
  | opened opens _ _ free =>
      cases open_inSession within opens
      exact .opened opens free
  | databaseGone _ live => exact .gone live (DatabasesSound.disposalLeaves _ _ _)
  | begun begin | begunTaken begin | begunLeaked begin => cases noBegin.symm.trans begin
  | closed ends => cases noEnd.symm.trans ends
  | reader _ _ _ changes =>
      rcases changes with ⟨rfl, _⟩ | ⟨⟨_, rfl⟩, _⟩ <;> exact within.elim
  | begunDatabase | promoted | cursorOpened | cursorGone | cursorRenewed | environmentDisposed =>
      exact within.elim

private theorem SessionSound.quiet (session : SessionSound t before world)
    {native : Native} (sound : WorldSound { world with native := native }) :
    SessionSound t before { world with native := native } :=
  ⟨sound, session.opened, session.database, session.live, session.known, session.older,
    session.listed, session.registry, session.free⟩

/-- The new database is listed last. -/
theorem added_newDatabases {kind : DatabaseKind} {dbi : Nat} {text : String} {native : Native} :
    (world.added t kind dbi text native).newDatabases t =
      world.newDatabases t ++ [world.dbs.next] := by
  rw [World.newDatabases, added_txns, Heap.modify_obj_self]
  rfl

/-- It has the name under which it was opened. -/
theorem added_dbName {kind : DatabaseKind} {dbi : Nat} {text : String} {native : Native} :
    (world.added t kind dbi text native).dbName world.dbs.next = text :=
  congrArg Database.name (Heap.alloc_obj_next _ _)

private theorem SessionSound.added (session : SessionSound t before world) {kind : DatabaseKind}
    {dbi : Nat} {text : String} {native : Native}
    (free : world.environment.databases.containsKey text = false)
    (sound : WorldSound (world.added t kind dbi text native)) :
    SessionSound t before (world.added t kind dbi text native) := by
  have older {d : DbRef} (live : world.dbi d ≠ 0) : d ≠ world.dbs.next :=
    Nat.ne_of_lt (session.sound.databases.bound d live)
  have live : (world.added t kind dbi text native).handle t ≠ 0 := by
    rw [added_handle]
    exact session.live
  have pending := sound.databases.pending t live
  rw [added_newDatabases] at pending
  refine ⟨sound, session.opened, ?_, live, Nat.le_succ_of_le session.known,
    session.older, fun d => ?_, fun entry => ?_, fun d member entry registered => ?_⟩
  · rw [added_isDatabaseTransaction]
    exact session.database
  · rw [added_newDatabases, List.mem_append, List.mem_singleton]
    by_cases new : d = world.dbs.next
    · refine ⟨fun _ => ⟨new ▸ session.known, ?_⟩, fun _ => .inr new⟩
      exact (pending d (List.mem_append_right _ (List.mem_singleton.mpr new))).1
    · rw [World.dbi, added_dbs_of_ne new, session.listed]
      exact ⟨fun either => either.resolve_right new, .inl⟩
  · have same : entry ∈ (world.added t kind dbi text native).registry ↔ entry ∈ world.registry :=
      .rfl
    rw [same]
    constructor
    · intro member
      have registered := session.sound.databases.registered entry member
      rw [World.dbi, added_dbs_of_ne (older registered.1)]
      exact (session.registry entry).mp member
    · rintro ⟨member, open'⟩
      refine (session.registry entry).mpr ⟨member, ?_⟩
      have old : entry.2 ≠ world.dbs.next :=
        Nat.ne_of_lt (Nat.lt_of_lt_of_le (session.older entry member) session.known)
      rw [World.dbi, added_dbs_of_ne old] at open'
      exact open'
  · have held : entry ∈ world.registry := registered
    rw [added_newDatabases, List.mem_append, List.mem_singleton] at member
    rcases member with old | new
    · have before := session.sound.databases.pending t session.live d old
      rw [World.dbName, added_dbs_of_ne (older before.1)]
      exact session.free d old entry held
    · rw [new, added_dbName]
      exact Dictionary.containsKey_eq_false_iff.mp free entry held

private theorem SessionSound.gone (session : SessionSound t before world) {d : DbRef}
    (live : world.dbi d ≠ 0) (sound : WorldSound after)
    (leaves : DatabasesSound.DisposalLeaves d world after) : SessionSound t before after := by
  have fewer {e : DbRef} (member : e ∈ after.newDatabases t) : e ∈ world.newDatabases t := by
    rw [leaves.newDatabases] at member
    split at member
    · exact List.mem_of_mem_erase member
    · exact member
  have handle : after.handle t ≠ 0 := by
    rw [leaves.handle]
    exact session.live
  refine ⟨sound, by rw [leaves.env]; exact session.opened, by rw [leaves.kind]; exact session.database,
    handle, by rw [leaves.next]; exact session.known, session.older, fun e => ?_, fun entry => ?_,
    fun e member entry registered => ?_⟩
  · constructor
    · intro member
      exact ⟨((session.listed e).mp (fewer member)).1,
        (sound.databases.pending t handle e member).1⟩
    · rintro ⟨new, open'⟩
      rw [leaves.dbi] at open'
      split at open'
      · exact (open' rfl).elim
      · have member := (session.listed e).mpr ⟨new, open'⟩
        rw [leaves.newDatabases]
        split
        · exact (List.mem_erase_of_ne ‹_›).mpr member
        · exact member
  · constructor
    · intro member
      exact ⟨((session.registry entry).mp ((leaves.registry entry).mp member).1).1,
        (sound.databases.registered entry member).1⟩
    · rintro ⟨member, open'⟩
      rw [leaves.dbi] at open'
      split at open'
      · exact (open' rfl).elim
      · rename_i different
        have registered := (session.registry entry).mpr ⟨member, open'⟩
        refine (leaves.registry entry).mpr ⟨registered, fun callback same => different ?_⟩
        have own := session.sound.databases.promoted session.opened d live callback
        exact congrArg Prod.snd (Dictionary.entry_unique registered own same)
  · rw [leaves.dbName]
    exact session.free e (fewer member) entry ((leaves.registry entry).mp registered).1

private theorem SessionSound.step (session : SessionSound t before world) (within : InSession t op)
    (transition : Step world op after) : SessionSound t before after := by
  have sound := session.sound.step transition
  cases sessionEffect_of_effect within (effect_of_step transition) with
  | quiet => exact session.quiet sound
  | opened _ free => exact session.added free sound
  | gone live leaves => exact session.gone live sound leaves

/-- A session starts without databases of its own. -/
theorem SessionSound.begun {prior : World runtime} {modes : TransactionModes}
    (sound : WorldSound prior) (begun : execute prior
      (.beginDatabaseTransaction modes none .success) = some (.ok (.transaction t), before)) :
    SessionSound t before before := by
  have after := sound.step ⟨_, begun⟩
  obtain ⟨_, returned⟩ := execute_eq_some_iff.mp begun
  obtain ⟨inner, ran, equal⟩ := returning_cases returned
  rcases beginDatabaseTransaction_cases ran with
    ⟨_, _, rfl, _⟩ | ⟨native, _, _, _, begins, rfl, rfl⟩
  · cases equal
  cases equal
  have empty : (prior.begun .databaseTransaction none prior.environment.transactions
      native).newDatabases prior.txns.next = [] := by rw [World.newDatabases, begun_txn_new]
  refine ⟨after, begins.opened, ?_, ?_, Nat.le_refl _, fun entry member => ?_, fun d => ?_,
    fun entry => ?_, fun d member => ?_⟩
  · rw [World.isDatabaseTransaction, begun_txn_new]
    rfl
  · rw [World.handle, begun_txn_new]
    exact Nat.ne_of_gt sound.natives.positive.1
  · exact after.databases.bound _ (after.databases.registered entry member).1
  · rw [empty]
    constructor
    · simp
    · rintro ⟨new, open'⟩
      exact absurd (after.databases.bound d open') (Nat.not_lt_of_le new)
  · exact ⟨fun member => ⟨member, (after.databases.registered entry member).1⟩, And.left⟩
  · rw [empty] at member
    cases member

end Step

section Run

variable {world before : World runtime} {t : TxnRef} {allowed : World runtime → Op → Prop}

/-- The invariant of a session, together with one that the condition on its calls gives. -/
theorem Session.invariant (session : Session allowed t before world)
    (holds : World runtime → Prop) (initial : SessionSound t before before → holds before)
    (preserved : ∀ {current op after}, SessionSound t before current → holds current →
      InSession t op → allowed current op → Step current op after → holds after) :
    SessionSound t before world ∧ holds world := by
  obtain ⟨⟨prior, modes, reachable, begun⟩, ops, run⟩ := session
  have start := SessionSound.begun (reachable_sound reachable) begun
  refine run.invariant (fun current => SessionSound t before current ∧ holds current)
    ⟨start, initial start⟩ ?_
  rintro current op after ⟨sound, held⟩ ⟨within, condition⟩ transition
  exact ⟨sound.step within transition, preserved sound held within condition transition⟩

/-- The run lemma. -/
theorem Session.sound (session : Session allowed t before world) : SessionSound t before world :=
  (session.invariant (fun _ => True) (fun _ => trivial) fun _ _ _ _ _ => trivial).1

end Run

/-- The state in which the first transaction of a new environment has begun, a
database transaction. -/
def sessionStart (flags : LmdbEnvironmentOptions) (lastTxnId : Nat) : Option (World runtime) :=
  match execute (World.opened runtime flags lastTxnId)
      (.beginDatabaseTransaction .none none .success) with
  | some (.ok (.transaction 0), before) => some before
  | _ => none

/-- An open of a plain database that LMDB accepts, in the slot it uses if the name is new. -/
def plainOpen (t : TxnRef) (name : String) (slot : Nat) : Op :=
  .openDatabase t (some name) (some ⟨0, none, none⟩) ⟨.success, slot, .success, .success⟩

/-- Replaying calls in the first transaction gives a session. -/
theorem session_of_replay (allowed : World runtime → Op → Prop)
    [∀ world op, Decidable (allowed world op)] (flags : LmdbEnvironmentOptions) (lastTxnId : Nat)
    (ops : List Op) (holds : World runtime → World runtime → Prop)
    [∀ before world, Decidable (holds before world)]
    (observed : ((sessionStart flags lastTxnId).any fun before =>
      (replay stepTo (fun current op => decide (InSession 0 op ∧ allowed current op)) before
        ops).any fun world => decide (holds before world)) = true) :
    ∃ before world, Session allowed 0 before world ∧ holds before world := by
  cases started : (sessionStart flags lastTxnId : Option (World runtime)) with
  | none => simp [started] at observed
  | some before =>
      rw [started, Option.any_some] at observed
      cases replayed : replay stepTo
          (fun current op => decide (InSession 0 op ∧ allowed current op)) before ops with
      | none =>
          rw [replayed] at observed
          cases observed
      | some world =>
          rw [replayed] at observed
          refine ⟨before, world, ⟨⟨_, .none, ⟨flags, lastTxnId, [], .nil⟩, ?_⟩,
            ops, run_of_replay step_of_stepTo of_decide_eq_true replayed⟩,
            of_decide_eq_true observed⟩
          unfold sessionStart at started
          split at started
          · cases started
            assumption
          · cases started

end KdSoftLmdb
