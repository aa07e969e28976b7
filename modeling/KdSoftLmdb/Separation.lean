import KdSoftLmdb.Effects.Disposed
import KdSoftLmdb.Invariants.Slots
import KdSoftLmdb.Session

/-!
# Database objects that share a handle

`mdb_dbi_open` gives the handle of an open name again. An open is only refused
when the registry has the name, whatever its case, so a name that is still new in
the transaction gives a second object over the first one's handle, and disposing
one closes the other. Opens of unused names keep the objects apart.
-/

namespace KdSoftLmdb

variable {runtime : Runtime}

/-- Transactions follow each other without nesting, while the environment is open. -/
def InSuccession : Op → Prop
  | .beginTransaction _ parent _ | .beginReadOnlyTransaction _ parent _
  | .beginDatabaseTransaction _ parent _ => parent = none
  | .disposeEnvironment _ => False
  | _ => True

/-- A commit of new databases succeeds. -/
def CommitsNew (world : World runtime) : Op → Prop
  | .commit t answer =>
      world.handle t = 0 ∨ world.newDatabases t = [] ∨ answer.ret = .success
  | _ => True

/-- Calls in succession that keep the database objects apart. -/
def Separates (world : World runtime) (op : Op) : Prop :=
  InSuccession op ∧ OpensUnused world op ∧ CommitsNew world op

instance : ∀ op : Op, Decidable (InSuccession op) := by
  intro op
  apply op.casesOn (motive := fun op => Decidable (InSuccession op)) <;> intros <;>
    unfold InSuccession <;> infer_instance

instance (world : World runtime) : ∀ op : Op, Decidable (CommitsNew world op) := by
  intro op
  apply op.casesOn (motive := fun op => Decidable (CommitsNew world op)) <;> intros <;>
    unfold CommitsNew <;> infer_instance

instance (world : World runtime) (op : Op) : Decidable (Separates world op) :=
  inferInstanceAs (Decidable (_ ∧ _ ∧ _))

/-- Calls in succession begin no nested transaction. -/
theorem roots_of_effect {world after : World runtime} {op : Op}
    (idle : world.environment.activeDbTxn = none) (succession : InSuccession op)
    (roots : ∀ t, world.parent t = none) (effect : Effect world op after) (t : TxnRef) :
    after.parent t = none := by
  rcases transactions_of_effect idle effect with
    ⟨kind, modes, parent, registry, native, creates, _, _, rfl⟩ | same
  · have root : parent = none := by
      cases creates with
      | database => exact succession
      | plain begin =>
          cases op with
          | beginTransaction | beginReadOnlyTransaction =>
              cases begin
              exact succession
          | _ => cases begin
    rw [World.parent, begun_txn]
    split
    · exact root
    · exact roots t
  · exact (same.object t).parent.trans (roots t)

/-- The call opens a database, or is made on another database than `e`. -/
def OnOther (e : DbRef) (op : Op) : Prop :=
  op.open? ≠ none ∨ ∃ d, op.database? = some d ∧ d ≠ e

/-- What holds of every state of a history that separates. -/
structure SeparateSound (world : World runtime) : Prop where
  slots : SlotsSound world
  roots : ∀ t, world.parent t = none
  opened : world.environment.env ≠ 0

namespace SeparateSound

variable {world after : World runtime} {op : Op}

private theorem settles (sound : SeparateSound world) (separates : Separates world op) :
    Settles world op := by
  obtain ⟨succession, unused, commits⟩ := separates
  have ancestors (t : TxnRef) : world.ancestors t = [] :=
    TransactionsSound.ancestors_of_root (sound.roots t)
  have childless (t : TxnRef) : world.NoLiveDescendant t := fun u _ _ member => by
    rw [ancestors] at member
    cases member
  have committed (t : TxnRef) : world.AncestorsCommitted t := fun u member => by
    rw [ancestors] at member
    cases member
  refine ⟨?_, ?_, unused, ?_⟩
  · cases op with
    | commit t | disposeTransaction t => exact .inr (childless t)
    | disposeEnvironment => exact succession.elim
    | _ => trivial
  · cases op with
    | commit t =>
        exact commits.imp_right (Or.imp_right fun succeeded =>
          ⟨succeeded, sound.opened, committed t⟩)
    | _ => trivial
  · unfold OpensUnaborted
    split
    · refine .inr (.inr fun u member => ?_)
      rw [ancestors] at member
      cases member
    · trivial

private theorem effect (sound : SeparateSound world) (separates : Separates world op)
    (effect : Effect world op after) : SeparateSound after := by
  have natives := sound.slots.nesting.sound.natives
  refine ⟨sound.slots.effect (sound.settles separates) effect, ?_, ?_⟩
  · exact roots_of_effect sound.slots.nesting.sound.transactions.idle separates.1 sound.roots effect
  · cases treeEffect_of_effect natives effect with
    | begun _ _ begins equal => exact equal ▸ sound.opened
    | ended _ _ leaves => exact leaves.env ▸ sound.opened
    | disposed dispose =>
        subst dispose
        exact separates.1.elim
    | kept keeps => exact keeps.env ▸ sound.opened

private theorem of_history {flags : LmdbEnvironmentOptions} {lastTxnId : Nat} {ops : List Op}
    (history : History Separates flags lastTxnId ops world) : SeparateSound world :=
  history.invariant SeparateSound ⟨.start flags lastTxnId, fun _ => rfl, Nat.one_ne_zero⟩
    fun held separates transition => held.effect separates (effect_of_step transition)

/-- A call on one database, or an open, leaves the handle and the slot of every
other undisposed database alone. -/
theorem slot_kept (sound : SeparateSound world) (separates : Separates world op)
    (effect : Effect world op after) {e : DbRef} (other : OnOther e op) (live : world.dbi e ≠ 0) :
    after.dbi e = world.dbi e ∧ after.slot e = world.slot e := by
  have no_begin {modes parent answer} (begin : op.begin? = some (modes, parent, answer)) : False := by
    cases op with
    | beginTransaction | beginReadOnlyTransaction =>
        rcases other with opens | ⟨_, named, _⟩
        · exact opens rfl
        · cases named
    | _ => cases begin
  have no_end {t ending} (ends : op.ending? = some (t, ending)) : False := by
    cases op with
    | commit | disposeTransaction =>
        rcases other with opens | ⟨_, named, _⟩
        · exact opens rfl
        · cases named
    | _ => cases ends
  cases effect with
  | recorded unchanged => exact ⟨rfl, congrArg (fun dbis : Heap _ => dbis.obj _) unchanged.dbis⟩
  | begunDatabase =>
      rcases other with opens | ⟨_, named, _⟩
      · exact absurd rfl opens
      · cases named
  | begun begin => exact (no_begin begin).elim
  | begunTaken begin => exact (no_begin begin).elim
  | begunLeaked begin => exact (no_begin begin).elim
  | closed ends => exact (no_end ends).elim
  | promoted => exact (no_end rfl).elim
  | reader _ _ state => exact ⟨rfl, congrArg (fun dbis : Heap _ => dbis.obj _) state.dbis⟩
  | @opened _ t text kind dbi native opens _ alive free slot =>
      have unused := SlotsSound.opens_unused separates.2.1 opens alive free
      have known := sound.slots.nesting.sound.databases.bound e live
      obtain ⟨_, _, given⟩ := slot.slot
      have same : (world.added t kind dbi text native).dbi e = world.dbi e :=
        congrArg Database.dbi (added_dbs_of_ne (Nat.ne_of_lt known))
      refine ⟨same, ?_⟩
      rw [World.slot, same]
      exact slot.elsewhere.others _ (sound.slots.open_elsewhere unused given live)
  | openFailed opens free slot alive =>
      have unused := SlotsSound.opens_unused separates.2.1 opens alive free
      obtain ⟨_, given⟩ := slot.slot
      exact ⟨rfl, slot.elsewhere.others _ (sound.slots.open_elsewhere unused given live)⟩
  | @databaseGone _ d native gone open' elsewhere =>
      have leaves := DatabasesSound.disposalLeaves world d native
      have different : e ≠ d := by
        rintro rfl
        rcases gone with rfl | ⟨_, _, rfl⟩
        all_goals
          rcases other with opens | ⟨_, named, distinct⟩
          · exact opens rfl
          · cases named
            exact distinct rfl
      have same := (leaves.dbi e).trans (if_neg different)
      refine ⟨same, ?_⟩
      rw [World.slot, same, databaseCallback_native]
      exact elsewhere.others _ fun equal => different (sound.slots.unique live equal)
  | cursorOpened _ _ state => exact ⟨rfl, congrArg (fun dbis : Heap _ => dbis.obj _) state.dbis⟩
  | @cursorGone c native _ state =>
      have same : (Cursor.invokeDisposed c { world with
          cursors := world.cursors.modify c Cursor.clearHandle
          native := native }).dbi e = world.dbi e := by
        rw [World.dbi, cursorCallback_dbs]
        rfl
      refine ⟨same, ?_⟩
      rw [World.slot, same, cursorCallback_native]
      exact congrArg (fun dbis : Heap _ => dbis.obj _) state.dbis
  | cursorRenewed _ _ _ state => exact ⟨rfl, congrArg (fun dbis : Heap _ => dbis.obj _) state.dbis⟩
  | environmentDisposed => exact separates.1.elim

end SeparateSound

/-- While opens find no undisposed database of the same name, no two undisposed
databases share a handle, and no call on one of them, nor an open, touches the
slot of another one. -/
theorem dbis_distinct {flags : LmdbEnvironmentOptions} {lastTxnId : Nat} {ops : List Op}
    {world : World runtime} (history : History Separates flags lastTxnId ops world) :
    (∀ d e, world.dbi d ≠ 0 → world.dbi d = world.dbi e → d = e) ∧
    ∀ op after e, Separates world op → Step world op after → OnOther e op → world.dbi e ≠ 0 →
      after.dbi e = world.dbi e ∧ after.slot e = world.slot e := by
  have sound := SeparateSound.of_history history
  refine ⟨fun d e live same => sound.slots.unique live same, fun op after e separates transition
    other live => ?_⟩
  exact sound.slot_kept separates (effect_of_step transition) other live

/-- An open of a plain database with a comparison function. -/
def comparedOpen (t : TxnRef) (name : String) (comparer : Comparer) (slot : Nat) : Op :=
  .openDatabase t (some name) (some ⟨0, some comparer, none⟩) ⟨.success, slot, .success, .success⟩

/-- Two database transactions, one after the other. -/
def separateHistory : List Op :=
  [.beginDatabaseTransaction .none none .success, plainOpen 0 "a" 2, comparedOpen 0 "b" 7 3,
    .commit 0 ⟨.success, true⟩, .beginDatabaseTransaction .none none .success,
    .disposeDatabase 0, plainOpen 1 "c" 2]

/-- Of two databases, one is disposed and the other is as it was. -/
theorem dbis_distinct_two : ∃ world after : World .ascii,
    History Separates .none 0 separateHistory world ∧ world.dbi 1 = 3 ∧ world.dbi 2 = 2 ∧
    Step world (.disposeDatabase 2) after ∧ after.dbi 2 = 0 ∧ after.dbi 1 = 3 ∧
    after.slot 1 = world.slot 1 := by
  obtain ⟨world, history, first, second, separates, disposed⟩ := history_of_replay Separates .none 0
    separateHistory (fun world : World .ascii => world.dbi 1 = 3 ∧ world.dbi 2 = 2 ∧
      Separates world (.disposeDatabase 2) ∧
      ((stepTo world (.disposeDatabase 2)).any fun after => decide (after.dbi 2 = 0)) = true)
    (by decide +kernel)
  obtain ⟨after, stepped, observed⟩ := (Option.any_eq_true _ _).mp disposed
  have transition := step_of_stepTo stepped
  obtain ⟨dbi, slot⟩ := (dbis_distinct history).2 _ after 1 separates transition
    (.inr ⟨2, rfl, by decide⟩) (by rw [first]; decide)
  exact ⟨world, after, history, first, second, transition, of_decide_eq_true observed,
    dbi.trans first, slot⟩

/-- A name that is opened twice in one transaction gives two objects with one
handle: the second open changes the order of the first, and its disposal closes
the handle of the first, which is still undisposed. -/
theorem opened_twice_shares : ∃ world after : World .ascii,
    History Always .none 0 [.beginDatabaseTransaction .none none .success,
      plainOpen 0 "a" 2, comparedOpen 0 "a" 7 3] world ∧
    world.dbi 0 ≠ 0 ∧ world.dbi 0 = world.dbi 1 ∧
    world.slot 0 = some ⟨Runtime.ascii.marshal "a", world.handle 0, 0, some 7, none⟩ ∧
    Step world (.disposeDatabase 1) after ∧ after.dbi 0 = world.dbi 0 ∧ after.slot 0 = none := by
  obtain ⟨world, history, live, same, order, disposed⟩ := history_of_replay Always .none 0
    [.beginDatabaseTransaction .none none .success, plainOpen 0 "a" 2, comparedOpen 0 "a" 7 3]
    (fun world : World .ascii => world.dbi 0 ≠ 0 ∧ world.dbi 0 = world.dbi 1 ∧
      world.slot 0 = some ⟨Runtime.ascii.marshal "a", world.handle 0, 0, some 7, none⟩ ∧
      ((stepTo world (.disposeDatabase 1)).any fun after => decide (after.dbi 0 = world.dbi 0 ∧
        after.slot 0 = none)) = true) (by decide +kernel)
  obtain ⟨after, stepped, observed⟩ := (Option.any_eq_true _ _).mp disposed
  obtain ⟨kept, closed⟩ := of_decide_eq_true observed
  exact ⟨world, after, history, live, same, order, step_of_stepTo stepped, kept, closed⟩

end KdSoftLmdb
