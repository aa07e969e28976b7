import KdSoftLmdb.Comparers
import KdSoftLmdb.Storing

/-!
# Opens that throw

An open that throws after `mdb_dbi_open` gave it a handle closes the handle. That
takes back what the open did only if the handle was new; for a name that was open
already, LMDB gives the handle that other objects hold.
-/

namespace KdSoftLmdb

variable {runtime : Runtime}

/-- The native database handles, the databases of every transaction, the registry
and the database objects are as they were. -/
structure LeavesDatabases (world after : World runtime) : Prop where
  handles : ∀ slot, after.native.dbis.obj slot = world.native.dbis.obj slot
  newDatabases : ∀ t, (after.txns.obj t).newDatabases = (world.txns.obj t).newDatabases
  registry : after.environment.databases = world.environment.databases
  databases : after.dbs = world.dbs

/-- LMDB gives the open a handle that was open before, and then rejects one of its
comparison functions. -/
structure OpenCall.ClosesOpen (call : OpenCall) (world : World runtime) (text : String) : Prop where
  named : call.name = some text
  free : world.environment.databases.containsKey text = false
  live : world.handle call.t ≠ 0
  accepted : call.answer.ret = .success
  writable : world.native.canWrite (world.handle call.t) = true
  openBefore : (world.native.openSlot? (runtime.marshal text)).isSome = true
  rejected : call.rejected = true

section Throws

variable {world after : World runtime} {call : OpenCall} {exception : Exception}

/-- What only native fields differ in leaves the databases if the slots do not. -/
theorem leavesDatabases_iff {native : Native} :
    LeavesDatabases world { world with native := native } ↔
      ∀ slot, native.dbis.obj slot = world.native.dbis.obj slot :=
  ⟨fun leaves => leaves.handles, fun handles => ⟨handles, fun _ => rfl, rfl, rfl⟩⟩

private theorem leavesDatabases_of_unchanged {native : Native}
    (unchanged : world.native.Unchanged native) :
    LeavesDatabases world { world with native := native } := by
  refine leavesDatabases_iff.mpr fun slot => ?_
  rw [unchanged]

private theorem openCall_throws_iff (threw : call.opened world = some (.error exception, after)) :
    LeavesDatabases world after ↔ ¬∃ text, call.ClosesOpen world text := by
  by_cases reached : ∃ text dbi native, call.Reaches world text dbi native
  · obtain ⟨text, dbi, native, reaches⟩ := reached
    have rejected : call.rejected = true := by
      by_contra accepted
      have opened := reaches.opened_of_accepted (Bool.eq_false_iff.mpr accepted)
      cases threw.symm.trans opened
    obtain ⟨thrown, native', closed, others⟩ := reaches.opened_of_rejected rejected
    cases threw.symm.trans closed
    rw [leavesDatabases_iff]
    have gone : (native'.mdbDbiClose envHandle dbi).dbis.obj dbi = none :=
      native'.mdbDbiClose_closed envHandle dbi
    rcases reaches.slots with ⟨found, _⟩ | ⟨missing, free, kept, _⟩
    · -- the handle was open before
      obtain ⟨_, slot, content, _⟩ := Native.openSlot?_some found
      refine ⟨fun same => ?_, fun spared => absurd ⟨text, reaches.named, reaches.free, reaches.live,
        reaches.accepted, reaches.writable, by rw [found]; rfl, rejected⟩ spared⟩
      cases (content.symm.trans (same dbi).symm).trans gone
    · refine ⟨fun _ closes => ?_, fun _ slot => ?_⟩
      · obtain ⟨other, closes⟩ := closes
        cases reaches.named.symm.trans closes.named
        have openBefore := closes.openBefore
        rw [missing] at openBefore
        cases openBefore
      · by_cases same : slot = dbi
        · rw [same, gone, free]
        · exact (if_neg same).trans ((others slot same).trans (kept slot same))
  · rcases OpenCall.opened_of_not_reaches reached with none | ⟨thrown, native, same, unchanged⟩
    · cases threw.symm.trans none
    · cases threw.symm.trans same
      refine ⟨fun _ closes => ?_, fun _ => leavesDatabases_of_unchanged unchanged⟩
      obtain ⟨text, closes⟩ := closes
      obtain ⟨dbi, found⟩ := Option.isSome_iff_exists.mp closes.openBefore
      exact reached ⟨text, dbi, _, OpenCall.reaches_of_open closes.named closes.free closes.live
        closes.accepted closes.writable found⟩

/-- How an open without a configuration ends. -/
theorem body_of_no_config {op : Op} {t : TxnRef} {name : Option String}
    {result : Except Exception Returned} (opens : op.open? = some (t, name))
    (none : op.frame? = none) (returned : op.body world = some (result, after)) :
    (∃ exception, result = .error exception) ∧ after = world := by
  cases op
  case openDatabase t name config answer =>
    obtain rfl : config = .none := Option.map_eq_none_iff.mp none
    cases returned
    exact ⟨⟨_, rfl⟩, rfl⟩
  case openMultiValueDatabase t name config answer =>
    obtain rfl : config = .none := Option.map_eq_none_iff.mp none
    cases returned
    exact ⟨⟨_, rfl⟩, rfl⟩
  case openFixedMultiValueDatabase t name config answer =>
    obtain rfl : config = .none := Option.map_eq_none_iff.mp none
    cases returned
    exact ⟨⟨_, rfl⟩, rfl⟩
  all_goals cases opens

private theorem nameCheck_of_open {op : Op} {t : TxnRef} {name : Option String} {frame : Frame}
    (opens : op.open? = some (t, name)) (starts : op.frame? = some frame) :
    ∃ call, frame = .nameCheck call := by
  cases op
  case openDatabase =>
    obtain ⟨_, _, rfl⟩ := Option.map_eq_some_iff.mp starts
    exact ⟨_, rfl⟩
  case openMultiValueDatabase =>
    obtain ⟨_, _, rfl⟩ := Option.map_eq_some_iff.mp starts
    exact ⟨_, rfl⟩
  case openFixedMultiValueDatabase =>
    obtain ⟨_, _, rfl⟩ := Option.map_eq_some_iff.mp starts
    exact ⟨_, rfl⟩
  all_goals cases opens

/-- A call of one of the three open methods that throws leaves the databases as they
were exactly when it does not close a handle that was open before. -/
theorem open_throws_iff {op : Op} {t : TxnRef} {name : Option String}
    (opens : op.open? = some (t, name))
    (threw : execute world op = some (.error exception, after)) :
    LeavesDatabases world after ↔
      ¬∃ call text, op.frame? = some (.nameCheck call) ∧ call.ClosesOpen world text := by
  rw [execute] at threw
  split at threw
  · cases starts : op.frame? with
    | none =>
        obtain ⟨_, rfl⟩ := body_of_no_config opens starts threw
        refine ⟨fun _ closes => ?_, fun _ => ⟨fun _ => rfl, fun _ => rfl, rfl, rfl⟩⟩
        obtain ⟨_, _, absurd, _⟩ := closes
        cases absurd
    | some frame =>
        obtain ⟨call, rfl⟩ := nameCheck_of_open opens starts
        rw [body_of_openCall starts] at threw
        have inner : call.opened world = some (.error exception, after) := by
          rcases Method.bind_eq_some_iff.mp threw with ⟨_, ran, equal⟩ | ⟨_, _, _, rest⟩
          · cases equal
            exact ran
          · cases rest
        rw [openCall_throws_iff inner]
        refine not_congr ⟨?_, ?_⟩
        · rintro ⟨text, closes⟩
          exact ⟨call, text, rfl, closes⟩
        · rintro ⟨_, text, same, closes⟩
          cases same
          exact ⟨text, closes⟩
  · cases threw

end Throws

/-- An open with a comparison function that LMDB rejects. -/
def rejectedOpen (name : String) : Op :=
  .openDatabase 0 (some name) (some ⟨0x40000, ⟨none, some 1⟩⟩) ⟨.success, 3, .eInval, .success⟩

/-- The open of a new name takes everything back. -/
theorem rejected_new_name : ∃ (world after : World .ascii) (exception : Exception),
    History Always .none 0 openedHistory world ∧
    execute world (rejectedOpen "b") = some (.error exception, after) ∧
    LeavesDatabases world after := by
  obtain ⟨world, history, missing, threw⟩ := history_of_replay Always .none 0 openedHistory
    (fun world : World .ascii =>
      world.native.openSlot? (Runtime.ascii.marshal "b") = none ∧
      ((execute world (rejectedOpen "b")).map fun outcome => outcome.1.isOk) = some false)
    (by decide +kernel)
  obtain ⟨⟨result, after⟩, ran, failed⟩ := Option.map_eq_some_iff.mp threw
  cases result with
  | ok value => cases failed
  | error exception =>
      refine ⟨world, after, exception, history, ran, (open_throws_iff rfl ran).mpr ?_⟩
      rintro ⟨call, text, same, closes⟩
      cases same
      cases closes.named
      have openBefore := closes.openBefore
      rw [missing] at openBefore
      cases openBefore

/-- A name that is open gives the handle of the database object that holds it, and
the open that throws closes this handle. -/
theorem rejected_open_name : ∃ (world after : World .ascii) (exception : Exception),
    History Always .none 0 openedHistory world ∧
    execute world (rejectedOpen "a") = some (.error exception, after) ∧
    after.dbi 0 = 2 ∧ (world.native.dbis.obj 2).isSome = true ∧
    after.native.dbis.obj 2 = none ∧ ¬LeavesDatabases world after := by
  obtain ⟨world, history, before, threw⟩ := history_of_replay Always .none 0 openedHistory
    (fun world : World .ascii => (world.native.dbis.obj 2).isSome = true ∧
      ((execute world (rejectedOpen "a")).map fun outcome =>
        (outcome.1.isOk, outcome.2.dbi 0, outcome.2.native.dbis.obj 2)) = some (false, 2, none))
    (by decide +kernel)
  obtain ⟨⟨result, after⟩, ran, seen⟩ := Option.map_eq_some_iff.mp threw
  obtain ⟨failed, held, gone⟩ : result.isOk = false ∧ after.dbi 0 = 2 ∧
      after.native.dbis.obj 2 = none := by simpa using seen
  cases result with
  | ok value => cases failed
  | error exception =>
      refine ⟨world, after, exception, history, ran, held, before, gone, fun leaves => ?_⟩
      rw [← leaves.handles 2, gone] at before
      cases before

end KdSoftLmdb
