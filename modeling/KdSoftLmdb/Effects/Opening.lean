import KdSoftLmdb.Effects.Ending
import KdSoftLmdb.Effects.Recording

/-!
# What opening a database does

The three open methods touch one slot of the native environment. `Opens` says
what the slot holds after an open that returned a database, `OpenFails` what is
left when a comparison function was rejected and the handle was closed again.
-/

namespace KdSoftLmdb

variable {runtime : Runtime}

open DatabaseTransaction (OpenAnswer)

/-- The transaction and the name of an open. -/
def Op.open? : Op → Option (TxnRef × Option String)
  | .openDatabase t name _ _ => some (t, name)
  | .openMultiValueDatabase t name _ _ => some (t, name)
  | .openFixedMultiValueDatabase t name _ _ => some (t, name)
  | _ => none

namespace Native

/-- Nothing but the slot `dbi` and the recorded calls differ. -/
structure Elsewhere (dbi : Nat) (before after : Native) : Prop where
  state : after = { before with dbis := after.dbis, calls := after.calls }
  next : before.dbis.next ≤ after.dbis.next
  others : ∀ other, other ≠ dbi → after.dbis.obj other = before.dbis.obj other

private theorem Unchanged.elsewhere {before after : Native} (unchanged : before.Unchanged after)
    (dbi : Nat) : Elsewhere dbi before after := by
  refine ⟨?_, Nat.le_of_eq ?_, fun other _ => ?_⟩ <;> rw [unchanged]

private theorem Elsewhere.trans {dbi : Nat} {before middle after : Native}
    (first : Elsewhere dbi before middle) (second : Elsewhere dbi middle after) :
    Elsewhere dbi before after where
  state := by
    have state := second.state
    rw [first.state] at state
    exact state
  next := Nat.le_trans first.next second.next
  others other different := (second.others other different).trans (first.others other different)

section Elsewhere

variable {dbi : Nat} {before after : Native}

/-- The transactions are as they were. -/
theorem Elsewhere.txns (elsewhere : Elsewhere dbi before after) :
    after.txns = before.txns := by rw [elsewhere.state]

/-- The cursors are as they were. -/
theorem Elsewhere.cursors (elsewhere : Elsewhere dbi before after) :
    after.cursors = before.cursors := by rw [elsewhere.state]

end Elsewhere

private theorem Elsewhere.freed {dbi : Nat} {before after : Native}
    (elsewhere : Elsewhere dbi before after)
    (handle : NativeHandle) : after.freed handle = before.freed handle := by
  rw [elsewhere.state]
  cases handle <;> rfl

/-- `mdb_dbi_close` changes one slot at most. -/
theorem elsewhere_mdbDbiClose (native : Native) (env : IntPtr) (dbi : Nat) :
    Elsewhere dbi native (native.mdbDbiClose env dbi) where
  state := rfl
  next := Nat.le_refl _
  others _ different := if_neg different

/-- It leaves that slot empty. -/
theorem mdbDbiClose_closed (native : Native) (env : IntPtr) (dbi : Nat) :
    (native.mdbDbiClose env dbi).dbis.obj dbi = none := if_pos rfl

/-- A slot keeps its name and its owner whatever comparison function it gets. -/
def SameSlot (before after : Option NativeDbi) : Prop :=
  ∀ slot, before = some slot → ∃ other, after = some other ∧ other.name = slot.name ∧
    other.owner = slot.owner

/-- A slot that LMDB finds for a name is open under it. -/
theorem openSlot?_some {native : Native} {name : List UInt8} {slot : Nat}
    (found : native.openSlot? name = some slot) :
    slot < native.dbis.next ∧ ∃ dbi, native.dbis.obj slot = some dbi ∧ dbi.name = name := by
  have member := List.mem_range.mp (List.mem_of_find?_eq_some found)
  have matched := List.find?_some found
  cases content : native.dbis.obj slot with
  | none => simp [content] at matched
  | some dbi => exact ⟨member, dbi, rfl, by simpa [content] using matched⟩

end Native

/-- The slot that `mdb_dbi_open` gives for `name`: the one that is open under
this name, or a free one that becomes private to `txn`. -/
inductive SlotFor (native : Native) (txn : IntPtr) (name : List UInt8) (dbi : Nat) :
    NativeDbi → Prop where
  | existing {old slot} (content : native.dbis.obj dbi = some old) (named : old.name = name)
      (same : slot.name = old.name) (owner : slot.owner = old.owner) :
      SlotFor native txn name dbi slot
  | fresh {slot} (missing : native.openSlot? name = none) (free : native.dbis.obj dbi = none)
      (bound : coreDbs ≤ dbi) (named : slot.name = name) (owner : slot.owner = txn) :
      SlotFor native txn name dbi slot

/-- An open that left `dbi` open under `name`. -/
structure Opens (world : World runtime) (txn : IntPtr) (name : List UInt8) (dbi : Nat)
    (native : Native) : Prop where
  writable : world.native.canWrite txn = true
  elsewhere : world.native.Elsewhere dbi native
  bound : dbi < native.dbis.next
  slot : ∃ slot, native.dbis.obj dbi = some slot ∧ SlotFor world.native txn name dbi slot
  calls : CallsFrom world native

/-- An open that closed `dbi` again. -/
structure OpenFails (world : World runtime) (txn : IntPtr) (name : List UInt8) (dbi : Nat)
    (native : Native) : Prop where
  elsewhere : world.native.Elsewhere dbi native
  closed : native.dbis.obj dbi = none
  slot : ∃ slot, SlotFor world.native txn name dbi slot
  calls : CallsFrom world native

section Native

variable {world : World runtime} {t : TxnRef} {name : List UInt8} {dbi : Nat} {native after : Native}

private theorem SlotFor.transfer {txn : IntPtr} {slot other : NativeDbi}
    (given : SlotFor native txn name dbi slot) (named : other.name = slot.name)
    (owner : other.owner = slot.owner) : SlotFor native txn name dbi other := by
  cases given with
  | existing content name same owner' =>
      exact .existing content name (named.trans same) (owner.trans owner')
  | fresh missing free bound name owner' =>
      exact .fresh missing free bound (named.trans name) (owner.trans owner')

/-- The slot that LMDB gives out is open under the name. -/
theorem SlotFor.slotName {txn : IntPtr} {slot : NativeDbi}
    (given : SlotFor native txn name dbi slot) : slot.name = name := by
  cases given with
  | existing _ named same _ => exact same.trans named
  | fresh _ _ _ named _ => exact named

/-- Reads and changes of the slot's comparison functions keep an open. -/
theorem Opens.then (opens : Opens world (world.handle t) name dbi native)
    (elsewhere : native.Elsewhere dbi after)
    (same : Native.SameSlot (native.dbis.obj dbi) (after.dbis.obj dbi))
    (calls : CallsFrom world after) : Opens world (world.handle t) name dbi after where
  writable := opens.writable
  elsewhere := opens.elsewhere.trans elsewhere
  bound := Nat.lt_of_lt_of_le opens.bound elsewhere.next
  slot := by
    obtain ⟨slot, content, given⟩ := opens.slot
    obtain ⟨other, content', named, owner⟩ := same slot content
    exact ⟨other, content', given.transfer named owner⟩
  calls := calls

/-- Closing the slot turns an open into a failed one. -/
theorem Opens.close (opens : Opens world (world.handle t) name dbi native) :
    OpenFails world (world.handle t) name dbi (native.mdbDbiClose envHandle dbi) where
  elsewhere := opens.elsewhere.trans (native.elsewhere_mdbDbiClose envHandle dbi)
  closed := native.mdbDbiClose_closed envHandle dbi
  slot := by
    obtain ⟨slot, _, given⟩ := opens.slot
    exact ⟨slot, given⟩
  calls := by
    have held : ∀ handle ∈ [NativeHandle.env envHandle, .dbi dbi], native.freed handle = true →
        world.Holds handle ∧ world.native.freed handle = true := by simp [Native.freed]
    exact (opens.calls.record .mdbDbiClose held).congr rfl

/-- A call of `mdb_set_compare` or `mdb_set_dupsort`, whatever LMDB answers. -/
theorem Opens.setOrder (opens : Opens world (world.handle t) name dbi native) (function : LibFunc)
    {change : NativeDbi → NativeDbi} (ret : DbRetCode)
    (kept : ∀ slot, (change slot).name = slot.name ∧ (change slot).owner = slot.owner) :
    Opens world (world.handle t) name dbi
      (Native.setOrder function change (world.handle t) dbi ret native).2 := by
  have calls : CallsFrom world (native.record function [.txn (world.handle t), .dbi dbi]) := by
    refine opens.calls.recordHeld function opens.elsewhere.freed fun handle given => ?_
    simp only [List.mem_cons, List.not_mem_nil, or_false] at given
    rcases given with rfl | rfl
    · exact ⟨t, rfl⟩
    · trivial
  unfold Native.setOrder
  split
  · refine opens.then ⟨rfl, Nat.le_refl _, fun _ different => if_neg different⟩ ?_ (calls.congr rfl)
    intro slot content
    refine ⟨change slot, ?_, kept slot⟩
    simp [content]
  · refine opens.then ((Native.unchanged_record _ _ _).elsewhere dbi) ?_ calls
    exact fun slot content => ⟨slot, content, rfl, rfl⟩

/-- How the registration of a comparison function ends. -/
theorem register_cases
    {set : Comparer → IntPtr → Nat → DbRetCode → Native → DbRetCode × Native}
    {holder : CompareHolder} {answer : DbRetCode} {after : World runtime}
    {result : Except Exception Unit}
    (keeps : ∀ comparer, Opens world (world.handle t) name dbi
      (set comparer (world.handle t) dbi answer native).2)
    (code : ∀ comparer, (set comparer (world.handle t) dbi answer native).1 = answer)
    (opens : Opens world (world.handle t) name dbi native)
    (returned : DatabaseTransaction.register set holder (world.handle t) dbi envHandle answer
      { world with native := native } = some (result, after)) :
    ∃ native', after = { world with native := native' } ∧
      ((∃ exception, result = .error exception) ∧
          OpenFails world (world.handle t) name dbi native' ∨
        result = .ok () ∧ Opens world (world.handle t) name dbi native') := by
  rw [DatabaseTransaction.register] at returned
  cases comparer : holder.registered with
  | none =>
      simp only [comparer, Method.pure_bind] at returned
      cases returned
      exact ⟨native, rfl, .inr ⟨rfl, opens⟩⟩
  | some comparer' =>
      simp only [comparer, Method.call_bind, World.callNative, code] at returned
      by_cases accepted : answer = .success
      · rw [if_neg (not_not_intro accepted), accepted] at returned
        cases returned
        exact ⟨_, rfl, .inr ⟨rfl, accepted ▸ keeps comparer'⟩⟩
      · rw [if_pos accepted, Method.modify_bind] at returned
        obtain ⟨message, threw⟩ := checkRetCode_failed accepted { world with
          native := (set comparer' (world.handle t) dbi answer native).2.mdbDbiClose envHandle dbi }
        cases returned.symm.trans threw
        exact ⟨_, rfl, .inl ⟨⟨_, rfl⟩, (keeps comparer').close⟩⟩

end Native

section Open

variable {world after : World runtime} {t : TxnRef}

/-- A call on the handle of a transaction comes from an object. -/
theorem callsFrom_txn (world : World runtime) (function : LibFunc) (t : TxnRef) :
    CallsFrom world (world.native.record function [.txn (world.handle t)]) := by
  refine CallsFrom.first function fun handle given => ?_
  rw [List.mem_singleton.mp given]
  exact ⟨t, rfl⟩

/-- How `mdb_dbi_open` ends when LMDB accepts it. -/
theorem opens_mdbDbiOpen {name : List UInt8} {flags : BitVec 32} {slot dbi : Nat}
    {ret : DbRetCode} {native : Native}
    (returned : Native.mdbDbiOpen (world.handle t) name flags .success slot world.native =
      some ((ret, dbi), native)) :
    ret = .success ∧ Opens world (world.handle t) name dbi native := by
  have calls := callsFrom_txn world .mdbDbiOpen t
  unfold Native.mdbDbiOpen at returned
  dsimp only at returned
  rw [if_pos rfl] at returned
  generalize asked : world.native.record .mdbDbiOpen [.txn (world.handle t)] = native' at returned calls
  have unchanged : world.native.Unchanged native' := asked ▸ Native.unchanged_record _ _ _
  by_cases writable : native'.canWrite (world.handle t) = true
  · rw [if_pos writable] at returned
    have allowed : world.native.canWrite (world.handle t) = true := by
      rw [← asked] at writable
      exact writable
    cases found : native'.openSlot? name with
    | some existing =>
        simp only [found] at returned
        cases returned
        obtain ⟨bound, content, open', named⟩ := Native.openSlot?_some found
        have same : native.dbis = world.native.dbis := by rw [unchanged]
        exact ⟨rfl, allowed, unchanged.elsewhere dbi, bound,
          ⟨content, open', .existing (same ▸ open') named rfl rfl⟩, calls⟩
    | none =>
        simp only [found] at returned
        split at returned
        · rename_i free
          cases returned
          subst asked
          refine ⟨rfl, allowed, ⟨rfl, Nat.le_max_left _ _, fun _ different => if_neg different⟩,
            Nat.le_max_right _ _, ⟨_, if_pos rfl, ?_⟩, calls.congr rfl⟩
          exact .fresh found free.2.2 free.1 rfl rfl
        · cases returned
  · rw [if_neg writable] at returned
    cases returned

/-- How `OpenDatabaseInternal` ends. -/
theorem openDatabaseInternal_cases {name : Option String} {options : BitVec 32}
    {holder : CompareHolder} {answer : OpenAnswer}
    {result : Except Exception (Nat × IntPtr × IntPtr × String)}
    (returned : DatabaseTransaction.openDatabaseInternal t name options holder answer world =
      some (result, after)) :
    (∃ exception native, result = .error exception ∧ after = { world with native := native } ∧
      world.native.Unchanged native ∧ CallsFrom world native) ∨
    ∃ text dbi native, name = some text ∧
      world.environment.databases.containsKey text = false ∧ world.handle t ≠ 0 ∧
      after = { world with native := native } ∧
      ((∃ exception, result = .error exception) ∧
          OpenFails world (world.handle t) (runtime.marshal text) dbi native ∨
        result = .ok (dbi, world.handle t, envHandle, text) ∧
          Opens world (world.handle t) (runtime.marshal text) dbi native) := by
  rw [DatabaseTransaction.openDatabaseInternal, Method.get_bind] at returned
  cases name with
  | none =>
      cases returned
      exact .inl ⟨_, world.native, rfl, rfl, .refl _, .refl _⟩
  | some text =>
      dsimp only at returned
      cases taken : world.environment.databases.containsKey text with
      | true =>
          rw [if_pos taken] at returned
          cases returned
          exact .inl ⟨_, world.native, rfl, rfl, .refl _, .refl _⟩
      | false =>
          simp only [taken, Bool.false_eq_true, if_false] at returned
          by_cases live : world.handle t = 0
          · rw [Method.bind_of_error (checkDisposed_of_disposed live)] at returned
            cases returned
            exact .inl ⟨_, world.native, rfl, rfl, .refl _, .refl _⟩
          rw [Method.bind_of_ok (checkDisposed_of_live live), Method.bind_apply,
            Method.await_apply, World.awaitNative] at returned
          by_cases accepted : answer.ret = .success
          · cases opened : Native.mdbDbiOpen (world.handle t) (runtime.marshal text) options
                answer.ret answer.slot world.native with
            | none => simp [opened] at returned
            | some value =>
                obtain ⟨⟨ret, dbi⟩, native⟩ := value
                rw [accepted] at opened
                obtain ⟨rfl, opens⟩ := opens_mdbDbiOpen opened
                rw [accepted, opened, Option.map_some, Option.map_some] at returned
                simp only [] at returned
                rw [Method.bind_of_ok (checkRetCode_success _), Method.call_bind] at returned
                have asked := opens.then
                  ((native.unchanged_record .mdbTxnEnv [.txn (world.handle t)]).elsewhere dbi)
                  (fun slot content => ⟨slot, content, rfl, rfl⟩)
                  (opens.calls.recordHeld _ opens.elsewhere.freed fun handle given => by
                    rw [List.mem_singleton.mp given]
                    exact ⟨t, rfl⟩)
                have keeps (comparer : Comparer) := asked.setOrder .mdbSetCompare answer.compare
                  (fun slot => (⟨rfl, rfl⟩ : ({ slot with compare := some comparer } :
                    NativeDbi).name = slot.name ∧ _ = slot.owner))
                have code (comparer : Comparer) : (Native.mdbSetCompare comparer (world.handle t)
                    dbi answer.compare (native.record .mdbTxnEnv [.txn (world.handle t)])).1 =
                    answer.compare := by
                  unfold Native.mdbSetCompare Native.setOrder
                  split <;> rfl
                rcases Method.bind_eq_some_iff.mp returned with
                  ⟨exception, threw, rfl⟩ | ⟨_, middle, registered, rest⟩
                · obtain ⟨native', rfl, ⟨failed, fails⟩ | ⟨absurd, _⟩⟩ :=
                    register_cases keeps code asked threw
                  · exact .inr ⟨text, dbi, native', rfl, taken, live, rfl, .inl ⟨⟨_, rfl⟩, fails⟩⟩
                  · cases absurd
                · obtain ⟨native', rfl, ⟨⟨_, absurd⟩, _⟩ | ⟨_, done⟩⟩ :=
                    register_cases keeps code asked registered
                  · cases absurd
                  · cases rest
                    exact .inr ⟨text, dbi, native', rfl, taken, live, rfl, .inr ⟨rfl, done⟩⟩
          · simp only [Native.mdbDbiOpen, if_neg accepted, Option.map_some] at returned
            obtain ⟨message, threw⟩ := checkRetCode_failed accepted { world with
              native := world.native.record .mdbDbiOpen [.txn (world.handle t)] }
            rw [Method.bind_of_error threw] at returned
            cases returned
            exact .inl ⟨_, _, rfl, rfl, Native.unchanged_record _ _ _, callsFrom_txn world _ t⟩

/-- The world after an open that returned a new database object. -/
def World.added (world : World runtime) (t : TxnRef) (kind : DatabaseKind) (dbi : Nat)
    (text : String) (native : Native) : World runtime :=
  { world with
    dbs := world.dbs.alloc ⟨kind, dbi, envHandle, text, .newDatabaseDisposed t, t⟩
    txns := world.txns.modify t fun transaction =>
      { transaction with newDatabases := transaction.newDatabases ++ [world.dbs.next] }
    native := native }

/-- The transaction that opens a database lists it. -/
theorem added_txns (world : World runtime) (t : TxnRef) (kind : DatabaseKind) (dbi : Nat)
    (text : String) (native : Native) : (world.added t kind dbi text native).txns =
      world.txns.modify t fun transaction =>
        { transaction with newDatabases := transaction.newDatabases ++ [world.dbs.next] } := rfl

/-- No transaction gets another handle. -/
theorem added_handle {world : World runtime} {t : TxnRef} {kind : DatabaseKind} {dbi : Nat}
    {text : String} {native : Native} (u : TxnRef) :
    (world.added t kind dbi text native).handle u = world.handle u := by
  rw [World.handle, added_txns, Heap.modify_obj]
  split <;> rfl

/-- Other database objects are as they were. -/
theorem added_dbs_of_ne {world : World runtime} {t : TxnRef} {kind : DatabaseKind} {dbi : Nat}
    {text : String} {native : Native} {d : DbRef} (different : d ≠ world.dbs.next) :
    (world.added t kind dbi text native).dbs.obj d = world.dbs.obj d :=
  Heap.alloc_obj_of_ne _ _ different

/-- No transaction changes its kind. -/
theorem added_isDatabaseTransaction {world : World runtime} {t : TxnRef} {kind : DatabaseKind}
    {dbi : Nat} {text : String} {native : Native} (u : TxnRef) :
    (world.added t kind dbi text native).isDatabaseTransaction u =
      world.isDatabaseTransaction u := by
  rw [World.isDatabaseTransaction, added_txns, Heap.modify_obj]
  split <;> rfl

/-- The three ways an open ends: refused before the slot was touched, taken back
because of a comparison function, or with a new database object. -/
def OpenEnds (t : TxnRef) (name : Option String) (world : World runtime)
    (result : Except Exception DbRef) (after : World runtime) : Prop :=
  (∃ exception native, result = .error exception ∧ after = { world with native := native } ∧
    world.native.Unchanged native ∧ CallsFrom world native) ∨
  ∃ text dbi native, name = some text ∧
    world.environment.databases.containsKey text = false ∧ world.handle t ≠ 0 ∧
    ((∃ exception, result = .error exception) ∧ after = { world with native := native } ∧
        OpenFails world (world.handle t) (runtime.marshal text) dbi native ∨
      ∃ kind, result = .ok world.dbs.next ∧ after = world.added t kind dbi text native ∧
        Opens world (world.handle t) (runtime.marshal text) dbi native)

/-- What an open method does after `OpenDatabaseInternal` starts from an open slot. -/
theorem openInternal_cases {name : Option String} {options : BitVec 32} {holder : CompareHolder}
    {answer : OpenAnswer} {next : Nat × IntPtr × IntPtr × String → Call runtime DbRef}
    {result : Except Exception DbRef}
    (returned : (DatabaseTransaction.openDatabaseInternal t name options holder answer >>= next)
      world = some (result, after)) :
    OpenEnds t name world result after ∨ ∃ text dbi native, name = some text ∧
      world.environment.databases.containsKey text = false ∧ world.handle t ≠ 0 ∧
      Opens world (world.handle t) (runtime.marshal text) dbi native ∧
      next (dbi, world.handle t, envHandle, text) { world with native := native } =
        some (result, after) := by
  rcases Method.bind_eq_some_iff.mp returned with
    ⟨exception, threw, rfl⟩ | ⟨_, middle, opened, rest⟩
  · refine .inl ?_
    rcases openDatabaseInternal_cases threw with
      ⟨_, native, _, rfl, unchanged, calls⟩ | ⟨text, dbi, native, rfl, free, live, rfl, ends⟩
    · exact .inl ⟨exception, native, rfl, rfl, unchanged, calls⟩
    · rcases ends with ⟨_, fails⟩ | ⟨absurd, _⟩
      · exact .inr ⟨text, dbi, native, rfl, free, live, .inl ⟨⟨_, rfl⟩, rfl, fails⟩⟩
      · cases absurd
  · rcases openDatabaseInternal_cases opened with
      ⟨_, _, absurd, _⟩ |
        ⟨text, dbi, native, rfl, free, live, rfl, ⟨⟨_, absurd⟩, _⟩ | ⟨equal, opens⟩⟩
    · cases absurd
    · cases absurd
    · cases equal
      exact .inr ⟨text, dbi, native, rfl, free, live, opens, rest⟩

private theorem openDatabase_cases {name : Option String} {config : Option DatabaseConfiguration}
    {answer : OpenAnswer} {result : Except Exception DbRef}
    (returned : DatabaseTransaction.openDatabase t name config answer world =
      some (result, after)) : OpenEnds t name world result after := by
  unfold DatabaseTransaction.openDatabase at returned
  cases config with
  | none =>
      cases returned
      exact .inl ⟨_, world.native, rfl, rfl, .refl _, .refl _⟩
  | some config =>
      rcases openInternal_cases returned with
        ends | ⟨text, dbi, native, rfl, free, live, opens, rest⟩
      · exact ends
      · cases rest
        exact .inr ⟨text, dbi, native, rfl, free, live, .inr ⟨_, rfl, rfl, opens⟩⟩

private theorem openDuplicates_cases {kind : DatabaseKind} {forced : BitVec 32}
    {name : Option String}
    {config : Option MultiValueDatabaseConfiguration} {answer : OpenAnswer}
    {result : Except Exception DbRef}
    (returned : DatabaseTransaction.openDuplicates kind forced t name config answer world =
      some (result, after)) : OpenEnds t name world result after := by
  unfold DatabaseTransaction.openDuplicates at returned
  cases config with
  | none =>
      cases returned
      exact .inl ⟨_, world.native, rfl, rfl, .refl _, .refl _⟩
  | some config =>
      rcases openInternal_cases returned with
        ends | ⟨text, dbi, native, rfl, free, live, opens, rest⟩
      · exact ends
      · have keeps (comparer : Comparer) := opens.setOrder .mdbSetDupsort answer.dupsort
          (fun slot => (⟨rfl, rfl⟩ : ({ slot with dupsort := some comparer } :
            NativeDbi).name = slot.name ∧ _ = slot.owner))
        have code (comparer : Comparer) : (Native.mdbSetDupsort comparer (world.handle t) dbi
            answer.dupsort native).1 = answer.dupsort := by
          unfold Native.mdbSetDupsort Native.setOrder
          split <;> rfl
        rcases Method.bind_eq_some_iff.mp rest with
          ⟨exception, threw, rfl⟩ | ⟨_, _, registered, rest⟩
        · obtain ⟨native', rfl, ⟨_, fails⟩ | ⟨absurd, _⟩⟩ := register_cases keeps code opens threw
          · exact .inr ⟨text, dbi, native', rfl, free, live, .inl ⟨⟨_, rfl⟩, rfl, fails⟩⟩
          · cases absurd
        · obtain ⟨native', rfl, ⟨⟨_, absurd⟩, _⟩ | ⟨_, done⟩⟩ :=
            register_cases keeps code opens registered
          · cases absurd
          · cases rest
            exact .inr ⟨text, dbi, native', rfl, free, live, .inr ⟨_, rfl, rfl, done⟩⟩

/-- How any of the three open methods ends. -/
theorem open_cases {op : Op} {name : Option String} {result : Except Exception Returned}
    (opens : op.open? = some (t, name)) (returned : op.body world = some (result, after)) :
    ∃ inner, OpenEnds t name world inner after ∧ result = inner.map .database := by
  cases op
  case openDatabase =>
    cases opens
    obtain ⟨inner, opened, equal⟩ := returning_cases returned
    exact ⟨inner, openDatabase_cases opened, equal⟩
  case openMultiValueDatabase =>
    cases opens
    obtain ⟨inner, opened, equal⟩ := returning_cases returned
    exact ⟨inner, openDuplicates_cases opened, equal⟩
  case openFixedMultiValueDatabase =>
    cases opens
    obtain ⟨inner, opened, equal⟩ := returning_cases returned
    exact ⟨inner, openDuplicates_cases opened, equal⟩
  all_goals cases opens

end Open

end KdSoftLmdb
