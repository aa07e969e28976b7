import KdSoftLmdb.Comparers
import KdSoftLmdb.Interop.Duplicates
import KdSoftLmdb.Invariants.Reachable

/-!
# The constructors of MultiValueDatabaseConfiguration

The constructor with three arguments gives the comparison function for keys to the
holder for duplicates, too. A database that is opened with it registers the function
for both, and values that the function calls equal are kept once.
-/

namespace KdSoftLmdb

variable {runtime : Runtime}

/-- `new CompareHolder(compare)`: `null` wraps nothing. -/
def CompareHolder.ofManaged (compare : Option Comparer) : CompareHolder := ⟨none, compare⟩

namespace MultiValueDatabaseConfiguration

/-- `new MultiValueDatabaseConfiguration(options, compare, dupOptions)` -/
def ofCompare (options : BitVec 32) (compare : Option Comparer) (dupOptions : BitVec 32) :
    MultiValueDatabaseConfiguration where
  options := options
  compareHolder := .ofManaged compare
  dupOptions := dupOptions
  dupCompareHolder := .ofManaged compare

/-- `new MultiValueDatabaseConfiguration(options, compare, dupOptions, dupCompare)` -/
def ofCompares (options : BitVec 32) (compare : Option Comparer) (dupOptions : BitVec 32)
    (dupCompare : Option Comparer) : MultiValueDatabaseConfiguration where
  options := options
  compareHolder := .ofManaged compare
  dupOptions := dupOptions
  dupCompareHolder := .ofManaged dupCompare

end MultiValueDatabaseConfiguration

open MultiValueDatabaseConfiguration (ofCompare ofCompares)
open DatabaseTransaction (OpenAnswer openMultiValueDatabase)

namespace Duplicates

variable {order values : KeyOrder}

/-- Put values under one key, one after the other. -/
def putAll (key : Bytes) (puts : List Bytes) (content : Duplicates order values) :
    Duplicates order values :=
  puts.foldl (fun content value => content.insert (key, value)) content

/-- Every value of a list that is put under one key is kept, byte by byte. -/
def KeepsAll (order values : KeyOrder) : Prop :=
  ∀ (content : Duplicates order values) (key : Bytes) (puts : List Bytes),
    ∀ value ∈ puts, (content.putAll key puts).keeps key value = true

/-- Only equal bytes compare equal. -/
def Separates (values : KeyOrder) : Prop :=
  ∀ a b, values.compare a b = .eq → a = b

/-- Where only equal bytes compare equal, a value that is found is kept byte by byte. -/
theorem keeps_of_contains (separates : Separates values) {content : Duplicates order values}
    {key value : Bytes} (found : content.contains (key, value) = true) :
    keeps content key value = true := by
  obtain ⟨pair, got⟩ := Option.isSome_iff_exists.mp
    (Std.ExtTreeSet.contains_eq_isSome_get?.symm.trans found)
  have same : pairOrder order values pair (key, value) = .eq := by
    simpa [got] using Std.ExtTreeSet.compare_get?_self (t := content) (k := (key, value))
  rw [keeps, got]
  exact beq_iff_eq.mpr (separates _ _ (pairOrder_eq_iff.mp same).2)

private theorem contains_putAll {key value : Bytes} {puts : List Bytes}
    {content : Duplicates order values}
    (member : value ∈ puts ∨ content.contains (key, value) = true) :
    (putAll key puts content).contains (key, value) = true := by
  induction puts generalizing content with
  | nil => exact member.resolve_left List.not_mem_nil
  | cons first rest ih =>
      refine ih ?_
      rw [Std.ExtTreeSet.contains_insert, Bool.or_eq_true, beq_iff_eq]
      rcases member with listed | found
      · rcases List.mem_cons.mp listed with rfl | later
        · exact .inr (.inl Std.ReflCmp.compare_self)
        · exact .inl later
      · exact .inr (.inr found)

/-- All values are kept exactly if only equal bytes compare equal. -/
theorem keepsAll_iff : KeepsAll order values ↔ Separates values := by
  constructor
  · intro keepsAll a b same
    have pairs : pairOrder order values ([], a) ([], b) = .eq :=
      pairOrder_eq_iff.mpr ⟨Std.ReflCmp.compare_self, same⟩
    have kept := keepsAll ∅ [] [a, b] b (List.mem_cons_of_mem _ List.mem_cons_self)
    have got : (putAll [] [a, b] (∅ : Duplicates order values)).get? ([], b) = some ([], a) := by
      simp [putAll, Std.ExtTreeSet.get?_insert, pairs]
    rw [keeps, got] at kept
    exact eq_of_beq kept
  · intro separates content key puts value member
    exact keeps_of_contains separates (contains_putAll (.inl member))

/-- The order of bytes separates them. -/
theorem separates_bytewise : Separates bytewise :=
  fun a b (same : List.compareLex compare a b = .eq) => Std.LawfulEqCmp.eq_of_compare same

end Duplicates

/-- The order of the values in a slot: without a comparison function, by their bytes. -/
def NativeDbi.valueOrder (meaning : Comparer → KeyOrder) (slot : NativeDbi) : KeyOrder :=
  slot.dupsort.elim bytewise meaning

/-- How often a comparison function for duplicates was registered. -/
def Native.dupsortCalls (native : Native) : Nat :=
  native.calls.countP fun call => call.function = .mdbSetDupsort

/-- An open with `compare` and without a comparison function for duplicates is the same
open: it registers none, and where none was registered before, the database keeps
all values of a key. -/
structure ComparesKeysOnly (meaning : Comparer → KeyOrder) (order : KeyOrder)
    (options : BitVec 32) (compare : Option Comparer) (dupOptions : BitVec 32) (t : TxnRef)
    (name : Option String) (answer : OpenAnswer) (world : World runtime) (d : DbRef)
    (after : World runtime) : Prop where
  same : openMultiValueDatabase t name (some (ofCompares options compare dupOptions none)) answer
    world = some (.ok d, after)
  none : after.native.dupsortCalls = world.native.dupsortCalls
  keeps : ∀ slot, after.native.dbis.obj (after.dbi d) = some slot →
    (∀ old, world.native.dbis.obj (after.dbi d) = some old → old.dupsort = .none) →
    Duplicates.KeepsAll order (slot.valueOrder meaning)

section Open

variable {options dupOptions : BitVec 32} {compare dupCompare : Option Comparer} {t : TxnRef}
  {name : Option String} {answer : OpenAnswer} {world after : World runtime} {d : DbRef}

/-- The arguments of the open. -/
def MultiValueDatabaseConfiguration.openCall (config : MultiValueDatabaseConfiguration)
    (t : TxnRef) (name : Option String) (answer : OpenAnswer) : OpenCall :=
  ⟨t, name, .multiValueDatabase, config.options ||| config.dupOptions ||| DbLibConstants.mdbDupsort,
    config.compareHolder, some config.dupCompareHolder, answer⟩

private theorem openMultiValueDatabase_eq (config : MultiValueDatabaseConfiguration) :
    openMultiValueDatabase t name (some config) answer world =
      (config.openCall t name answer).opened world := rfl

private theorem registered_ofManaged (compare : Option Comparer) :
    (CompareHolder.ofManaged compare).registered = compare := by
  cases compare <;> rfl

private theorem dupsortCalls_record {native : Native} (function : LibFunc)
    (handles : List NativeHandle) :
    (native.record function handles).dupsortCalls =
      native.dupsortCalls + if function = .mdbSetDupsort then 1 else 0 := by
  simp [Native.dupsortCalls, Native.record, List.countP_cons]

private theorem dupsortCalls_setOrder {native : Native} (function : LibFunc)
    (change : NativeDbi → NativeDbi) (txn : IntPtr) (dbi : Nat) (ret : DbRetCode) :
    (Native.setOrder function change txn dbi ret native).2.dupsortCalls =
      native.dupsortCalls + if function = .mdbSetDupsort then 1 else 0 := by
  rw [← dupsortCalls_record function [.txn txn, .dbi dbi], Native.setOrder]
  split <;> rfl

/-- The function for keys is registered as such. -/
theorem dupsortCalls_compared (call : OpenCall) (handle : IntPtr) (dbi : Nat) (native : Native) :
    (call.compared handle dbi native).dupsortCalls = native.dupsortCalls := by
  have asked : (native.record .mdbTxnEnv [.txn handle]).dupsortCalls = native.dupsortCalls :=
    dupsortCalls_record .mdbTxnEnv _
  rw [OpenCall.compared, Native.install, ← asked]
  cases call.compareHolder.registered with
  | none => rfl
  | some comparer => exact dupsortCalls_setOrder .mdbSetCompare _ _ _ _

/-- An open registers a function for duplicates as often as it has one. -/
theorem dupsortCalls_of_opened
    (opened : openMultiValueDatabase t name (some (ofCompares options compare dupOptions dupCompare))
      answer world = some (.ok d, after)) :
    after.native.dupsortCalls =
      world.native.dupsortCalls + if dupCompare.isSome then 1 else 0 := by
  rw [openMultiValueDatabase_eq] at opened
  obtain ⟨text, dbi, native, reaches, rfl, rfl⟩ := OpenCall.opened_ok opened
  have reached : native.dupsortCalls = world.native.dupsortCalls := by
    rw [Native.dupsortCalls, reaches.calls]
    exact dupsortCalls_record .mdbDbiOpen _
  have compared := dupsortCalls_compared ((ofCompares options compare dupOptions dupCompare).openCall
    t name answer) (world.handle t) dbi native
  rw [reached] at compared
  rw [← compared]
  show (Native.install Native.mdbSetDupsort (CompareHolder.ofManaged dupCompare)
    _ _ _ _).dupsortCalls = _
  rw [Native.install, registered_ofManaged]
  cases dupCompare with
  | none => rfl
  | some comparer => exact dupsortCalls_setOrder .mdbSetDupsort _ _ _ _

/-- Without comparison functions the slot gets none. -/
theorem dupsort_of_opened
    (opened : openMultiValueDatabase t name (some (ofCompares options none dupOptions none))
      answer world = some (.ok d, after)) {slot : NativeDbi}
    (content : after.native.dbis.obj (after.dbi d) = some slot)
    (unordered : ∀ old, world.native.dbis.obj (after.dbi d) = some old → old.dupsort = none) :
    slot.dupsort = none := by
  rw [openMultiValueDatabase_eq] at opened
  obtain ⟨text, dbi, native, reaches, rfl, rfl⟩ := OpenCall.opened_ok opened
  have handle : (world.added t .multiValueDatabase dbi text
      (native.record .mdbTxnEnv [.txn (world.handle t)])).dbi world.dbs.next = dbi := by
    rw [World.dbi, World.added, Heap.alloc_obj_next]
  have content : native.dbis.obj dbi = some slot := handle ▸ content
  have unordered : ∀ old, world.native.dbis.obj dbi = some old → old.dupsort = none :=
    handle ▸ unordered
  rcases reaches.slots with ⟨_, kept⟩ | ⟨_, _, _, fresh⟩
  · exact unordered slot (kept ▸ content)
  · cases fresh.symm.trans content
    rfl

end Open

/-- A database that was opened with three arguments is the one that four arguments and
no comparison function for duplicates open, exactly when there is none for keys. -/
theorem ofCompare_comparesKeysOnly_iff (meaning : Comparer → KeyOrder) (order : KeyOrder)
    (options : BitVec 32) (compare : Option Comparer) (dupOptions : BitVec 32) {t : TxnRef}
    {name : Option String} {answer : OpenAnswer} {world after : World runtime} {d : DbRef}
    (opened : openMultiValueDatabase t name (some (ofCompare options compare dupOptions)) answer
      world = some (.ok d, after)) :
    ComparesKeysOnly meaning order options compare dupOptions t name answer world d after ↔
      compare = none := by
  -- the constructor with three arguments is the other one with the function given twice
  have twice : openMultiValueDatabase t name (some (ofCompares options compare dupOptions compare))
      answer world = some (.ok d, after) := opened
  have calls := dupsortCalls_of_opened twice
  constructor
  · intro keysOnly
    cases compare with
    | none => rfl
    | some comparer =>
        rw [keysOnly.none] at calls
        exact absurd calls (Nat.ne_of_lt (Nat.lt_succ_self _))
  · rintro rfl
    refine ⟨twice, calls, fun slot content unordered => ?_⟩
    have none := dupsort_of_opened twice content unordered
    rw [NativeDbi.valueOrder, none]
    exact Duplicates.keepsAll_iff.mpr Duplicates.separates_bytewise

/-- Keys of one length are one key. -/
def byLength : KeyOrder :=
  ⟨fun a b => compare a.length b.length, transCmp_on (List.length : Bytes → Nat) compare⟩

/-- An open in the first transaction, with this configuration. -/
def openMulti (config : MultiValueDatabaseConfiguration) : Call .ascii DbRef :=
  openMultiValueDatabase 0 (some "multi") (some config) ⟨.success, 2, .success, .success⟩

/-- Without a comparison function both constructors give the same database. -/
theorem ofCompare_none_comparesKeysOnly : ∃ world after : World .ascii,
    History Always .none 0 [.beginDatabaseTransaction .none none .success] world ∧
    openMulti (ofCompare 0x40000 none 4) world = some (.ok 0, after) ∧
    ComparesKeysOnly (fun _ => byLength) bytewise 0x40000 none 4 0 (some "multi")
      ⟨.success, 2, .success, .success⟩ world 0 after := by
  obtain ⟨world, history, opened⟩ := history_of_replay Always .none 0
    [.beginDatabaseTransaction .none none .success]
    (fun world : World .ascii => (openMulti (ofCompare 0x40000 none 4) world).map Prod.fst =
      some (.ok 0)) (by decide +kernel)
  obtain ⟨⟨_, after⟩, ran, rfl⟩ := Option.map_eq_some_iff.mp opened
  exact ⟨world, after, history, ran,
    (ofCompare_comparesKeysOnly_iff (fun _ => byLength) bytewise 0x40000 none 4 ran).mpr rfl⟩

/-- With a function for keys the values are compared by it, too: of `5` and `6`, put
under one key, a function that compares lengths leaves `5`. -/
theorem ofCompare_loses_values : ∃ world after : World .ascii,
    History Always .none 0 [.beginDatabaseTransaction .none none .success] world ∧
    openMulti (ofCompare 0x40000 (some 1) 4) world = some (.ok 0, after) ∧
    (after.native.dbis.obj (after.dbi 0)).map NativeDbi.dupsort = some (some 1) ∧
    Duplicates.keeps (.putAll [1] [[5], [6]] ∅ : Duplicates byLength byLength) [1] [6] = false ∧
    ¬ComparesKeysOnly (fun _ => byLength) byLength 0x40000 (some 1) 4 0 (some "multi")
      ⟨.success, 2, .success, .success⟩ world 0 after := by
  obtain ⟨world, history, opened, before⟩ := history_of_replay Always .none 0
    [.beginDatabaseTransaction .none none .success]
    (fun world : World .ascii => (openMulti (ofCompare 0x40000 (some 1) 4) world).map
        (fun outcome => (outcome.1, (outcome.2.native.dbis.obj (outcome.2.dbi 0)).map
          NativeDbi.dupsort, outcome.2.native.dupsortCalls)) = some (.ok 0, some (some 1), 1) ∧
      world.native.dupsortCalls = 0) (by decide +kernel)
  obtain ⟨⟨_, after⟩, ran, seen⟩ := Option.map_eq_some_iff.mp opened
  obtain ⟨rfl, slot, calls⟩ : _ = Except.ok 0 ∧ (after.native.dbis.obj (after.dbi 0)).map
      NativeDbi.dupsort = some (some 1) ∧ after.native.dupsortCalls = 1 := by simpa using seen
  refine ⟨world, after, history, ran, slot, by decide +kernel, fun keysOnly => ?_⟩
  have none := keysOnly.none
  rw [calls, before] at none
  cases none

end KdSoftLmdb
