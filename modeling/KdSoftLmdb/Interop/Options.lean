import KdSoftLmdb.Interop.Native
import KdSoftLmdb.Library.Respects

/-!
# Options that change while the environment is in use

LMDB lets a program change four options of an open environment at any time.
`Native.Reconfigured` relates two states of the library that differ in those
options, or in how often the options were read; no native function but
`mdb_env_get_flags` tells such states apart.
-/

namespace KdSoftLmdb

namespace LmdbEnvironmentOptions

def noSync : LmdbEnvironmentOptions := 0x10000
def noMetaSync : LmdbEnvironmentOptions := 0x40000
def mapAsync : LmdbEnvironmentOptions := 0x100000
def noMemoryInitialization : LmdbEnvironmentOptions := 0x1000000

/-- What `mdb_env_set_flags` accepts. -/
def changeable : LmdbEnvironmentOptions :=
  noSync ||| noMetaSync ||| mapAsync ||| noMemoryInitialization

/-- The part of the options that only `mdb_env_open` can set. -/
def fixed (options : LmdbEnvironmentOptions) : LmdbEnvironmentOptions := options &&& ~~~changeable

/-- `MDB_NOTLS` is among the options that cannot change. -/
theorem hasFlag_noThreadLocalStorage (options : LmdbEnvironmentOptions) :
    options.hasFlag .noThreadLocalStorage = options.fixed.hasFlag .noThreadLocalStorage := by
  have within : ~~~changeable &&& noThreadLocalStorage = noThreadLocalStorage := by decide
  rw [hasFlag, hasFlag, fixed, BitVec.and_assoc, within]

/-- Options that may change leave the fixed ones alone. -/
theorem fixed_set {flags options : LmdbEnvironmentOptions} (within : flags.fixed = 0) :
    (options ||| flags).fixed = options.fixed := by
  rw [fixed] at within
  ext bit bound
  have unset := congrArg (·[bit]) within
  simp only [fixed, BitVec.getElem_and, BitVec.getElem_or, BitVec.getElem_not] at unset ⊢
  grind

/-- Clearing options that may change leaves the fixed ones. -/
theorem fixed_clear {flags options : LmdbEnvironmentOptions} (within : flags.fixed = 0) :
    (options &&& ~~~flags).fixed = options.fixed := by
  rw [fixed] at within
  ext bit bound
  have unset := congrArg (·[bit]) within
  simp only [fixed, BitVec.getElem_and, BitVec.getElem_not] at unset ⊢
  grind

end LmdbEnvironmentOptions

open LmdbEnvironmentOptions (fixed)

namespace Native

/-- Exchange the options and the recorded calls. -/
def under (flags : LmdbEnvironmentOptions) (calls : List NativeCall) (native : Native) : Native :=
  { native with flags := flags, calls := calls }

/-- The recorded calls but for those that only read the options. -/
def unread (calls : List NativeCall) : List NativeCall :=
  calls.filter fun call => call.function ≠ .mdbEnvGetFlags

end Native

/-- How the calls that two states recorded may differ, whatever is called next. -/
structure PastCalls where
  rel : List NativeCall → List NativeCall → Prop
  cons : ∀ {calls others}, rel calls others → ∀ call, rel (call :: calls) (call :: others)

namespace PastCalls

/-- The options were read at other times. -/
def unread : PastCalls where
  rel calls others := Native.unread others = Native.unread calls
  cons same call := by
    simp only [Native.unread, List.filter_cons] at same ⊢
    rw [same]

/-- The calls before a moment are missing in the first state. -/
def since (earlier : List NativeCall) : PastCalls where
  rel calls others := others = calls ++ earlier
  cons same call := by rw [same, List.cons_append]

end PastCalls

namespace Native

/-- The second is the first with other options, of which only those differ that may
change at any time, and with other past calls. -/
def Reconfigured (flags : LmdbEnvironmentOptions) (past : PastCalls) (native twin : Native) :
    Prop :=
  ∃ calls, twin = native.under flags calls ∧ past.rel native.calls calls ∧
    flags.fixed = native.flags.fixed

namespace Reconfigured

variable {flags : LmdbEnvironmentOptions} {past : PastCalls} {native twin : Native}

/-- An environment differs from itself in nothing. -/
theorem refl (native : Native) : Reconfigured native.flags .unread native native :=
  ⟨_, rfl, rfl, rfl⟩

/-- Two reconfigurations, one after the other, are one. -/
theorem trans {others : LmdbEnvironmentOptions} {last : Native}
    (first : Reconfigured flags .unread native twin)
    (second : Reconfigured others .unread twin last) : Reconfigured others .unread native last := by
  obtain ⟨_, rfl, read, same⟩ := first
  obtain ⟨calls, rfl, readOn, sameOn⟩ := second
  exact ⟨calls, rfl, readOn.trans read, sameOn.trans same⟩

/-- Reading the options is not noticed afterwards. -/
theorem asked (env : IntPtr) (ret : DbRetCode) (native : Native) :
    Reconfigured native.flags .unread native (native.mdbEnvGetFlags env ret).2 := by
  refine ⟨⟨.mdbEnvGetFlags, [.env env], [NativeHandle.env env].any native.freed⟩ :: native.calls,
    ?_, ?_, rfl⟩
  · unfold Native.mdbEnvGetFlags
    dsimp only
    split <;> rfl
  · exact List.filter_cons_of_neg (by simp)

/-- A native function that records one call and otherwise neither reads nor
changes the options and the recorded calls. -/
theorem recorded {α : Type} (body : Native → Option (α × Native)) (function : LibFunc)
    (handles : List NativeHandle)
    (under : ∀ native flags calls, body (native.under flags calls) = (body native).map fun reply =>
      (reply.1, reply.2.under flags (⟨function, handles, handles.any native.freed⟩ :: calls)))
    (native twin : Native) (related : Reconfigured flags past native twin) :
    Method.SameEnd (Reconfigured flags past) (body native) (body twin) := by
  obtain ⟨calls, rfl, read, same⟩ := related
  -- the function itself, with the options and calls it found put back in
  have own := under native native.flags native.calls
  rw [under native flags calls]
  rw [show native.under native.flags native.calls = native from rfl] at own
  cases answered : body native with
  | none => exact .none
  | some reply =>
      obtain ⟨value, after⟩ := reply
      rw [answered, Option.map_some, Option.some.injEq, Prod.mk.injEq] at own
      refine .some ⟨rfl, _, rfl, ?_, ?_⟩
      · rw [own.2]
        exact past.cons read _
      · rw [own.2]
        exact same

/-- The same for a function that always returns. -/
theorem recordedCall {α : Type} (body : Native → α × Native) (function : LibFunc)
    (handles : List NativeHandle)
    (under : ∀ native flags calls, body (native.under flags calls) = ((body native).1,
      (body native).2.under flags (⟨function, handles, handles.any native.freed⟩ :: calls)))
    (native twin : Native) (related : Reconfigured flags past native twin) :
    (body native).1 = (body twin).1 ∧ Reconfigured flags past (body native).2 (body twin).2 := by
  have ended := recorded (fun native => some (body native)) function handles
    (fun native flags calls => congrArg some (under native flags calls)) native twin related
  cases ended with
  | some ended => exact ended

/-- The same for a function without a result. -/
theorem recordedVoid (change : Native → Native) (function : LibFunc) (handles : List NativeHandle)
    (under : ∀ native flags calls, change (native.under flags calls) =
      (change native).under flags (⟨function, handles, handles.any native.freed⟩ :: calls))
    (native twin : Native) (related : Reconfigured flags past native twin) :
    Reconfigured flags past (change native) (change twin) :=
  (recordedCall (fun native => ((), change native)) function handles
    (fun native flags calls => congrArg (Prod.mk ()) (under native flags calls)) native twin
    related).2

/-- Both record the same call. -/
theorem record (function : LibFunc) (handles : List NativeHandle) (native twin : Native)
    (related : Reconfigured flags past native twin) :
    Reconfigured flags past (native.record function handles) (twin.record function handles) :=
  recordedVoid (Native.record · function handles) function handles (fun _ _ _ => rfl) native twin
    related

/-- Both read the same id. -/
theorem mdbTxnId (txn : IntPtr) : ∀ native twin, Reconfigured flags past native twin →
    (native.mdbTxnId txn).1 = (twin.mdbTxnId txn).1 ∧
      Reconfigured flags past (native.mdbTxnId txn).2 (twin.mdbTxnId txn).2 :=
  recordedCall (Native.mdbTxnId txn) .mdbTxnId [.txn txn] fun _ _ _ => rfl

/-- Both read the same environment. -/
theorem mdbTxnEnv (txn : IntPtr) : ∀ native twin, Reconfigured flags past native twin →
    (native.mdbTxnEnv txn).1 = (twin.mdbTxnEnv txn).1 ∧
      Reconfigured flags past (native.mdbTxnEnv txn).2 (twin.mdbTxnEnv txn).2 :=
  recordedCall (Native.mdbTxnEnv txn) .mdbTxnEnv [.txn txn] fun _ _ _ => rfl

/-- Both end a transaction alike. -/
theorem mdbTxnCommit (txn : IntPtr) (ret : DbRetCode) (wrote : Bool) (native twin : Native)
    (related : Reconfigured flags past native twin) :
    Reconfigured flags past (native.mdbTxnCommit txn ret wrote)
      (twin.mdbTxnCommit txn ret wrote) := by
  refine recordedVoid (Native.mdbTxnCommit txn ret wrote) .mdbTxnCommit [.txn txn] ?_ native twin
    related
  intro native flags calls
  unfold Native.mdbTxnCommit
  dsimp only
  split <;> rfl

/-- Both abort a transaction alike. -/
theorem mdbTxnAbort (txn : IntPtr) (native twin : Native)
    (related : Reconfigured flags past native twin) :
    Reconfigured flags past (native.mdbTxnAbort txn) (twin.mdbTxnAbort txn) :=
  recordedVoid (Native.mdbTxnAbort txn) .mdbTxnAbort [.txn txn] (fun _ _ _ => rfl) native twin
    related

/-- Both reset a reader alike. -/
theorem mdbTxnReset (txn : IntPtr) (native twin : Native)
    (related : Reconfigured flags past native twin) :
    Reconfigured flags past (native.mdbTxnReset txn) (twin.mdbTxnReset txn) :=
  recordedVoid (Native.mdbTxnReset txn) .mdbTxnReset [.txn txn] (fun _ _ _ => rfl) native twin
    related

/-- Both close a database alike. -/
theorem mdbDbiClose (env : IntPtr) (dbi : Nat) (native twin : Native)
    (related : Reconfigured flags past native twin) :
    Reconfigured flags past (native.mdbDbiClose env dbi) (twin.mdbDbiClose env dbi) :=
  recordedVoid (Native.mdbDbiClose env dbi) .mdbDbiClose [.env env, .dbi dbi] (fun _ _ _ => rfl)
    native twin related

/-- Both close a cursor alike. -/
theorem mdbCursorClose (cursor : IntPtr) (native twin : Native)
    (related : Reconfigured flags past native twin) :
    Reconfigured flags past (native.mdbCursorClose cursor) (twin.mdbCursorClose cursor) :=
  recordedVoid (Native.mdbCursorClose cursor) .mdbCursorClose [.cursor cursor] (fun _ _ _ => rfl)
    native twin related

/-- Both close the environment alike. -/
theorem mdbEnvClose (env : IntPtr) (native twin : Native)
    (related : Reconfigured flags past native twin) :
    Reconfigured flags past (native.mdbEnvClose env) (twin.mdbEnvClose env) :=
  recordedVoid (Native.mdbEnvClose env) .mdbEnvClose [.env env] (fun _ _ _ => rfl) native twin
    related

/-- Both take a comparison function alike. -/
theorem setOrder (function : LibFunc) (change : NativeDbi → NativeDbi) (txn : IntPtr) (dbi : Nat)
    (ret : DbRetCode) (native twin : Native) (related : Reconfigured flags past native twin) :
    (native.setOrder function change txn dbi ret).1 =
        (twin.setOrder function change txn dbi ret).1 ∧
      Reconfigured flags past (native.setOrder function change txn dbi ret).2
        (twin.setOrder function change txn dbi ret).2 := by
  refine recordedCall (Native.setOrder function change txn dbi ret) function [.txn txn, .dbi dbi] ?_
    native twin related
  intro native flags calls
  unfold Native.setOrder
  dsimp only
  split <;> rfl

/-- Both begin a transaction alike, or both leave it undefined. -/
theorem mdbTxnBegin (env parent : IntPtr) (modes : TransactionModes) (ret : DbRetCode) :
    ∀ native twin, Reconfigured flags past native twin → Method.SameEnd (Reconfigured flags past)
      (native.mdbTxnBegin env parent modes ret) (twin.mdbTxnBegin env parent modes ret) := by
  refine recorded (Native.mdbTxnBegin env parent modes ret) .mdbTxnBegin [.env env, .txn parent] ?_
  intro native flags calls
  unfold Native.mdbTxnBegin
  dsimp only
  by_cases success : ret = .success
  · rw [if_pos success, if_pos success]
    change (if native.canBegin parent modes then _ else _) =
      Option.map _ (if native.canBegin parent modes then _ else _)
    split <;> rfl
  · rw [if_neg success, if_neg success]
    rfl

/-- Both renew a reader alike. -/
theorem mdbTxnRenew (txn : IntPtr) (ret : DbRetCode) :
    ∀ native twin, Reconfigured flags past native twin →
      Method.SameEnd (Reconfigured flags past) (native.mdbTxnRenew txn ret)
        (twin.mdbTxnRenew txn ret) := by
  refine recorded (Native.mdbTxnRenew txn ret) .mdbTxnRenew [.txn txn] ?_
  intro native flags calls
  unfold Native.mdbTxnRenew
  dsimp only
  by_cases success : ret = .success
  · rw [if_pos success, if_pos success]
    change (if native.live txn && (native.txns.obj txn).readOnly &&
      (native.txns.obj txn).reset then _ else _) = Option.map _
        (if native.live txn && (native.txns.obj txn).readOnly &&
          (native.txns.obj txn).reset then _ else _)
    split <;> rfl
  · rw [if_neg success, if_neg success]
    rfl

/-- Both open a database alike. -/
theorem mdbDbiOpen (txn : IntPtr) (name : List UInt8) (options : BitVec 32) (ret : DbRetCode)
    (slot : Nat) : ∀ native twin, Reconfigured flags past native twin →
      Method.SameEnd (Reconfigured flags past) (native.mdbDbiOpen txn name options ret slot)
        (twin.mdbDbiOpen txn name options ret slot) := by
  refine recorded (Native.mdbDbiOpen txn name options ret slot) .mdbDbiOpen [.txn txn] ?_
  intro native flags calls
  unfold Native.mdbDbiOpen
  dsimp only
  by_cases success : ret = .success
  · rw [if_pos success, if_pos success]
    change (if native.canWrite txn then _ else _) =
      Option.map _ (if native.canWrite txn then _ else _)
    by_cases writable : native.canWrite txn = true
    · rw [if_pos writable, if_pos writable]
      have same : ((native.under flags calls).record .mdbDbiOpen [.txn txn]).openSlot? name =
        (native.record .mdbDbiOpen [.txn txn]).openSlot? name := rfl
      rw [same]
      cases (native.record .mdbDbiOpen [.txn txn]).openSlot? name with
      | some existing => rfl
      | none =>
          dsimp only
          change (if coreDbs ≤ slot ∧ slot ≤ native.dbis.next ∧ native.dbis.obj slot = none then _
            else _) = Option.map _ (if coreDbs ≤ slot ∧ slot ≤ native.dbis.next ∧
              native.dbis.obj slot = none then _ else _)
          split <;> rfl
    · rw [if_neg writable, if_neg writable]
      rfl
  · rw [if_neg success, if_neg success]
    rfl

/-- Both drop a database alike. -/
theorem mdbDrop (txn : IntPtr) (dbi : Nat) (del : Bool) (ret : DbRetCode) :
    ∀ native twin, Reconfigured flags past native twin →
      Method.SameEnd (Reconfigured flags past) (native.mdbDrop txn dbi del ret)
        (twin.mdbDrop txn dbi del ret) := by
  refine recorded (Native.mdbDrop txn dbi del ret) .mdbDrop [.txn txn, .dbi dbi] ?_
  intro native flags calls
  unfold Native.mdbDrop
  dsimp only
  by_cases success : ret = .success
  · rw [if_pos success, if_pos success]
    change (if native.canWrite txn && (native.dbis.obj dbi).isSome then _ else _) = Option.map _
      (if native.canWrite txn && (native.dbis.obj dbi).isSome then _ else _)
    cases del <;> split <;> rfl
  · rw [if_neg success, if_neg success]
    rfl

/-- Both open a cursor alike. -/
theorem mdbCursorOpen (txn : IntPtr) (dbi : Nat) (ret : DbRetCode) :
    ∀ native twin, Reconfigured flags past native twin →
      Method.SameEnd (Reconfigured flags past) (native.mdbCursorOpen txn dbi ret)
        (twin.mdbCursorOpen txn dbi ret) := by
  refine recorded (Native.mdbCursorOpen txn dbi ret) .mdbCursorOpen [.txn txn, .dbi dbi] ?_
  intro native flags calls
  unfold Native.mdbCursorOpen
  dsimp only
  by_cases success : ret = .success
  · rw [if_pos success, if_pos success]
    change (if native.live txn && !native.hasChild txn then _ else _) =
      Option.map _ (if native.live txn && !native.hasChild txn then _ else _)
    split <;> rfl
  · rw [if_neg success, if_neg success]
    rfl

/-- Both renew a cursor alike. -/
theorem mdbCursorRenew (txn cursor : IntPtr) (ret : DbRetCode) :
    ∀ native twin, Reconfigured flags past native twin →
      Method.SameEnd (Reconfigured flags past) (native.mdbCursorRenew txn cursor ret)
        (twin.mdbCursorRenew txn cursor ret) := by
  refine recorded (Native.mdbCursorRenew txn cursor ret) .mdbCursorRenew
    [.txn txn, .cursor cursor] ?_
  intro native flags calls
  unfold Native.mdbCursorRenew
  dsimp only
  by_cases success : ret = .success
  · rw [if_pos success, if_pos success]
    change (if native.live txn && (native.txns.obj txn).readOnly then _ else _) =
      Option.map _ (if native.live txn && (native.txns.obj txn).readOnly then _ else _)
    split <;> rfl
  · rw [if_neg success, if_neg success]
    rfl

/-- The one function whose reply depends on the options. -/
theorem mdbEnvGetFlags (env : IntPtr) (ret : DbRetCode) (native twin : Native)
    (related : Reconfigured flags past native twin) :
    (native.mdbEnvGetFlags env ret).1.1 = (twin.mdbEnvGetFlags env ret).1.1 ∧
      (native.mdbEnvGetFlags env ret).1.2.fixed = (twin.mdbEnvGetFlags env ret).1.2.fixed ∧
      Reconfigured flags past (native.mdbEnvGetFlags env ret).2
        (twin.mdbEnvGetFlags env ret).2 := by
  have kept := record .mdbEnvGetFlags [.env env] native twin related
  unfold Native.mdbEnvGetFlags
  dsimp only
  split
  · obtain ⟨calls, rfl, _, same⟩ := related
    exact ⟨rfl, same.symm, kept⟩
  · exact ⟨rfl, rfl, kept⟩

end Reconfigured

end Native

end KdSoftLmdb
