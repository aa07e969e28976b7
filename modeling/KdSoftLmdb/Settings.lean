import KdSoftLmdb.Interop.Clr
import KdSoftLmdb.Reconfiguring

/-!
# Constructing, configuring and opening an environment

The histories of the other modules begin with an environment that is open. This
module models how it gets there and what a program may set meanwhile and later:
the constructor with its configuration, `SetMapSize`, `MaxDatabases`, `MaxReaders`,
`SetOptions`, `GetOptions`, `GetPath` and `Open`. LMDB's side is a phase and the
values that it was given; its functions refuse what their documentation says they
refuse in that phase.
-/

namespace KdSoftLmdb

variable {runtime : Runtime}

namespace LmdbEnvironmentOptions

def readOnly : LmdbEnvironmentOptions := 0x20000
def writeMap : LmdbEnvironmentOptions := 0x80000

end LmdbEnvironmentOptions

/-- `LmdbEnvironmentConfiguration` -/
structure LmdbEnvironmentConfiguration where
  maxDatabases : Option Int32
  maxReaders : Option Int32
  mapSize : Option Int64
  autoReduceMapSizeIn32BitProcess : Bool

/-- How far LMDB is with an environment. After a failed open only
`mdb_env_close` may be called. -/
inductive EnvironmentPhase where
  | created
  | opened
  | failed
deriving DecidableEq

/-- What LMDB keeps of an environment beside its options; sizes are the ones it was given.
`pathFreed` tells that somebody gave LMDB's string for the path back to the allocator. -/
structure NativeSettings where
  phase : EnvironmentPhase
  maxDbs : UInt32
  maxReaders : UInt32
  mapSize : Option Int64
  path : Option String
  pathFreed : Bool

/-- The values that `mdb_env_create` starts with. -/
def NativeSettings.created : NativeSettings := ⟨.created, 0, 126, none, none, false⟩

/-- An environment object with the settings it keeps itself and those that LMDB
keeps, in a process with the given `IntPtr.Size`. -/
structure Life (runtime : Runtime) where
  intPtrSize : Nat
  autoReduceMapSizeIn32BitProcess : Bool
  maxDatabases : UInt32
  settings : NativeSettings
  world : World runtime

/-- The exceptions of the wrapper and those of the runtime's own conversions. -/
abbrev Fault := Exception ⊕ BclException

/-- A method of `LmdbEnvironment` that may look at the settings. -/
abbrev EnvironmentMethod (runtime : Runtime) (α : Type) := Method (Life runtime) Fault α

/-- An environment object whose constructor has not run yet. -/
def World.unborn (runtime : Runtime) : World runtime :=
  { World.opened runtime .none 0 with environment := ⟨0, none, .empty, .empty, false, 0⟩ }

namespace Life

/-- The object and LMDB's defaults before the constructor runs. -/
def unborn (runtime : Runtime) (intPtrSize : Nat) : Life runtime where
  intPtrSize := intPtrSize
  autoReduceMapSizeIn32BitProcess := false
  maxDatabases := 0
  settings := .created
  world := .unborn runtime

/-- Run a method that knows nothing of the settings. -/
def onWorld {α : Type} (body : Call runtime α) : EnvironmentMethod runtime α := fun life =>
  (body life.world).map fun outcome =>
    (outcome.1.mapError .inl, { life with world := outcome.2 })

/-- `mdb_env_create(out env)` -/
def mdbEnvCreate (ret : DbRetCode) (life : Life runtime) : (DbRetCode × IntPtr) × Life runtime :=
  if ret = .success then ((ret, envHandle), { life with settings := .created })
  else ((ret, 0), life)

/-- A setting that LMDB takes before the environment is opened and refuses afterwards. -/
def setEarly (change : NativeSettings → NativeSettings) (life : Life runtime) :
    Option (DbRetCode × Life runtime) :=
  match life.settings.phase with
  | .created => some (.success, { life with settings := change life.settings })
  | .opened => some (.eInval, life)
  | .failed => none

/-- `mdb_env_set_maxdbs(env, dbs)` -/
def mdbEnvSetMaxdbs (_env : IntPtr) (dbs : UInt32) :
    Life runtime → Option (DbRetCode × Life runtime) :=
  setEarly fun settings => { settings with maxDbs := dbs }

/-- `mdb_env_set_maxreaders(env, readers)` refuses zero readers. -/
def mdbEnvSetMaxreaders (_env : IntPtr) (readers : UInt32) (life : Life runtime) :
    Option (DbRetCode × Life runtime) :=
  if readers = 0 ∧ life.settings.phase = .created then some (.eInval, life)
  else setEarly (fun settings => { settings with maxReaders := readers }) life

/-- `mdb_env_get_maxreaders(env, out readers)` -/
def mdbEnvGetMaxreaders (_env : IntPtr) (life : Life runtime) :
    Option ((DbRetCode × UInt32) × Life runtime) :=
  if life.settings.phase = .failed then none
  else some ((.success, life.settings.maxReaders), life)

/-- `mdb_env_set_mapsize(env, size)` may be called at any time. -/
def mdbEnvSetMapsize (_env : IntPtr) (size : Int64) (ret : DbRetCode) (life : Life runtime) :
    Option (DbRetCode × Life runtime) :=
  if life.settings.phase = .failed then none
  else if ret = .success then
    some (ret, { life with settings := { life.settings with mapSize := some size } })
  else some (ret, life)

/-- `mdb_env_set_flags(env, flags, onoff)` -/
def mdbEnvSetFlags (_env : IntPtr) (flags : LmdbEnvironmentOptions) (onoff : Bool)
    (life : Life runtime) : Option (DbRetCode × Life runtime) :=
  if life.settings.phase = .failed then none
  else if flags.fixed = 0 then
    some (.success, { life with world := life.world.onNative fun native => { native with
      flags := if onoff then native.flags ||| flags else native.flags &&& ~~~flags } })
  else some (.eInval, life)

/-- `mdb_env_get_path(env, out path)`: LMDB hands out its own string, and the marshaller of
the `out string` frees it when it has made a copy. A later call reads what stands there
then, which is not specified: `freed`. -/
def mdbEnvGetPath (freed : Option String) (_env : IntPtr) (life : Life runtime) :
    Option ((DbRetCode × Option String) × Life runtime) :=
  if life.settings.phase = .failed then none
  else some ((.success, if life.settings.pathFreed then freed else life.settings.path),
    { life with settings := { life.settings with
      pathFreed := life.settings.pathFreed || life.settings.path.isSome } })

/-- What `mdb_env_open` answers: its code, and the last snapshot of the file. -/
structure OpenAnswer where
  ret : DbRetCode
  lastTxnId : Nat

/-- The options of an environment that is opened with all these: a read-only one
needs no writable map. -/
def openOptions (flags : LmdbEnvironmentOptions) : LmdbEnvironmentOptions :=
  if flags.hasFlag .readOnly then flags &&& ~~~.writeMap else flags

/-- `mdb_env_open(env, path, flags, mode)`: the flags that were set before count too. -/
def mdbEnvOpen (_env : IntPtr) (path : String) (flags : LmdbEnvironmentOptions)
    (_mode : BitVec 32) (answer : OpenAnswer) (life : Life runtime) :
    Option (DbRetCode × Life runtime) :=
  match life.settings.phase with
  | .created =>
      if answer.ret = .success then
        some (answer.ret, { life with
          settings := { life.settings with phase := .opened, path := some path }
          world := life.world.onNative fun native => { native with
            flags := openOptions (flags ||| native.flags)
            lastTxnId := answer.lastTxnId } })
      else some (answer.ret, { life with settings := { life.settings with phase := .failed } })
  | .opened => some (.eInval, life)
  | .failed => none

end Life

namespace LmdbEnvironment

open Life (onWorld)

/-- `LmdbEnvironment.RunChecked` -/
def runChecked (libFunc : IntPtr → EnvironmentMethod runtime DbRetCode) :
    EnvironmentMethod runtime Unit := do
  let handle ← onWorld checkDisposed
  let ret ← libFunc handle
  onWorld (checkRetCode ret)

/-- `LmdbEnvironment.GetChecked` -/
def getChecked {α : Type} (libFunc : IntPtr → EnvironmentMethod runtime (DbRetCode × α)) :
    EnvironmentMethod runtime α := do
  let handle ← onWorld checkDisposed
  let (ret, result) ← libFunc handle
  onWorld (checkRetCode ret)
  pure result

/-- `(IntPtr)newValue` in a process with the given `IntPtr.Size` -/
def toIntPtr (intPtrSize : Nat) (newValue : Int64) : Except BclException Int64 :=
  if intPtrSize = 4 ∧ (newValue < Int32.minValue.toInt64 ∨ Int32.maxValue.toInt64 < newValue) then
    .error .overflow
  else .ok newValue

/-- `LmdbEnvironment.SetMapSize` -/
def setMapSize (newValue : Int64) (answer : DbRetCode) : EnvironmentMethod runtime Unit := do
  let life ← .get
  let newValue :=
    if life.autoReduceMapSizeIn32BitProcess ∧ life.intPtrSize = 4 ∧
        Int32.maxValue.toInt64 < newValue then
      Int32.maxValue.toInt64
    else newValue
  runChecked fun handle => do
    match toIntPtr life.intPtrSize newValue with
    | .error fault => .throw (.inr fault)
    | .ok size => .await (Life.mdbEnvSetMapsize handle size answer)

/-- The getter of `LmdbEnvironment.MaxDatabases` -/
def getMaxDatabases : EnvironmentMethod runtime Int32 := do
  let _handle ← onWorld checkDisposed
  let life ← .get
  pure life.maxDatabases.toInt32

/-- The setter of `LmdbEnvironment.MaxDatabases` -/
def setMaxDatabases (value : Int32) : EnvironmentMethod runtime Unit := do
  runChecked fun handle => .await (Life.mdbEnvSetMaxdbs handle value.toUInt32)
  .modify fun life => { life with maxDatabases := value.toUInt32 }

/-- The getter of `LmdbEnvironment.MaxReaders` -/
def getMaxReaders : EnvironmentMethod runtime Int32 := do
  let value ← getChecked fun handle => .await (Life.mdbEnvGetMaxreaders handle)
  pure value.toInt32

/-- The setter of `LmdbEnvironment.MaxReaders` -/
def setMaxReaders (value : Int32) : EnvironmentMethod runtime Unit :=
  runChecked fun handle => .await (Life.mdbEnvSetMaxreaders handle value.toUInt32)

/-- `LmdbEnvironment.SetOptions` -/
def setOptions (options : LmdbEnvironmentOptions) (onoff : Bool) : EnvironmentMethod runtime Unit :=
  runChecked fun handle => .await (Life.mdbEnvSetFlags handle options onoff)

/-- `LmdbEnvironment.GetPath` -/
def getPath (freed : Option String) : EnvironmentMethod runtime (Option String) :=
  getChecked fun handle => .await (Life.mdbEnvGetPath freed handle)

/-- `LmdbEnvironment.Open` -/
def openAt (path : String) (options : LmdbEnvironmentOptions) (fileMode : BitVec 32)
    (answer : Life.OpenAnswer) : EnvironmentMethod runtime Unit :=
  runChecked fun handle => .await (Life.mdbEnvOpen handle path options fileMode answer)

/-- LMDB's answers to the constructor. -/
structure ConstructAnswer where
  create : DbRetCode
  setUserctx : DbRetCode
  setMapSize : DbRetCode

/-- The end of the constructor, which applies the configuration. -/
def configure (config : Option LmdbEnvironmentConfiguration) (answer : DbRetCode) :
    EnvironmentMethod runtime Unit := do
  match config with
  | none => pure ()
  | some config => do
      .modify fun life => { life with
        autoReduceMapSizeIn32BitProcess := config.autoReduceMapSizeIn32BitProcess }
      config.mapSize.elim (pure ()) fun value => setMapSize value answer
      config.maxDatabases.elim (pure ()) setMaxDatabases
      config.maxReaders.elim (pure ()) setMaxReaders

/-- `LmdbEnvironment(LmdbEnvironmentConfiguration config)` -/
def new (config : Option LmdbEnvironmentConfiguration) (answer : ConstructAnswer) :
    EnvironmentMethod runtime Unit := do
  -- so that we can refer back to the Environment instance
  onWorld (.modify (.onEnvironment fun environment => { environment with instanceHandle := true }))
  let (ret, handle) ← .call (Life.mdbEnvCreate answer.create)
  let ret ←
    if ret = .success then
      if answer.setUserctx = .success then do
        onWorld (.modify (.onEnvironment fun environment => { environment with env := handle }))
        pure ret
      else do
        onWorld (.modify (.onNative (Native.mdbEnvClose handle)))
        pure answer.setUserctx
    else pure ret
  onWorld (checkRetCode ret)
  configure config answer.setMapSize

end LmdbEnvironment

/-- A public call on the environment, an object of it or its finalizer, with
LMDB's answers. -/
inductive EnvironmentCall where
  | setMapSize (newValue : Int64) (answer : DbRetCode)
  | getMaxDatabases
  | setMaxDatabases (value : Int32)
  | getMaxReaders
  | setMaxReaders (value : Int32)
  | setOptions (options : LmdbEnvironmentOptions) (onoff : Bool)
  | getOptions (answer : DbRetCode)
  | getPath (freed : Option String)
  | openAt (path : String) (options : LmdbEnvironmentOptions) (fileMode : BitVec 32)
      (answer : Life.OpenAnswer)
  | act (act : Act)

/-- What such a call returns. -/
inductive EnvironmentReply where
  | nothing
  | number (value : Int32)
  | options (value : LmdbEnvironmentOptions)
  | path (value : Option String)
  | returned (value : Returned)
deriving DecidableEq

/-- LMDB can carry out the act: nothing begins before the environment is opened,
and after a failed open there is only the disposal. -/
def Life.admits (life : Life runtime) (act : Act) : Bool :=
  act.disposesEnvironment || life.settings.phase = .opened || life.world.environment.env = 0

/-- The body of a call. -/
def EnvironmentCall.run : EnvironmentCall → EnvironmentMethod runtime EnvironmentReply
  | .setMapSize newValue answer => do
      LmdbEnvironment.setMapSize newValue answer
      pure .nothing
  | .getMaxDatabases => do
      let value ← LmdbEnvironment.getMaxDatabases
      pure (.number value)
  | .setMaxDatabases value => do
      LmdbEnvironment.setMaxDatabases value
      pure .nothing
  | .getMaxReaders => do
      let value ← LmdbEnvironment.getMaxReaders
      pure (.number value)
  | .setMaxReaders value => do
      LmdbEnvironment.setMaxReaders value
      pure .nothing
  | .setOptions options onoff => do
      LmdbEnvironment.setOptions options onoff
      pure .nothing
  | .getOptions answer => fun life =>
      if life.settings.phase = .failed ∧ life.world.environment.env ≠ 0 then none
      else Life.onWorld (do
        let value ← LmdbEnvironment.getOptions answer
        pure (.options value)) life
  | .getPath freed => do
      let value ← LmdbEnvironment.getPath freed
      pure (.path value)
  | .openAt path options fileMode answer => do
      LmdbEnvironment.openAt path options fileMode answer
      pure .nothing
  | .act inner => fun life =>
      if life.admits inner then
        Life.onWorld (fun world => (inner.execute world).map fun outcome =>
          (outcome.1.map .returned, outcome.2)) life
      else none

/-- The act that a call is, if it is one. -/
def EnvironmentCall.act? : EnvironmentCall → Option Act
  | .act inner => some inner
  | _ => none

/-- The call asks LMDB for its path. -/
def EnvironmentCall.asksPath : EnvironmentCall → Bool
  | .getPath _ => true
  | _ => false

/-- The call runs `Dispose(bool)`. -/
def EnvironmentCall.disposes (call : EnvironmentCall) : Bool :=
  call.act?.any Act.disposesEnvironment

/-- A call with what it returned or threw. -/
abbrev Exchange := EnvironmentCall × Except Fault EnvironmentReply

/-- One call of a life. -/
def Life.Step (life : Life runtime) (exchange : Exchange) (after : Life runtime) : Prop :=
  exchange.1.run life = some (exchange.2, after)

/-- An act with what it returned or threw. -/
def Act.Replies (world : World runtime) (reply : Act × Except Exception Returned)
    (after : World runtime) : Prop :=
  reply.1.execute world = some (reply.2, after)

/-- What a life shows of an act. -/
def Act.exchange (reply : Act × Except Exception Returned) : Exchange :=
  (.act reply.1, (reply.2.map .returned).mapError .inl)

/-- The settings that LMDB refuses to change once the environment is open. -/
def NativeSettings.limits (settings : NativeSettings) : UInt32 × UInt32 × Option String :=
  (settings.maxDbs, settings.maxReaders, settings.path)

/-- The object and LMDB agree on the number of databases. -/
def Life.Cached (life : Life runtime) : Prop := life.maxDatabases = life.settings.maxDbs

/-- At most settings changed that are not the options, and none that LMDB keeps
from the moment it opened the environment. -/
structure SettingsOnly (life after : Life runtime) : Prop where
  world : after.world = life.world
  phase : after.settings.phase = life.settings.phase
  pathFreed : after.settings.pathFreed = life.settings.pathFreed
  frozen : life.settings.phase = .opened → after.settings.limits = life.settings.limits
  cached : life.Cached → after.Cached

/-- Nothing changed. -/
theorem SettingsOnly.refl (life : Life runtime) : SettingsOnly life life :=
  ⟨rfl, rfl, rfl, fun _ => rfl, id⟩

/-- What a call can do to a life. -/
inductive LifeEffect (life : Life runtime) : Exchange → Life runtime → Prop where
  | kept {call : EnvironmentCall} {result : Except Fault EnvironmentReply} {after : Life runtime}
      (other : call.act? = none) (only : SettingsOnly life after) :
      LifeEffect life (call, result) after
  | asked {freed : Option String} {result : Except Fault EnvironmentReply} :
      LifeEffect life (.getPath freed, result) { life with settings := { life.settings with
        pathFreed := life.settings.pathFreed || life.settings.path.isSome } }
  | reconfigured {call : EnvironmentCall} {result : Except Fault EnvironmentReply}
      {flags : LmdbEnvironmentOptions} {world : World runtime} (other : call.act? = none)
      (related : life.world.Reconfigured flags .unread world) :
      LifeEffect life (call, result) { life with world := world }
  | opened {path : String} {options : LmdbEnvironmentOptions} {fileMode : BitVec 32}
      {lastTxnId : Nat} {result : Except Fault EnvironmentReply}
      (created : life.settings.phase = .created) (held : life.world.environment.env ≠ 0) :
      LifeEffect life (.openAt path options fileMode ⟨.success, lastTxnId⟩, result) { life with
        settings := { life.settings with phase := .opened, path := some path }
        world := life.world.onNative fun native => { native with
          flags := Life.openOptions (options ||| native.flags), lastTxnId := lastTxnId } }
  | failed {call : EnvironmentCall} {result : Except Fault EnvironmentReply}
      (other : call.act? = none) (created : life.settings.phase = .created) :
      LifeEffect life (call, result)
        { life with settings := { life.settings with phase := .failed } }
  | act {act : Act} {reply : Except Exception Returned} {world : World runtime}
      (admitted : life.admits act = true)
      (executed : act.execute life.world = some (reply, world)) :
      LifeEffect life (Act.exchange (act, reply)) { life with world := world }

namespace Life

variable {life after : Life runtime} {α : Type}

/-- The check of the environment, which no setting matters to. -/
theorem onWorld_checkDisposed (life : Life runtime) :
    onWorld LmdbEnvironment.checkDisposed life =
      if life.world.environment.env = 0 then
        some (.error (.inl (.objectDisposed "LmdbEnvironment")), life)
      else some (.ok life.world.environment.env, life) := by
  unfold onWorld LmdbEnvironment.checkDisposed
  rw [Method.get_bind]
  split <;> rfl

/-- A change of the objects leaves the settings. -/
theorem onWorld_modify (change : World runtime → World runtime) (life : Life runtime) :
    onWorld (.modify change) life = some (.ok (), { life with world := change life.world }) := rfl

/-- Checking a code changes nothing, and only `SUCCESS` passes. -/
theorem onWorld_checkRetCode {ret : DbRetCode} {result : Except Fault Unit}
    (checked : onWorld (checkRetCode ret) life = some (result, after)) :
    after = life ∧ (result = .ok () ↔ ret = .success) := by
  obtain ⟨⟨inner, world⟩, ran, same⟩ := Option.map_eq_some_iff.mp checked
  cases same
  obtain rfl := checkRetCode_after ran
  refine ⟨rfl, ?_⟩
  by_cases success : ret = .success
  · rw [success, checkRetCode_success] at ran
    cases ran
    simp [success, Except.mapError]
  · obtain ⟨message, threw⟩ := checkRetCode_failed success life.world
    rw [threw] at ran
    cases ran
    simp [success, Except.mapError]

/-- A method over `RunChecked` threw before it called LMDB, or it called it. -/
theorem runChecked_cases {libFunc : IntPtr → EnvironmentMethod runtime DbRetCode}
    {result : Except Fault Unit}
    (ran : LmdbEnvironment.runChecked libFunc life = some (result, after)) :
    (after = life ∧ result ≠ .ok ()) ∨ life.world.environment.env ≠ 0 ∧
      ∃ outcome, libFunc life.world.environment.env life = some (outcome, after) ∧
        (result = .ok () ↔ outcome = .ok .success) := by
  unfold LmdbEnvironment.runChecked at ran
  by_cases shut : life.world.environment.env = 0
  · rw [Method.bind_of_error ((onWorld_checkDisposed life).trans (if_pos shut))] at ran
    cases ran
    exact .inl ⟨rfl, by simp⟩
  · rw [Method.bind_of_ok ((onWorld_checkDisposed life).trans (if_neg shut))] at ran
    refine .inr ⟨shut, ?_⟩
    rcases Method.bind_eq_some_iff.mp ran with ⟨fault, threw, rfl⟩ | ⟨ret, middle, called, checked⟩
    · exact ⟨_, threw, by simp⟩
    · obtain ⟨rfl, told⟩ := onWorld_checkRetCode checked
      exact ⟨_, called, told.trans (by simp)⟩

/-- The same for a method over `GetChecked`. -/
theorem getChecked_cases {libFunc : IntPtr → EnvironmentMethod runtime (DbRetCode × α)}
    {result : Except Fault α}
    (ran : LmdbEnvironment.getChecked libFunc life = some (result, after)) :
    after = life ∨ ∃ outcome, libFunc life.world.environment.env life = some (outcome, after) := by
  unfold LmdbEnvironment.getChecked at ran
  by_cases shut : life.world.environment.env = 0
  · rw [Method.bind_of_error ((onWorld_checkDisposed life).trans (if_pos shut))] at ran
    cases ran
    exact .inl rfl
  · rw [Method.bind_of_ok ((onWorld_checkDisposed life).trans (if_neg shut))] at ran
    rcases Method.bind_eq_some_iff.mp ran with ⟨fault, threw, _⟩ | ⟨reply, middle, called, rest⟩
    · exact .inr ⟨_, threw⟩
    · rcases Method.bind_eq_some_iff.mp rest with ⟨_, checked, _⟩ | ⟨_, _, checked, returned⟩
      · obtain ⟨rfl, _⟩ := onWorld_checkRetCode checked
        exact .inr ⟨_, called⟩
      · obtain ⟨rfl, _⟩ := onWorld_checkRetCode checked
        cases returned
        exact .inr ⟨_, called⟩

/-- A call that hands on what its method returned does what the method does. -/
theorem after_of_then {β : Type} {body : EnvironmentMethod runtime α} {next : α → β}
    {result : Except Fault β}
    (ran : (body >>= fun value => pure (next value)) life = some (result, after)) :
    ∃ inner, body life = some (inner, after) ∧ result = inner.map next := by
  rcases Method.bind_eq_some_iff.mp ran with ⟨fault, threw, rfl⟩ | ⟨value, middle, called, rest⟩
  · exact ⟨_, threw, rfl⟩
  · cases rest
    exact ⟨_, called, rfl⟩

/-- A call that returns passes on what its method returned. -/
theorem value_of_then {β : Type} {body : EnvironmentMethod runtime α} {next : α → β} {reply : β}
    (ran : (body >>= fun value => pure (next value)) life = some (.ok reply, after)) :
    ∃ value, body life = some (.ok value, after) ∧ reply = next value := by
  obtain ⟨inner, called, told⟩ := after_of_then ran
  cases inner with
  | error => cases told
  | ok value =>
      cases told
      exact ⟨value, called, rfl⟩

/-- LMDB takes such a setting, or refuses it because the environment is open. -/
theorem setEarly_cases {change : NativeSettings → NativeSettings} {ret : DbRetCode}
    (answered : setEarly change life = some (ret, after)) :
    life.settings.phase = .created ∧ ret = .success ∧
        after = { life with settings := change life.settings } ∨
      ret ≠ .success ∧ after = life := by
  unfold setEarly at answered
  split at answered
  · rename_i created
    cases answered
    exact .inl ⟨created, rfl, rfl⟩
  · cases answered
    exact .inr ⟨by decide, rfl⟩
  · cases answered

/-- `SetMapSize` changes settings only. -/
theorem settingsOnly_setMapSize {newValue : Int64} {answer : DbRetCode} {result : Except Fault Unit}
    (ran : LmdbEnvironment.setMapSize newValue answer life = some (result, after)) :
    SettingsOnly life after := by
  unfold LmdbEnvironment.setMapSize at ran
  rw [Method.get_bind] at ran
  rcases runChecked_cases ran with ⟨rfl, _⟩ | ⟨_, outcome, called, _⟩
  · exact .refl _
  · generalize LmdbEnvironment.toIntPtr _ _ = size at called
    cases size with
    | error fault =>
        cases called
        exact .refl _
    | ok size =>
        obtain ⟨⟨ret, left⟩, answered, same⟩ := Option.map_eq_some_iff.mp called
        cases same
        unfold mdbEnvSetMapsize at answered
        split at answered
        · cases answered
        · split at answered
          · cases answered
            exact ⟨rfl, rfl, rfl, fun _ => rfl, id⟩
          · cases answered
            exact .refl _

/-- The setter of `MaxDatabases` changes settings only. -/
theorem settingsOnly_setMaxDatabases {value : Int32} {result : Except Fault Unit}
    (ran : LmdbEnvironment.setMaxDatabases value life = some (result, after)) :
    SettingsOnly life after := by
  rcases Method.bind_eq_some_iff.mp ran with ⟨fault, threw, rfl⟩ | ⟨_, middle, set, cached⟩
  · rcases runChecked_cases threw with ⟨rfl, _⟩ | ⟨_, outcome, called, told⟩
    · exact .refl _
    · obtain ⟨⟨ret, left⟩, answered, same⟩ := Option.map_eq_some_iff.mp called
      cases same
      rcases setEarly_cases answered with ⟨_, rfl, _⟩ | ⟨_, rfl⟩
      · exact absurd (told.mpr rfl) (by simp)
      · exact .refl _
  · cases cached
    rcases runChecked_cases set with ⟨_, failed⟩ | ⟨_, outcome, called, told⟩
    · exact absurd rfl failed
    · obtain ⟨⟨ret, left⟩, answered, same⟩ := Option.map_eq_some_iff.mp called
      cases same
      rcases setEarly_cases answered with ⟨created, _, rfl⟩ | ⟨refused, _⟩
      · exact ⟨rfl, rfl, rfl, fun opened => absurd (created.symm.trans opened) (by decide),
          fun _ => rfl⟩
      · exact absurd (Except.ok.inj (told.mp rfl)) refused

/-- The setter of `MaxReaders` changes settings only. -/
theorem settingsOnly_setMaxReaders {value : Int32} {result : Except Fault Unit}
    (ran : LmdbEnvironment.setMaxReaders value life = some (result, after)) :
    SettingsOnly life after := by
  rcases runChecked_cases ran with ⟨rfl, _⟩ | ⟨_, outcome, called, _⟩
  · exact .refl _
  · obtain ⟨⟨ret, left⟩, answered, same⟩ := Option.map_eq_some_iff.mp called
    cases same
    unfold mdbEnvSetMaxreaders at answered
    split at answered
    · cases answered
      exact .refl _
    · rcases setEarly_cases answered with ⟨created, _, rfl⟩ | ⟨_, rfl⟩
      · exact ⟨rfl, rfl, rfl, fun opened => absurd (created.symm.trans opened) (by decide), id⟩
      · exact .refl _

private theorem same_of_getMaxDatabases {result : Except Fault Int32}
    (ran : LmdbEnvironment.getMaxDatabases life = some (result, after)) : after = life := by
  unfold LmdbEnvironment.getMaxDatabases at ran
  by_cases shut : life.world.environment.env = 0
  · rw [Method.bind_of_error ((onWorld_checkDisposed life).trans (if_pos shut))] at ran
    cases ran
    rfl
  · rw [Method.bind_of_ok ((onWorld_checkDisposed life).trans (if_neg shut))] at ran
    cases ran
    rfl

/-- Reading a setting leaves the life as it is. -/
theorem same_of_getChecked {result : Except Fault α}
    {libFunc : IntPtr → Life runtime → Option ((DbRetCode × α) × Life runtime)}
    (reads : ∀ env other left, libFunc env life = some (other, left) → left = life)
    (ran : LmdbEnvironment.getChecked (fun handle => .await (libFunc handle)) life =
      some (result, after)) : after = life := by
  rcases getChecked_cases ran with same | ⟨outcome, called⟩
  · exact same
  · obtain ⟨⟨other, left⟩, answered, same⟩ := Option.map_eq_some_iff.mp called
    cases same
    exact reads _ _ _ answered

end Life

namespace LifeEffect

variable {life after : Life runtime} {result : Except Fault EnvironmentReply}

private theorem same {call : EnvironmentCall} (other : call.act? = none)
    (unchanged : after = life) :
    LifeEffect life (call, result) after := by
  subst unchanged
  exact .kept other (.refl _)

private theorem of_setOptions {options : LmdbEnvironmentOptions} {onoff : Bool}
    {inner : Except Fault Unit}
    (ran : LmdbEnvironment.setOptions options onoff life = some (inner, after)) :
    LifeEffect life (.setOptions options onoff, result) after := by
  rcases Life.runChecked_cases ran with ⟨rfl, _⟩ | ⟨_, outcome, called, _⟩
  · exact same rfl rfl
  obtain ⟨⟨ret, left⟩, answered, equal⟩ := Option.map_eq_some_iff.mp called
  cases equal
  unfold Life.mdbEnvSetFlags at answered
  split at answered
  · cases answered
  split at answered
  · rename_i within
    cases answered
    refine .reconfigured rfl ⟨_, rfl, _, rfl, rfl, ?_⟩
    cases onoff
    · exact LmdbEnvironmentOptions.fixed_clear within
    · exact LmdbEnvironmentOptions.fixed_set within
  · cases answered
    exact same rfl rfl

private theorem of_getOptions {answer : DbRetCode} {inner : Except Exception LmdbEnvironmentOptions}
    {world : World runtime}
    (ran : LmdbEnvironment.getOptions answer life.world = some (inner, world)) :
    LifeEffect life (.getOptions answer, result) { life with world := world } := by
  by_cases shut : life.world.environment.env = 0
  · rw [LmdbEnvironment.getOptions, Method.bind_of_error (envCheck_of_shut shut)] at ran
    cases ran
    exact same rfl rfl
  rw [LmdbEnvironment.getOptions, Method.bind_of_ok (envCheck_of_open shut),
    Method.call_bind] at ran
  have asked : life.world.Reconfigured life.world.native.flags .unread (life.world.callNative
      (Native.mdbEnvGetFlags life.world.environment.env answer)).2 :=
    ⟨_, rfl, .asked _ answer life.world.native⟩
  have left : world = (life.world.callNative
      (Native.mdbEnvGetFlags life.world.environment.env answer)).2 := by
    rcases Method.bind_eq_some_iff.mp ran with ⟨_, checked, _⟩ | ⟨_, _, checked, rest⟩
    · exact checkRetCode_after checked
    · cases rest
      exact checkRetCode_after checked
  subst left
  exact .reconfigured rfl asked

/-- Asking for the path frees LMDB's string. -/
theorem of_getPath {freed : Option String} {inner : Except Fault (Option String)}
    (ran : LmdbEnvironment.getPath freed life = some (inner, after)) :
    LifeEffect life (.getPath freed, result) after := by
  rcases Life.getChecked_cases ran with rfl | ⟨outcome, called⟩
  · exact same rfl rfl
  · obtain ⟨⟨other, left⟩, answered, equal⟩ := Option.map_eq_some_iff.mp called
    cases equal
    unfold Life.mdbEnvGetPath at answered
    split at answered
    · cases answered
    · cases answered
      exact .asked

private theorem of_openAt {path : String} {options : LmdbEnvironmentOptions} {fileMode : BitVec 32}
    {answer : Life.OpenAnswer} {inner : Except Fault Unit}
    (ran : LmdbEnvironment.openAt path options fileMode answer life = some (inner, after)) :
    LifeEffect life (.openAt path options fileMode answer, result) after := by
  rcases Life.runChecked_cases ran with ⟨rfl, _⟩ | ⟨held, outcome, called, _⟩
  · exact same rfl rfl
  obtain ⟨⟨ret, left⟩, answered, equal⟩ := Option.map_eq_some_iff.mp called
  cases equal
  unfold Life.mdbEnvOpen at answered
  split at answered
  · rename_i created
    obtain ⟨code, lastTxnId⟩ := answer
    split at answered
    · rename_i success
      cases success
      cases answered
      exact .opened created held
    · cases answered
      exact .failed rfl created
  · cases answered
    exact same rfl rfl
  · cases answered

private theorem of_act {act : Act}
    (ran : EnvironmentCall.run (.act act) life = some (result, after)) :
    LifeEffect life (.act act, result) after := by
  unfold EnvironmentCall.run at ran
  dsimp only at ran
  split at ran
  · rename_i admitted
    obtain ⟨⟨reply, world⟩, executed, equal⟩ := Option.map_eq_some_iff.mp ran
    obtain ⟨⟨own, left⟩, acted, named⟩ := Option.map_eq_some_iff.mp executed
    cases named
    cases equal
    exact .act admitted acted
  · cases ran

/-- Every call of a life has one of these effects. -/
theorem of_step {exchange : Exchange} (step : life.Step exchange after) :
    LifeEffect life exchange after := by
  obtain ⟨call, result⟩ := exchange
  have ran : call.run life = some (result, after) := step
  cases call with
  | setMapSize newValue answer =>
      obtain ⟨_, set, _⟩ := Life.after_of_then ran
      exact .kept rfl (Life.settingsOnly_setMapSize set)
  | setMaxDatabases value =>
      obtain ⟨_, set, _⟩ := Life.after_of_then ran
      exact .kept rfl (Life.settingsOnly_setMaxDatabases set)
  | setMaxReaders value =>
      obtain ⟨_, set, _⟩ := Life.after_of_then ran
      exact .kept rfl (Life.settingsOnly_setMaxReaders set)
  | setOptions options onoff =>
      obtain ⟨_, set, _⟩ := Life.after_of_then ran
      exact of_setOptions set
  | openAt path options fileMode answer =>
      obtain ⟨_, opened, _⟩ := Life.after_of_then ran
      exact of_openAt opened
  | act act => exact of_act ran
  | getMaxDatabases =>
      obtain ⟨_, got, _⟩ := Life.after_of_then ran
      exact same rfl (Life.same_of_getMaxDatabases got)
  | getMaxReaders =>
      obtain ⟨_, got, _⟩ := Life.after_of_then ran
      obtain ⟨_, read, _⟩ := Life.after_of_then got
      refine same rfl (Life.same_of_getChecked (fun env other left answered => ?_) read)
      unfold Life.mdbEnvGetMaxreaders at answered
      split at answered
      · cases answered
      · cases answered
        rfl
  | getPath freed =>
      obtain ⟨_, got, _⟩ := Life.after_of_then ran
      exact of_getPath got
  | getOptions answer =>
      unfold EnvironmentCall.run at ran
      dsimp only at ran
      split at ran
      · cases ran
      · obtain ⟨⟨reply, world⟩, asked, equal⟩ := Option.map_eq_some_iff.mp ran
        cases equal
        rcases Method.bind_eq_some_iff.mp asked with ⟨_, threw, _⟩ | ⟨_, _, got, rest⟩
        · exact of_getOptions threw
        · cases rest
          exact of_getOptions got

end LifeEffect

end KdSoftLmdb
