import KdSoftLmdb.Invariants.Databases

/-!
# The invariants of every history

`WorldSound` collects the invariants that hold whatever the calls are.
`WorldSound.step` is the step lemma and `reachable_sound` the run lemma; a
history under any condition is a history, so both serve every later module.
-/

namespace KdSoftLmdb

variable {runtime : Runtime}

/-- What holds in every reachable state. -/
structure WorldSound (world : World runtime) : Prop where
  natives : NativeSound world.native
  transactions : TransactionsSound world
  cursors : CursorsSound world
  databases : DatabasesSound world

namespace WorldSound

variable {world after : World runtime}

/-- A new environment is sound. -/
theorem opened (flags : LmdbEnvironmentOptions) (lastTxnId : Nat) :
    WorldSound (World.opened runtime flags lastTxnId) where
  natives := .opened flags lastTxnId
  transactions := ⟨rfl, fun _ _ => rfl, fun _ _ => nofun⟩
  cursors := ⟨fun _ live => (live rfl).elim, fun _ live => (live rfl).elim⟩
  databases := ⟨fun _ live => (live rfl).elim, fun _ _ => rfl, fun _ _ live => (live rfl).elim,
    fun _ live => (live rfl).elim, fun _ _ => .nil, nofun, fun _ _ live => (live rfl).elim⟩

/-- Whatever a call does keeps the invariant. -/
theorem effect (sound : WorldSound world) {op : Op} (effect : Effect world op after) :
    WorldSound after where
  natives := sound.natives.effect sound.transactions.idle effect
  transactions := sound.transactions.effect effect
  cursors := sound.cursors.effect sound.transactions sound.natives effect
  databases := sound.databases.effect sound.transactions sound.natives effect

/-- The end of a transaction keeps it. -/
theorem closing (sound : WorldSound world) {t : TxnRef} (live : world.handle t ≠ 0)
    (ending : Ending) : WorldSound (closing t ending world) where
  natives := sound.natives.closing t ending
  transactions := sound.transactions.closing ending live
  cursors := sound.cursors.closing t ending
  databases := sound.databases.closing live

/-- So does the first step of the disposal of the environment. -/
theorem handleCleared (sound : WorldSound world) : WorldSound world.handleCleared where
  natives := sound.natives
  transactions := ⟨sound.transactions.idle, sound.transactions.unborn, sound.transactions.older⟩
  cursors := ⟨sound.cursors.bound, sound.cursors.owned⟩
  databases := sound.databases.same rfl rfl rfl fun opened => (opened rfl).elim

/-- The step lemma. -/
theorem step (sound : WorldSound world) {op : Op} (step : Step world op after) : WorldSound after :=
  sound.effect (effect_of_step step)

private theorem run (sound : WorldSound world) {allowed : World runtime → Op → Prop} {ops : List Op}
    (run : Run Step allowed world ops after) : WorldSound after :=
  run.invariant WorldSound sound fun held _ transition => held.step transition

private theorem of_history {allowed : World runtime → Op → Prop} {flags : LmdbEnvironmentOptions}
    {lastTxnId : Nat} {ops : List Op} (history : History allowed flags lastTxnId ops world) :
    WorldSound world :=
  (opened flags lastTxnId).run history

end WorldSound

/-- The run lemma: every state that is reached is sound. -/
theorem reachable_sound {world : World runtime} (reachable : Reachable world) :
    WorldSound world := by
  obtain ⟨_, _, _, history⟩ := reachable
  exact .of_history history

/-- A history under a condition leads to a reachable state. -/
theorem reachable_of_history {world : World runtime} {allowed : World runtime → Op → Prop}
    {flags : LmdbEnvironmentOptions} {lastTxnId : Nat} {ops : List Op}
    (history : History allowed flags lastTxnId ops world) : Reachable world :=
  ⟨flags, lastTxnId, ops, history.mono fun _ => trivial⟩

/-- Replaying calls under a decidable condition gives a history, and what holds
where it leads to can be evaluated. -/
theorem history_of_replay (allowed : World runtime → Op → Prop)
    [∀ world op, Decidable (allowed world op)] (flags : LmdbEnvironmentOptions) (lastTxnId : Nat)
    (ops : List Op) (holds : World runtime → Prop) [DecidablePred holds]
    (observed : (replay stepTo (fun world op => decide (allowed world op))
      (World.opened runtime flags lastTxnId) ops).any (fun world => decide (holds world)) = true) :
    ∃ world, History allowed flags lastTxnId ops world ∧ holds world := by
  cases replayed : replay stepTo (fun world op => decide (allowed world op))
      (World.opened runtime flags lastTxnId) ops with
  | none => simp [replayed] at observed
  | some world =>
      rw [replayed] at observed
      exact ⟨world, run_of_replay step_of_stepTo of_decide_eq_true replayed,
        of_decide_eq_true observed⟩

instance : ∀ (world : World runtime) (op : Op), Decidable (Always world op) :=
  fun _ _ => .isTrue trivial

end KdSoftLmdb
