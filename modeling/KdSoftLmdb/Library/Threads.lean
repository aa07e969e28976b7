import KdSoftLmdb.Library.Runs

/-!
# Threads over a shared state

A machine gives every call a first frame, and every frame one step that reads
and changes the shared state and leads to the next frame or to the end of the
call. A frame may hold a lock from one step to the next, and a step that takes a
lock waits while another thread holds it. A pool interleaves any number of
threads, each idle or in a call.

`Everywhere`, `Has` and `Distinct` are the three ways in which an invariant
speaks about the frames of a pool. Each has a rule for a step, so that an
invariant is proved for the frame that moves and not for pairs of frames.
-/

namespace KdSoftLmdb

variable {τ σ φ κ ρ μ α : Type}

/-- What a step of a frame leads to. -/
inductive Progress (φ ρ : Type) where
  | more (frame : φ)
  | finish (result : ρ)

/-- The frame of a thread after the step. -/
def Progress.frame? : Progress φ ρ → Option φ
  | more frame => some frame
  | finish _ => none

/-- The calls `κ` of a program with shared state `σ`, frames `φ`, results `ρ` and
locks `μ`. A step that cannot be made in a state is `none` there. -/
structure Machine (σ φ κ ρ μ : Type) where
  enter : σ → κ → Option φ
  advance : φ → σ → Option (Progress φ ρ × σ)
  /-- The lock that the next step of the frame takes. -/
  needs : σ → φ → Option μ
  /-- The lock that the frame holds. -/
  holds : φ → Option μ

/-- A shared state and the frames of the threads `τ`, `none` for an idle one. -/
structure Pool (τ σ φ : Type) where
  shared : σ
  frames : τ → Option φ

/-- A thread enters a call, or makes the next step of the one it is in. -/
inductive Action (κ : Type) where
  | call (call : κ)
  | advance

namespace Pool

/-- All threads are idle. -/
def idle (τ : Type) (shared : σ) : Pool τ σ φ := ⟨shared, fun _ => none⟩

/-- Another thread holds the lock that the next step of the frame takes. -/
def Waits (machine : Machine σ φ κ ρ μ) (pool : Pool τ σ φ) (thread : τ) (frame : φ) : Prop :=
  match machine.needs pool.shared frame with
  | some lock => ∃ other, other ≠ thread ∧ (pool.frames other).bind machine.holds = some lock
  | none => False

/-- Every frame of the pool has the property, in the shared state. -/
def Everywhere (holds : φ → σ → Prop) (pool : Pool τ σ φ) : Prop :=
  ∀ thread frame, pool.frames thread = some frame → holds frame pool.shared

/-- Some frame of the pool has the key. -/
def Has (key : φ → Option α) (pool : Pool τ σ φ) (value : α) : Prop :=
  ∃ thread, (pool.frames thread).bind key = some value

/-- No two frames of the pool have the same key. -/
def Distinct (key : φ → Option α) (pool : Pool τ σ φ) : Prop :=
  ∀ thread other value, (pool.frames thread).bind key = some value →
    (pool.frames other).bind key = some value → thread = other

instance [Fintype τ] [DecidableEq α] (key : φ → Option α) (pool : Pool τ σ φ) (value : α) :
    Decidable (pool.Has key value) := by
  unfold Has
  infer_instance

variable [DecidableEq τ]

instance [Fintype τ] [DecidableEq μ] (machine : Machine σ φ κ ρ μ) (pool : Pool τ σ φ) (thread : τ)
    (frame : φ) : Decidable (pool.Waits machine thread frame) := by
  unfold Waits
  split <;> infer_instance

/-- One thread has another frame, or none. -/
def set (pool : Pool τ σ φ) (thread : τ) (frame : Option φ) (shared : σ) : Pool τ σ φ :=
  ⟨shared, fun other => if other = thread then frame else pool.frames other⟩

/-- One step of one thread. -/
inductive Step (machine : Machine σ φ κ ρ μ) (pool : Pool τ σ φ) :
    τ × Action κ → Pool τ σ φ → Prop where
  | call {thread call frame} (idle : pool.frames thread = none)
      (enters : machine.enter pool.shared call = some frame) :
      Step machine pool (thread, .call call) (pool.set thread (some frame) pool.shared)
  | advance {thread frame progress shared} (here : pool.frames thread = some frame)
      (unlocked : ¬pool.Waits machine thread frame)
      (stepped : machine.advance frame pool.shared = some (progress, shared)) :
      Step machine pool (thread, .advance) (pool.set thread progress.frame? shared)

section Rules

variable {pool : Pool τ σ φ} {thread : τ} {shared : σ} {frame? : Option φ} {key : φ → Option α}

@[simp] theorem set_shared (pool : Pool τ σ φ) (thread : τ) (frame : Option φ) (shared : σ) :
    (pool.set thread frame shared).shared = shared := rfl

@[simp] theorem set_frames_self (pool : Pool τ σ φ) (thread : τ) (frame : Option φ) (shared : σ) :
    (pool.set thread frame shared).frames thread = frame := if_pos rfl

/-- The other threads are where they were. -/
theorem set_frames_of_ne (pool : Pool τ σ φ) {thread other : τ} (frame : Option φ) (shared : σ)
    (different : other ≠ thread) :
    (pool.set thread frame shared).frames other = pool.frames other := if_neg different

@[simp] theorem set_set (pool : Pool τ σ φ) (thread : τ) (first second : Option φ)
    (before after : σ) :
    (pool.set thread first before).set thread second after = pool.set thread second after := by
  simp only [set, mk.injEq, true_and]
  funext other
  by_cases mine : other = thread <;> simp [mine]

/-- The new frame has the property, and the frames of the others keep it. -/
theorem Everywhere.set {holds : φ → σ → Prop} (everywhere : pool.Everywhere holds)
    (own : ∀ frame, frame? = some frame → holds frame shared)
    (stable : ∀ other frame, other ≠ thread → pool.frames other = some frame →
      holds frame pool.shared → holds frame shared) :
    (pool.set thread frame? shared).Everywhere holds := by
  intro other frame here
  by_cases same : other = thread
  · rw [same, set_frames_self] at here
    exact own frame here
  · rw [set_frames_of_ne _ _ _ same] at here
    exact stable other frame same here (everywhere other frame here)

/-- A key stays in the pool unless its frame gives it up. -/
theorem Has.set {value : α} (has : pool.Has key value)
    (kept : (pool.frames thread).bind key = some value → frame?.bind key = some value) :
    (pool.set thread frame? shared).Has key value := by
  obtain ⟨other, keyed⟩ := has
  by_cases same : other = thread
  · refine ⟨thread, ?_⟩
    rw [set_frames_self]
    exact kept (same ▸ keyed)
  · refine ⟨other, ?_⟩
    rw [set_frames_of_ne _ _ _ same]
    exact keyed

/-- The new frame has the key of the old one, or one that no other frame has. -/
theorem Distinct.set (distinct : pool.Distinct key)
    (fresh : ∀ value, frame?.bind key = some value → (pool.frames thread).bind key = some value ∨
      ∀ other, other ≠ thread → (pool.frames other).bind key ≠ some value) :
    (pool.set thread frame? shared).Distinct key := by
  have own {other : τ} {value : α} (different : other ≠ thread)
      (mine : frame?.bind key = some value)
      (theirs : (pool.frames other).bind key = some value) : False := by
    rcases fresh value mine with before | unused
    · exact different (distinct other thread value theirs before)
    · exact unused other different theirs
  intro first second value here there
  by_cases mine : first = thread <;> by_cases mineToo : second = thread
  · exact mine.trans mineToo.symm
  · rw [mine, set_frames_self] at here
    rw [set_frames_of_ne _ _ _ mineToo] at there
    exact (own mineToo here there).elim
  · rw [set_frames_of_ne _ _ _ mine] at here
    rw [mineToo, set_frames_self] at there
    exact (own mine there here).elim
  · rw [set_frames_of_ne _ _ _ mine] at here
    rw [set_frames_of_ne _ _ _ mineToo] at there
    exact distinct first second value here there

end Rules

end Pool

namespace Machine

/-- Run a frame to the end of its call without another thread in between. -/
def alone (machine : Machine σ φ κ ρ μ) : Nat → φ → σ → Option (ρ × σ)
  | 0, _, _ => none
  | steps + 1, frame, state =>
      match machine.advance frame state with
      | none => none
      | some (.finish result, after) => some (result, after)
      | some (.more following, middle) => machine.alone steps following middle

/-- While the other threads are idle, a call that runs alone is a run of the pool. -/
theorem run_of_alone [DecidableEq τ] {machine : Machine σ φ κ ρ μ} {steps : Nat} {frame : φ}
    {pool : Pool τ σ φ} {thread : τ} {result : ρ} {after : σ}
    (ran : machine.alone steps frame pool.shared = some (result, after))
    (here : pool.frames thread = some frame)
    (others : ∀ other, other ≠ thread → pool.frames other = none) :
    ∃ labels, Run (Pool.Step machine) Always pool labels (pool.set thread none after) := by
  induction steps generalizing pool frame with
  | zero => cases ran
  | succ steps ih =>
      have unlocked : ¬pool.Waits machine thread frame := by
        unfold Pool.Waits
        split
        · rintro ⟨other, different, held⟩
          rw [others other different] at held
          cases held
        · exact id
      rw [alone] at ran
      split at ran
      · cases ran
      · rename_i stepped
        cases ran
        exact ⟨_, .single trivial (.advance here unlocked stepped)⟩
      · rename_i following middle stepped
        have first := Pool.Step.advance here unlocked stepped
        have idle (other : τ) (different : other ≠ thread) :
            (pool.set thread (some following) middle).frames other = none := by
          rw [Pool.set_frames_of_ne _ _ _ different, others other different]
        obtain ⟨labels, rest⟩ := ih ran (Pool.set_frames_self _ _ _ _) idle
        rw [Pool.set_set] at rest
        exact ⟨_, (Run.single trivial first).trans rest⟩

end Machine

end KdSoftLmdb
