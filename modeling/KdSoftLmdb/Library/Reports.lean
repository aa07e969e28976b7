import KdSoftLmdb.Library.Threads

/-!
# What became of the calls of a pool

A pool forgets a call when it ends. `Watched` keeps books on it: for every thread
the call it is in and the frames whose steps it has made, and a report of every
call that has ended, with its result and the shared state it left. The books do
not influence the steps, so every watched run is a run of the pool.
-/

namespace KdSoftLmdb

variable {τ σ φ κ ρ μ : Type}

/-- A call that has ended; `passed` are the frames whose steps it made, the last first. -/
structure Report (τ σ φ κ ρ : Type) where
  thread : τ
  call : κ
  passed : List φ
  result : ρ
  shared : σ

/-- A pool with the calls in progress and the reports, the latest first. -/
structure Watched (τ σ φ κ ρ : Type) where
  pool : Pool τ σ φ
  current : τ → Option (κ × List φ)
  reports : List (Report τ σ φ κ ρ)

namespace Watched

/-- No call was made yet. -/
def idle (τ : Type) (shared : σ) : Watched τ σ φ κ ρ := ⟨.idle τ shared, fun _ => none, []⟩

/-- A property of every call in progress: its frame, the shared state, the call
and the frames it has passed. -/
def Calls (holds : φ → σ → κ → List φ → Prop) (watched : Watched τ σ φ κ ρ) : Prop :=
  ∀ thread frame call passed, watched.pool.frames thread = some frame →
    watched.current thread = some (call, passed) → holds frame watched.pool.shared call passed

variable [DecidableEq τ]

/-- A thread has entered a call. -/
def entered (watched : Watched τ σ φ κ ρ) (thread : τ) (call : κ) (frame : φ) :
    Watched τ σ φ κ ρ where
  pool := watched.pool.set thread (some frame) watched.pool.shared
  current other := if other = thread then some (call, []) else watched.current other
  reports := watched.reports

/-- A thread has made a step of its call. -/
def advanced (watched : Watched τ σ φ κ ρ) (thread : τ) (call : κ) (passed : List φ)
    (progress : Progress φ ρ) (shared : σ) : Watched τ σ φ κ ρ where
  pool := watched.pool.set thread progress.frame? shared
  current other := if other = thread then progress.frame?.map fun _ => (call, passed)
    else watched.current other
  reports :=
    match progress with
    | .more _ => watched.reports
    | .finish result => ⟨thread, call, passed, result, shared⟩ :: watched.reports

/-- One step of one thread, with the books. -/
inductive Step (machine : Machine σ φ κ ρ μ) (watched : Watched τ σ φ κ ρ) :
    τ × Action κ → Watched τ σ φ κ ρ → Prop where
  | call {thread call frame} (idle : watched.pool.frames thread = none)
      (enters : machine.enter watched.pool.shared call = some frame) :
      Step machine watched (thread, .call call) (watched.entered thread call frame)
  | advance {thread frame progress shared call passed}
      (here : watched.pool.frames thread = some frame)
      (within : watched.current thread = some (call, passed))
      (unlocked : ¬watched.pool.Waits machine thread frame)
      (stepped : machine.advance frame watched.pool.shared = some (progress, shared)) :
      Step machine watched (thread, .advance)
        (watched.advanced thread call (frame :: passed) progress shared)

/-- Compute a step. -/
def next [Fintype τ] [DecidableEq μ] (machine : Machine σ φ κ ρ μ) (watched : Watched τ σ φ κ ρ) :
    τ × Action κ → Option (Watched τ σ φ κ ρ)
  | (thread, .call call) =>
      match watched.pool.frames thread with
      | some _ => none
      | none => (machine.enter watched.pool.shared call).map (watched.entered thread call)
  | (thread, .advance) =>
      (watched.pool.frames thread).bind fun frame => (watched.current thread).bind fun current =>
        if watched.pool.Waits machine thread frame then none
        else (machine.advance frame watched.pool.shared).map fun after =>
          watched.advanced thread current.1 (frame :: current.2) after.1 after.2

/-- A step that was computed is a step. -/
theorem step_of_next [Fintype τ] [DecidableEq μ] {machine : Machine σ φ κ ρ μ}
    {watched after : Watched τ σ φ κ ρ} {label : τ × Action κ}
    (computed : watched.next machine label = some after) : watched.Step machine label after := by
  obtain ⟨thread, action⟩ := label
  cases action with
  | call call =>
      rw [next] at computed
      split at computed
      · cases computed
      · rename_i idle
        obtain ⟨frame, enters, rfl⟩ := Option.map_eq_some_iff.mp computed
        exact .call idle enters
  | advance =>
      obtain ⟨frame, here, computed⟩ := Option.bind_eq_some_iff.mp computed
      obtain ⟨⟨call, passed⟩, within, stepped⟩ := Option.bind_eq_some_iff.mp computed
      split at stepped
      · cases stepped
      · rename_i unlocked
        obtain ⟨⟨progress, shared⟩, advanced, rfl⟩ := Option.map_eq_some_iff.mp stepped
        exact .advance here within unlocked advanced

variable {machine : Machine σ φ κ ρ μ} {watched after : Watched τ σ φ κ ρ} {label : τ × Action κ}

/-- The pool makes the same step without the books. -/
theorem Step.pool (step : watched.Step machine label after) :
    watched.pool.Step machine label after.pool := by
  cases step with
  | call idle enters => exact .call idle enters
  | advance here _ unlocked stepped => exact .advance here unlocked stepped

/-- Replaying labels under a decidable condition gives a run, and what holds where
it leads to can be evaluated. -/
theorem watched_of_replay [Fintype τ] [DecidableEq μ] (machine : Machine σ φ κ ρ μ)
    (allowed : Watched τ σ φ κ ρ → τ × Action κ → Prop)
    [∀ watched label, Decidable (allowed watched label)] (start : Watched τ σ φ κ ρ)
    (labels : List (τ × Action κ)) (holds : Watched τ σ φ κ ρ → Prop) [DecidablePred holds]
    (replayed : (replay (Watched.next machine) (fun watched label => decide (allowed watched label))
      start labels).any (fun watched => decide (holds watched)) = true) :
    ∃ watched, Run (Watched.Step machine) allowed start labels watched ∧ holds watched := by
  obtain ⟨watched, ran, shown⟩ := (Option.any_eq_true _ _).mp replayed
  exact ⟨watched, run_of_replay step_of_next of_decide_eq_true ran, of_decide_eq_true shown⟩

section Rules

variable {holds : φ → σ → κ → List φ → Prop} {thread : τ} {frame : φ} {call : κ}
  {passed : List φ} {progress : Progress φ ρ} {shared : σ}

/-- A call that begins has the property. -/
theorem Calls.entered (calls : watched.Calls holds) (own : holds frame watched.pool.shared call []) :
    (watched.entered thread call frame).Calls holds := by
  intro other frame' call' passed' here within
  dsimp only [Watched.entered] at here within ⊢
  by_cases same : other = thread
  · rw [same, Pool.set_frames_self] at here
    rw [if_pos same] at within
    cases here
    cases within
    exact own
  · rw [Pool.set_frames_of_ne _ _ _ same] at here
    rw [if_neg same] at within
    exact calls other frame' call' passed' here within

/-- A call has the property after its own step, and the other calls keep it. -/
theorem Calls.advanced (calls : watched.Calls holds)
    (own : ∀ following, progress = .more following → holds following shared call passed)
    (stable : ∀ other frame call passed, other ≠ thread → watched.pool.frames other = some frame →
      watched.current other = some (call, passed) →
      holds frame watched.pool.shared call passed → holds frame shared call passed) :
    (watched.advanced thread call passed progress shared).Calls holds := by
  intro other frame' call' passed' here within
  dsimp only [Watched.advanced] at here within ⊢
  by_cases same : other = thread
  · rw [same, Pool.set_frames_self] at here
    rw [if_pos same] at within
    cases progress with
    | finish => cases here
    | more following =>
        cases here
        cases within
        exact own _ rfl
  · rw [Pool.set_frames_of_ne _ _ _ same] at here
    rw [if_neg same] at within
    exact stable other frame' call' passed' same here within
      (calls other frame' call' passed' here within)

/-- A report was there before, or it is that of a call that has just ended. -/
theorem mem_reports_advanced {report : Report τ σ φ κ ρ}
    (member : report ∈ (watched.advanced thread call passed progress shared).reports) :
    report ∈ watched.reports ∨
      ∃ result, progress = .finish result ∧ report = ⟨thread, call, passed, result, shared⟩ := by
  cases progress with
  | more => exact .inl member
  | finish result =>
      rcases List.mem_cons.mp member with rfl | earlier
      · exact .inr ⟨result, rfl, rfl⟩
      · exact .inl earlier

end Rules

end Watched

end KdSoftLmdb
