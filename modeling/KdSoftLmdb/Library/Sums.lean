import KdSoftLmdb.Library.Threads

/-!
# Machines side by side

Two sets of calls over the same state and the same locks are one machine, whose
threads make calls of either kind. `Apart` is the mutual exclusion of two roles:
no thread is in the first role while another one is in the second.
-/

namespace KdSoftLmdb

variable {τ σ φ κ ρ φ' κ' ρ' μ : Type}

/-- Wrap the next frame or the result. -/
def Progress.map (frame : φ → φ') (result : ρ → ρ') : Progress φ ρ → Progress φ' ρ'
  | .more following => .more (frame following)
  | .finish value => .finish (result value)

namespace Machine

/-- The calls of both machines. -/
def sum (first : Machine σ φ κ ρ μ) (second : Machine σ φ' κ' ρ' μ) :
    Machine σ (φ ⊕ φ') (κ ⊕ κ') (ρ ⊕ ρ') μ where
  enter state
    | .inl call => (first.enter state call).map .inl
    | .inr call => (second.enter state call).map .inr
  advance
    | .inl frame, state => (first.advance frame state).map fun outcome =>
        (outcome.1.map .inl .inl, outcome.2)
    | .inr frame, state => (second.advance frame state).map fun outcome =>
        (outcome.1.map .inr .inr, outcome.2)
  needs state := Sum.elim (first.needs state) (second.needs state)
  holds := Sum.elim first.holds second.holds

variable {first : Machine σ φ κ ρ μ} {second : Machine σ φ' κ' ρ' μ} {state after : σ}

/-- A frame of the first machine advances as it does there. -/
theorem sum_advance_inl {frame : φ} {progress : Progress (φ ⊕ φ') (ρ ⊕ ρ')}
    (stepped : (first.sum second).advance (.inl frame) state = some (progress, after)) :
    ∃ own, first.advance frame state = some (own, after) ∧ progress = own.map .inl .inl := by
  obtain ⟨⟨own, _⟩, ran, equal⟩ := Option.map_eq_some_iff.mp stepped
  cases equal
  exact ⟨own, ran, rfl⟩

/-- A frame of the second machine advances as it does there. -/
theorem sum_advance_inr {frame : φ'} {progress : Progress (φ ⊕ φ') (ρ ⊕ ρ')}
    (stepped : (first.sum second).advance (.inr frame) state = some (progress, after)) :
    ∃ own, second.advance frame state = some (own, after) ∧ progress = own.map .inr .inr := by
  obtain ⟨⟨own, _⟩, ran, equal⟩ := Option.map_eq_some_iff.mp stepped
  cases equal
  exact ⟨own, ran, rfl⟩

/-- It waits when it waits there. -/
theorem sum_advance_inl_eq_none {frame : φ} :
    (first.sum second).advance (.inl frame) state = none ↔ first.advance frame state = none :=
  Option.map_eq_none_iff

end Machine

namespace Pool

/-- No thread is in the first role while another one is in the second. -/
def Apart (first second : τ → φ → Prop) (pool : Pool τ σ φ) : Prop :=
  ∀ thread other frame frame', thread ≠ other → pool.frames thread = some frame →
    pool.frames other = some frame' → first thread frame → ¬second other frame'

variable [DecidableEq τ] {pool : Pool τ σ φ} {thread : τ} {shared : σ} {frame? : Option φ}
  {first second first' second' : τ → φ → Prop}

/-- A step keeps the roles apart if it takes on neither role against another thread,
and if the others have no role after it that they did not have before. -/
theorem Apart.set (apart : pool.Apart first second)
    (takesFirst : ∀ frame, frame? = some frame → first' thread frame → ∀ other frame',
      thread ≠ other → pool.frames other = some frame' → ¬second' other frame')
    (takesSecond : ∀ frame, frame? = some frame → second' thread frame → ∀ other frame',
      thread ≠ other → pool.frames other = some frame' → ¬first' other frame')
    (others : ∀ other frame, thread ≠ other → pool.frames other = some frame →
      (first' other frame → first other frame) ∧ (second' other frame → second other frame)) :
    (pool.set thread frame? shared).Apart first' second' := by
  intro left right frame frame' different here there isFirst isSecond
  by_cases mine : left = thread
  · subst mine
    rw [set_frames_self] at here
    rw [set_frames_of_ne _ _ _ different.symm] at there
    exact takesFirst frame here isFirst right frame' different there isSecond
  · rw [set_frames_of_ne _ _ _ mine] at here
    by_cases mineToo : right = thread
    · subst mineToo
      rw [set_frames_self] at there
      exact takesSecond frame' there isSecond left frame different.symm here isFirst
    · rw [set_frames_of_ne _ _ _ mineToo] at there
      exact apart left right frame frame' different here there
        ((others left frame (Ne.symm mine) here).1 isFirst)
        ((others right frame' (Ne.symm mineToo) there).2 isSecond)

end Pool

end KdSoftLmdb
