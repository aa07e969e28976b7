import Mathlib

/-!
# Method bodies over a shared state

A method call either does not return (`none`: the callee waits for something
that never happens), or it returns a value or an exception together with the
state it leaves behind. An exception keeps every effect made before it was
thrown; nothing is rolled back.

`Method.bind_eq_some_iff` is the one rule later proofs use to take a body
apart; the lemmas after it evaluate the primitive bodies.
-/

namespace KdSoftLmdb

/-- A method body over the state `σ` with exceptions `ε` and result `α`. -/
def Method (σ ε α : Type) : Type := σ → Option (Except ε α × σ)

namespace Method

variable {σ ε α β : Type}

instance : Monad (Method σ ε) where
  pure value := fun state => some (.ok value, state)
  bind body next := fun state =>
    match body state with
    | none => none
    | some (.error exception, after) => some (.error exception, after)
    | some (.ok value, after) => next value after

/-- Leave the method with an exception; the state stays as it is. -/
def throw (exception : ε) : Method σ ε α := fun state => some (.error exception, state)

/-- The current state. -/
def get : Method σ ε σ := fun state => some (.ok state, state)

/-- Change the state. -/
def modify (change : σ → σ) : Method σ ε Unit := fun state => some (.ok (), change state)

/-- Run a total state-changing function and return what it computed. -/
def call (body : σ → α × σ) : Method σ ε α := fun state =>
  some (.ok (body state).1, (body state).2)

/-- Run a function that may fail to return. -/
def await (body : σ → Option (α × σ)) : Method σ ε α := fun state =>
  (body state).map fun result => (.ok result.1, result.2)

/-- Run the body on every element of a list in order, as `foreach` does. -/
def forEach (items : List β) (body : β → Method σ ε Unit) : Method σ ε Unit :=
  match items with
  | [] => pure ()
  | item :: rest => do
      body item
      forEach rest body

/-- Run a body on a part of the state. -/
def zoom {τ : Type} (view : σ → τ) (update : τ → σ → σ) (body : Method τ ε α) : Method σ ε α :=
  fun state => (body (view state)).map fun outcome => (outcome.1, update outcome.2 state)

/-- What a bind does, by the outcome of its body. -/
theorem bind_apply (body : Method σ ε α) (next : α → Method σ ε β) (state : σ) :
    (body >>= next) state =
      match body state with
      | none => none
      | some (.error exception, after) => some (.error exception, after)
      | some (.ok value, after) => next value after := rfl

/-- A sequence returns exactly when its first body threw, or when the first
body returned and the rest returned from the state it left. -/
theorem bind_eq_some_iff {body : Method σ ε α} {next : α → Method σ ε β} {state after : σ}
    {result : Except ε β} :
    (body >>= next) state = some (result, after) ↔
      (∃ exception, body state = some (.error exception, after) ∧ result = .error exception) ∨
      ∃ value middle, body state = some (.ok value, middle) ∧
        next value middle = some (result, after) := by
  rw [bind_apply]
  rcases body state with _ | ⟨exception | value, middle⟩
  · simp
  · constructor
    · intro equal
      cases equal
      exact .inl ⟨exception, rfl, rfl⟩
    · rintro (⟨_, equal, rfl⟩ | ⟨_, _, equal, _⟩)
      · cases equal
        rfl
      · cases equal
  · constructor
    · exact fun rest => .inr ⟨value, middle, rfl, rest⟩
    · rintro (⟨_, equal, _⟩ | ⟨_, _, equal, rest⟩)
      · cases equal
      · cases equal
        exact rest

@[simp] theorem pure_apply (value : α) (state : σ) :
    (pure value : Method σ ε α) state = some (.ok value, state) := rfl

@[simp] theorem throw_apply (exception : ε) (state : σ) :
    (throw exception : Method σ ε α) state = some (.error exception, state) := rfl

@[simp] theorem get_apply (state : σ) : (get : Method σ ε σ) state = some (.ok state, state) := rfl

@[simp] theorem modify_apply (change : σ → σ) (state : σ) :
    (modify change : Method σ ε Unit) state = some (.ok (), change state) := rfl

@[simp] theorem call_apply (body : σ → α × σ) (state : σ) :
    (call body : Method σ ε α) state = some (.ok (body state).1, (body state).2) := rfl

@[simp] theorem await_apply (body : σ → Option (α × σ)) (state : σ) :
    (await body : Method σ ε α) state =
      (body state).map fun result => (.ok result.1, result.2) := rfl

/-- A first body that returns hands its value and state to the rest. -/
theorem bind_of_ok {body : Method σ ε α} {next : α → Method σ ε β} {state middle : σ} {value : α}
    (returned : body state = some (.ok value, middle)) :
    (body >>= next) state = next value middle := by
  rw [bind_apply, returned]

/-- A first body that throws ends the sequence. -/
theorem bind_of_error {body : Method σ ε α} {next : α → Method σ ε β} {state middle : σ}
    {exception : ε} (threw : body state = some (.error exception, middle)) :
    (body >>= next) state = some (Except.error exception, middle) := by
  rw [bind_apply, threw]

/-- A method on a part of the state does what it does there. -/
theorem zoom_of_some {τ : Type} {view : σ → τ} {update : τ → σ → σ} {body : Method τ ε α}
    {state : σ} {result : Except ε α} {part : τ} (ran : body (view state) = some (result, part)) :
    zoom view update body state = some (result, update part state) := by
  rw [zoom, ran]
  rfl

@[simp] theorem get_bind (next : σ → Method σ ε β) (state : σ) :
    (get >>= next) state = next state state := rfl

@[simp] theorem pure_bind (value : α) (next : α → Method σ ε β) (state : σ) :
    (pure value >>= next) state = next value state := rfl

@[simp] theorem modify_bind (change : σ → σ) (next : Unit → Method σ ε β) (state : σ) :
    (modify change >>= next) state = next () (change state) := rfl

@[simp] theorem call_bind (body : σ → α × σ) (next : α → Method σ ε β) (state : σ) :
    (call body >>= next) state = next (body state).1 (body state).2 := rfl

/-- What follows a native call gets its result. -/
theorem await_bind (body : σ → Option (α × σ)) (next : α → Method σ ε β) (state : σ) :
    (await body >>= next) state = (body state).bind fun outcome => next outcome.1 outcome.2 := by
  rw [bind_apply, await_apply]
  cases body state <;> rfl

/-- Sequences of three bodies do not depend on how they are grouped. -/
theorem bind_assoc {γ : Type} (body : Method σ ε α) (next : α → Method σ ε β)
    (last : β → Method σ ε γ) :
    body >>= next >>= last = body >>= fun value => next value >>= last := by
  funext state
  rw [bind_apply, bind_apply, bind_apply]
  rcases body state with _ | ⟨_ | _, _⟩ <;> rfl

/-- Two sequences that start alike and go on alike are the same. -/
theorem bind_congr {body : Method σ ε α} {next other : α → Method σ ε β}
    (same : ∀ value, next value = other value) : body >>= next = body >>= other :=
  congrArg (body >>= ·) (funext same)

/-- The rest of the body follows in both branches. -/
theorem ite_bind (condition : Prop) [Decidable condition] (body other : Method σ ε α)
    (next : α → Method σ ε β) :
    (if condition then body else other) >>= next =
      if condition then body >>= next else other >>= next := by
  split <;> rfl

/-- What follows a value gets it. -/
theorem pure_then (value : α) (next : α → Method σ ε β) :
    (pure value : Method σ ε α) >>= next = next value := rfl

/-- Nothing follows an exception. -/
theorem throw_then (exception : ε) (next : α → Method σ ε β) :
    (throw exception : Method σ ε α) >>= next = throw exception := rfl

@[simp] theorem throw_bind (exception : ε) (next : α → Method σ ε β) (state : σ) :
    (throw exception >>= next) state = some (Except.error exception, state) := rfl

section Keeps

variable {τ : Type} {view : σ → τ}

/-- What `view` shows of the state is the same whenever the body is left. -/
def Keeps (view : σ → τ) (body : Method σ ε α) : Prop :=
  ∀ state result after, body state = some (result, after) → view after = view state

/-- Returning keeps the view. -/
theorem keeps_pure (value : α) : Keeps view (pure value : Method σ ε α) := by
  intro state result after returned
  cases returned
  rfl

/-- Throwing keeps the view. -/
theorem keeps_throw (exception : ε) : Keeps view (throw exception : Method σ ε α) := by
  intro state result after returned
  cases returned
  rfl

/-- Reading the state keeps the view. -/
theorem keeps_get : Keeps view (get : Method σ ε σ) := by
  intro state result after returned
  cases returned
  rfl

/-- A change keeps the view when it does so in every state. -/
theorem keeps_modify {change : σ → σ} (same : ∀ state, view (change state) = view state) :
    Keeps view (modify change : Method σ ε Unit) := by
  intro state result after returned
  cases returned
  exact same state

/-- A native call keeps the view when it does so in every state. -/
theorem keeps_call {body : σ → α × σ} (same : ∀ state, view (body state).2 = view state) :
    Keeps view (call body : Method σ ε α) := by
  intro state result after returned
  cases returned
  exact same state

/-- A native call that may be undefined keeps the view when it does so in every state. -/
theorem keeps_await {body : σ → Option (α × σ)}
    (same : ∀ state value after, body state = some (value, after) → view after = view state) :
    Keeps view (await body : Method σ ε α) := by
  intro state result after returned
  obtain ⟨⟨value, left⟩, ran, equal⟩ := Option.map_eq_some_iff.mp returned
  cases equal
  exact same state value left ran

/-- Two bodies that keep the view, one after the other. -/
theorem Keeps.bind {body : Method σ ε α} {next : α → Method σ ε β} (first : Keeps view body)
    (rest : ∀ value, Keeps view (next value)) : Keeps view (body >>= next) := by
  intro state result after returned
  rcases bind_eq_some_iff.mp returned with ⟨_, threw, _⟩ | ⟨value, middle, ran, onward⟩
  · exact first _ _ _ threw
  · exact (rest value _ _ _ onward).trans (first _ _ _ ran)

/-- The rest may use that the state is the current one. -/
theorem Keeps.get_bind {next : σ → Method σ ε β} (rest : ∀ state, Keeps view (next state)) :
    Keeps view (get >>= next) := keeps_get.bind rest

end Keeps

section Gives

variable {holds : β → Prop}

/-- Every value that the body returns has the property. -/
def Gives (holds : α → Prop) (body : Method σ ε α) : Prop :=
  ∀ state value after, body state = some (.ok value, after) → holds value

/-- A value that is returned. -/
theorem gives_pure {value : β} (own : holds value) : Gives holds (pure value : Method σ ε β) := by
  intro state result after returned
  cases returned
  exact own

/-- An exception gives no value. -/
theorem gives_throw (exception : ε) : Gives holds (throw exception : Method σ ε β) := by
  intro state result after returned
  cases returned

/-- The last body decides. -/
theorem gives_bind {body : Method σ ε α} {next : α → Method σ ε β}
    (rest : ∀ value, Gives holds (next value)) : Gives holds (body >>= next) := by
  intro state result after returned
  rcases bind_eq_some_iff.mp returned with ⟨_, _, absurd⟩ | ⟨value, middle, _, onward⟩
  · cases absurd
  · exact rest value _ _ _ onward

end Gives

end Method

end KdSoftLmdb
