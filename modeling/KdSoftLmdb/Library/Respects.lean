import KdSoftLmdb.Library.Method

/-!
# Bodies that do not tell related states apart

A relation on states says which differences a body is not to notice.
`Respects rel body` says that in related states the body returns or throws the
same, or waits in both, and leaves related states. A sequence respects what its
parts respect, so a method is checked primitive by primitive.
-/

namespace KdSoftLmdb.Method

variable {σ ε α β : Type} {rel : σ → σ → Prop}

/-- Two ways to end that agree in what is returned or thrown and leave related states. -/
def SameEnd (rel : σ → σ → Prop) : Option (α × σ) → Option (α × σ) → Prop :=
  Option.Rel fun left right => left.1 = right.1 ∧ rel left.2 right.2

/-- The body ends the same way in related states. -/
def Respects (rel : σ → σ → Prop) (body : Method σ ε α) : Prop :=
  ∀ state twin, rel state twin → SameEnd rel (body state) (body twin)

/-- Returning respects every relation. -/
theorem respects_pure (value : α) : Respects rel (pure value : Method σ ε α) :=
  fun _ _ related => .some ⟨rfl, related⟩

/-- Throwing respects every relation. -/
theorem respects_throw (exception : ε) : Respects rel (throw exception : Method σ ε α) :=
  fun _ _ related => .some ⟨rfl, related⟩

/-- A change respects a relation that it carries on. -/
theorem respects_modify {change : σ → σ}
    (onward : ∀ state twin, rel state twin → rel (change state) (change twin)) :
    Respects rel (modify change : Method σ ε Unit) :=
  fun state twin related => .some ⟨rfl, onward state twin related⟩

/-- A native call respects a relation when it answers related states alike. -/
theorem respects_call {body : σ → α × σ}
    (onward : ∀ state twin, rel state twin →
      (body state).1 = (body twin).1 ∧ rel (body state).2 (body twin).2) :
    Respects rel (call body : Method σ ε α) := by
  intro state twin related
  obtain ⟨same, kept⟩ := onward state twin related
  exact .some ⟨congrArg Except.ok same, kept⟩

/-- So does one that may be undefined. -/
theorem respects_await {body : σ → Option (α × σ)}
    (onward : ∀ state twin, rel state twin → SameEnd rel (body state) (body twin)) :
    Respects rel (await body : Method σ ε α) := by
  intro state twin related
  have ended := onward state twin related
  rw [await_apply, await_apply]
  generalize body state = left, body twin = right at ended
  cases ended with
  | some ended => exact .some ⟨congrArg Except.ok ended.1, ended.2⟩
  | none => exact .none

/-- Two bodies that respect a relation, one after the other. -/
theorem Respects.bind {body : Method σ ε α} {next : α → Method σ ε β} (first : Respects rel body)
    (rest : ∀ value, Respects rel (next value)) : Respects rel (body >>= next) := by
  intro state twin related
  have ended := first state twin related
  rw [bind_apply, bind_apply]
  generalize body state = left, body twin = right at ended
  cases ended with
  | none => exact .none
  | @some left right ended =>
      obtain ⟨result, after⟩ := left
      obtain ⟨_, other⟩ := right
      obtain ⟨rfl, kept⟩ := ended
      cases result with
      | error exception => exact .some ⟨rfl, kept⟩
      | ok value => exact rest value after other kept

/-- The rest must read from the current state what related states share. -/
theorem Respects.get_bind {next : σ → Method σ ε β}
    (same : ∀ state twin, rel state twin → next state = next twin)
    (rest : ∀ state, Respects rel (next state)) : Respects rel (get >>= next) := by
  intro state twin related
  rw [Method.get_bind, Method.get_bind, ← same state twin related]
  exact rest state state twin related

/-- A loop over a body that respects it. -/
theorem respects_forEach {body : β → Method σ ε Unit} (each : ∀ item, Respects rel (body item))
    (items : List β) : Respects rel (forEach items body) := by
  induction items with
  | nil => exact respects_pure ()
  | cons item rest ih => exact (each item).bind fun _ => ih

end KdSoftLmdb.Method
