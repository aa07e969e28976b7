import KdSoftLmdb.Library.Enumeration

/-!
# Enumerators with a flag

An enumerator that hands the variable of its item to the method that gets the next
one, and keeps in a flag what the method returned. A method that throws may have
written to the variable, and leaves the flag as it was.

As long as no call throws, such an enumerator shows what an `Enumerator` shows
(`FirstNextEnumerator.moveNext_shown`, `NextEnumerator.moveNext_shown`).
-/

namespace KdSoftLmdb

variable {σ ε α : Type}

/-- A method that writes an item to a variable and returns whether there is one. -/
abbrev GetItem (σ ε α : Type) := Method (σ × α) ε Bool

/-- The variables of an enumerator with one operation. -/
structure NextEnumerator (α : Type) where
  current : α
  isCurrent : Bool

/-- The variables of an enumerator that gets its first item in another way. -/
structure FirstNextEnumerator (α : Type) extends NextEnumerator α where
  isInitialized : Bool

namespace NextEnumerator

/-- `Current` -/
def getCurrent (invalid : ε) (enumerator : NextEnumerator α) : Except ε α :=
  if enumerator.isCurrent then .ok enumerator.current else .error invalid

/-- The state and the variable of the item. -/
def out (part : σ × NextEnumerator α) : σ × α := (part.1, part.2.current)

/-- Another state and another item. -/
def withOut (written : σ × α) (part : σ × NextEnumerator α) : σ × NextEnumerator α :=
  (written.1, { part.2 with current := written.2 })

/-- `return isCurrent = get(out current)` -/
def moveNext (get : GetItem σ ε α) : Method (σ × NextEnumerator α) ε Bool := do
  let isCurrent ← .zoom out withOut get
  .modify fun part => (part.1, { part.2 with isCurrent := isCurrent })
  pure isCurrent

/-- What the enumerator shows. -/
def shown (enumerator : NextEnumerator α) (isInitialized : Bool) : Enumerator α :=
  ⟨if enumerator.isCurrent then some enumerator.current else none, isInitialized⟩

section Calls

variable {get : GetItem σ ε α} {state after : σ} {enumerator : NextEnumerator α} {item : α}

/-- A fetch that returns makes the enumerator hold its item. -/
theorem moveNext_of_ok {found : Bool}
    (got : get (state, enumerator.current) = some (.ok found, (after, item))) :
    moveNext get (state, enumerator) = some (.ok found, (after, ⟨item, found⟩)) := by
  have ran : get (out (state, enumerator)) = some (.ok found, (after, item)) := got
  have wrote : Method.zoom out withOut get (state, enumerator) =
      some (.ok found, (after, ⟨item, enumerator.isCurrent⟩)) := Method.zoom_of_some ran
  rw [moveNext, Method.bind_of_ok wrote]
  rfl

/-- The flag stays when the method throws. -/
theorem moveNext_of_error {exception : ε}
    (threw : get (state, enumerator.current) = some (.error exception, (after, item))) :
    moveNext get (state, enumerator) =
      some (.error exception, (after, ⟨item, enumerator.isCurrent⟩)) := by
  have ran : get (out (state, enumerator)) = some (.error exception, (after, item)) := threw
  have wrote : Method.zoom out withOut get (state, enumerator) =
      some (.error exception, (after, ⟨item, enumerator.isCurrent⟩)) := Method.zoom_of_some ran
  rw [moveNext, Method.bind_of_error wrote]

end Calls

end NextEnumerator

namespace FirstNextEnumerator

/-- The variables that both kinds of enumerators have. -/
def held (part : σ × FirstNextEnumerator α) : σ × NextEnumerator α :=
  (part.1, part.2.toNextEnumerator)

/-- Another state and other variables. -/
def withHeld (written : σ × NextEnumerator α) (part : σ × FirstNextEnumerator α) :
    σ × FirstNextEnumerator α :=
  (written.1, { part.2 with toNextEnumerator := written.2 })

/-- `MoveNext` -/
def moveNext (getFirst getNext : GetItem σ ε α) : Method (σ × FirstNextEnumerator α) ε Bool := do
  let (_, enumerator) ← .get
  if enumerator.isInitialized then .zoom held withHeld (NextEnumerator.moveNext getNext)
  else do
    .modify fun part => (part.1, { part.2 with isInitialized := true })
    .zoom held withHeld (NextEnumerator.moveNext getFirst)

/-- What the enumerator shows. -/
def shown (enumerator : FirstNextEnumerator α) : Enumerator α :=
  enumerator.toNextEnumerator.shown enumerator.isInitialized

/-- The operation is the one for the next item once the enumerator was called. -/
theorem moveNext_of_some {getFirst getNext : GetItem σ ε α} {state : σ}
    {enumerator : FirstNextEnumerator α} {result : Except ε Bool} {after : σ × NextEnumerator α}
    (moved : NextEnumerator.moveNext (if enumerator.isInitialized then getNext else getFirst)
      (state, enumerator.toNextEnumerator) = some (result, after)) :
    moveNext getFirst getNext (state, enumerator) = some (result, (after.1, ⟨after.2, true⟩)) := by
  obtain ⟨inner, isInitialized⟩ := enumerator
  rw [moveNext, Method.get_bind]
  cases isInitialized with
  | true =>
      have ran : NextEnumerator.moveNext getNext (held (state, ⟨inner, true⟩)) =
          some (result, after) := moved
      exact Method.zoom_of_some ran
  | false =>
      have ran : NextEnumerator.moveNext getFirst (held (state, ⟨inner, true⟩)) =
          some (result, after) := moved
      have zoomed : Method.zoom held withHeld (NextEnumerator.moveNext getFirst)
          (state, ⟨inner, true⟩) = some (result, (after.1, ⟨after.2, true⟩)) :=
        Method.zoom_of_some ran
      exact zoomed

end FirstNextEnumerator

section Shown

variable {τ : Type} {view : σ → τ} {getFirst getNext get : GetItem τ ε α}
  {fetchFirst fetchNext fetch : Method σ ε (Bool × α)} {state after : σ} {found : Bool}
  {shows : Enumerator α}

/-- From this state, the method that writes an item to a variable does on the part of
the state that it knows what the one that returns the item does. -/
def HandsOut (view : σ → τ) (get : GetItem τ ε α) (fetch : Method σ ε (Bool × α)) (state : σ) :
    Prop :=
  ∀ old found item after, fetch state = some (.ok (found, item), after) →
    get (view state, old) = some (.ok found, (view after, item))

private theorem Enumerator.moveNext_ok {enumerator : Enumerator α}
    (moved : enumerator.moveNext fetchFirst fetchNext state = some (.ok (found, shows), after)) :
    ∃ item, Enumerator.fetch fetchFirst fetchNext enumerator.isInitialized state =
        some (.ok (found, item), after) ∧
      shows = ⟨if found then some item else none, true⟩ := by
  rcases Method.bind_eq_some_iff.mp moved with ⟨_, _, absurd⟩ | ⟨⟨_, item⟩, middle, got, returned⟩
  · cases absurd
  · cases returned
    exact ⟨item, got, rfl⟩

/-- The enumerator that holds its items moves as the one that is shown. -/
theorem NextEnumerator.moveNext_shown {enumerator : NextEnumerator α} {isInitialized : Bool}
    (handsOut : HandsOut view get fetch state)
    (moved : (enumerator.shown isInitialized).moveNext fetch fetch state =
      some (.ok (found, shows), after)) :
    ∃ later, moveNext get (view state, enumerator) = some (.ok found, (view after, later)) ∧
      later.shown true = shows := by
  obtain ⟨item, got, rfl⟩ := Enumerator.moveNext_ok moved
  rw [Enumerator.fetch, ite_self] at got
  exact ⟨⟨item, found⟩, moveNext_of_ok (handsOut _ _ _ _ got), rfl⟩

/-- So does the one with a first operation of its own. -/
theorem FirstNextEnumerator.moveNext_shown {enumerator : FirstNextEnumerator α}
    (first : HandsOut view getFirst fetchFirst state)
    (next : HandsOut view getNext fetchNext state)
    (moved : enumerator.shown.moveNext fetchFirst fetchNext state =
      some (.ok (found, shows), after)) :
    ∃ later, moveNext getFirst getNext (view state, enumerator) =
        some (.ok found, (view after, later)) ∧
      later.shown = shows := by
  obtain ⟨item, got, rfl⟩ := Enumerator.moveNext_ok moved
  refine ⟨⟨⟨item, found⟩, true⟩, moveNext_of_some (NextEnumerator.moveNext_of_ok ?_), rfl⟩
  obtain ⟨inner, isInitialized⟩ := enumerator
  cases isInitialized with
  | true => exact next _ _ _ _ got
  | false => exact first _ _ _ _ got

end Shown

end KdSoftLmdb
