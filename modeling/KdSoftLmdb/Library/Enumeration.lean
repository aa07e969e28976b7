import KdSoftLmdb.Library.Method

/-!
# Loops over an enumerator

An enumerator gets its first item in one way and the later ones in another, and
keeps what it got last. `foreach` runs a body on its items until there are no
more, or until a given number of them was seen; `fuel` bounds the calls of
`MoveNext`, and a loop that needs more does not return.

`foreach_of_enumerates` is the rule for such loops: it takes the items that lie
ahead of a state and what one round does, and gives what the whole loop does.
-/

namespace KdSoftLmdb

variable {σ ε α β τ : Type}

/-- What an enumerator remembers between two calls of `MoveNext`. -/
structure Enumerator (α : Type) where
  current : Option α
  isInitialized : Bool

namespace Enumerator

/-- A new enumerator. -/
def start : Enumerator α := ⟨none, false⟩

/-- Get the first item, or the next one. -/
def fetch (getFirst getNext : Method σ ε (Bool × α)) (isInitialized : Bool) :
    Method σ ε (Bool × α) :=
  if isInitialized then getNext else getFirst

/-- `MoveNext`: whether there is another item, and the enumerator that holds it. -/
def moveNext (getFirst getNext : Method σ ε (Bool × α)) (enumerator : Enumerator α) :
    Method σ ε (Bool × Enumerator α) := do
  let (isCurrent, item) ← fetch getFirst getNext enumerator.isInitialized
  pure (isCurrent, ⟨if isCurrent then some item else none, true⟩)

/-- `Current` -/
def getCurrent (invalid : ε) (enumerator : Enumerator α) : Method σ ε α :=
  match enumerator.current with
  | some item => pure item
  | none => .throw invalid

end Enumerator

/-- One round of a loop: `next` is the rest of it. -/
def foreachRound (getFirst getNext : Method σ ε (Bool × α)) (invalid : ε)
    (body : α → Method σ ε (List β)) (next : Enumerator α → Method σ ε (List β))
    (enumerator : Enumerator α) : Method σ ε (List β) := do
  let (moved, enumerator) ← enumerator.moveNext getFirst getNext
  if moved then do
    let item ← enumerator.getCurrent invalid
    let output ← body item
    let rest ← next enumerator
    pure (output ++ rest)
  else pure []

/-- `foreach` over an enumerator, with the outputs of the body in order. A `limit`
of `some n` leaves the loop after `n` items. -/
def foreach (getFirst getNext : Method σ ε (Bool × α)) (invalid : ε)
    (body : α → Method σ ε (List β)) : Nat → Option Nat → Enumerator α → Method σ ε (List β)
  | 0, _, _ => fun _ => none
  | fuel + 1, limit, enumerator =>
      if limit = some 0 then pure []
      else foreachRound getFirst getNext invalid body
        (foreach getFirst getNext invalid body fuel (limit.map (· - 1))) enumerator

/-- The items that a loop with this limit sees. -/
def limited (limit : Option Nat) (items : List τ) : List τ :=
  match limit with
  | some n => items.take n
  | none => items

/-- One round of a loop. `Ahead started items state` says which items lie ahead
of a state, `Here` where the cursor stands while the body runs on an item, and
`Left` what holds whenever the loop is left. -/
structure Enumerates (getFirst getNext : Method σ ε (Bool × α))
    (body : α → Method σ ε (List β)) (item : τ → α) (output : τ → List β)
    (Ahead : Bool → List τ → σ → Prop) (Here : τ → List τ → σ → Prop) (Left : σ → Prop) :
    Prop where
  left : ∀ started items state, Ahead started items state → Left state
  done : ∀ started state, Ahead started [] state → ∃ last after,
    Enumerator.fetch getFirst getNext started state = some (.ok (false, last), after) ∧ Left after
  moves : ∀ started first rest state, Ahead started (first :: rest) state → ∃ after,
    Enumerator.fetch getFirst getNext started state = some (.ok (true, item first), after) ∧
      Here first rest after
  runs : ∀ first rest state, Here first rest state → ∃ after,
    body (item first) state = some (.ok (output first), after) ∧ Ahead true rest after

section Rounds

variable {getFirst getNext : Method σ ε (Bool × α)} {invalid : ε} {body : α → Method σ ε (List β)}
  {next : Enumerator α → Method σ ε (List β)} {enumerator : Enumerator α}
  {state middle after : σ} {found : α} {output : List β}

private theorem foreachRound_of_done
    (got : Enumerator.fetch getFirst getNext enumerator.isInitialized state =
      some (.ok (false, found), after)) :
    foreachRound getFirst getNext invalid body next enumerator state = some (.ok [], after) := by
  have moved : enumerator.moveNext getFirst getNext state =
      some (.ok (false, ⟨none, true⟩), after) := by
    rw [Enumerator.moveNext, Method.bind_of_ok got]
    rfl
  rw [foreachRound, Method.bind_of_ok moved]
  rfl

private theorem foreachRound_of_moved
    (got : Enumerator.fetch getFirst getNext enumerator.isInitialized state =
      some (.ok (true, found), middle))
    (ran : body found middle = some (.ok output, after)) :
    foreachRound getFirst getNext invalid body next enumerator state =
      (next ⟨some found, true⟩ >>= fun rest => pure (output ++ rest)) after := by
  have moved : enumerator.moveNext getFirst getNext state =
      some (.ok (true, ⟨some found, true⟩), middle) := by
    rw [Enumerator.moveNext, Method.bind_of_ok got]
    rfl
  rw [foreachRound, Method.bind_of_ok moved]
  exact Method.bind_of_ok ran

/-- A fetch that throws ends the loop with its exception. -/
theorem foreachRound_of_error {exception : ε}
    (threw : Enumerator.fetch getFirst getNext enumerator.isInitialized state =
      some (.error exception, after)) :
    foreachRound getFirst getNext invalid body next enumerator state =
      some (.error exception, after) := by
  have failed : enumerator.moveNext getFirst getNext state = some (.error exception, after) := by
    rw [Enumerator.moveNext, Method.bind_of_error threw]
  rw [foreachRound, Method.bind_of_error failed]

end Rounds

/-- A loop runs its body on the items ahead, in order, up to its limit. -/
theorem foreach_of_enumerates {getFirst getNext : Method σ ε (Bool × α)} {invalid : ε}
    {body : α → Method σ ε (List β)} {item : τ → α} {output : τ → List β}
    {Ahead : Bool → List τ → σ → Prop} {Here : τ → List τ → σ → Prop} {Left : σ → Prop}
    (enumerates : Enumerates getFirst getNext body item output Ahead Here Left)
    {items : List τ} {fuel : Nat} (enough : items.length < fuel) (limit : Option Nat)
    {enumerator : Enumerator α} {state : σ} (ahead : Ahead enumerator.isInitialized items state) :
    ∃ after, foreach getFirst getNext invalid body fuel limit enumerator state =
      some (.ok ((limited limit items).flatMap output), after) ∧ Left after := by
  induction items generalizing fuel limit enumerator state with
  | nil =>
      obtain ⟨fuel, rfl⟩ := Nat.exists_eq_succ_of_ne_zero (Nat.ne_of_gt enough)
      have none : limited limit ([] : List τ) = [] := by cases limit <;> simp [limited]
      rw [none, foreach]
      split
      · exact ⟨state, rfl, enumerates.left _ _ _ ahead⟩
      · obtain ⟨last, after, got, left⟩ := enumerates.done _ _ ahead
        exact ⟨after, foreachRound_of_done got, left⟩
  | cons first rest ih =>
      obtain ⟨fuel, rfl⟩ := Nat.exists_eq_succ_of_ne_zero
        (Nat.ne_of_gt (Nat.lt_of_le_of_lt (Nat.zero_le _) enough))
      rw [foreach]
      split
      · rename_i reached
        subst reached
        exact ⟨state, rfl, enumerates.left _ _ _ ahead⟩
      · rename_i more
        obtain ⟨middle, got, here⟩ := enumerates.moves _ _ _ _ ahead
        obtain ⟨after, ran, onward⟩ := enumerates.runs _ _ _ here
        have shorter : rest.length < fuel := by
          simp only [List.length_cons] at enough
          omega
        obtain ⟨last, looped, left⟩ :=
          @ih fuel shorter (limit.map (· - 1)) ⟨some (item first), true⟩ after onward
        refine ⟨last, ?_, left⟩
        rw [foreachRound_of_moved got ran, Method.bind_of_ok looped]
        have seen : limited limit (first :: rest) = first :: limited (limit.map (· - 1)) rest := by
          cases limit with
          | none => rfl
          | some n =>
              obtain ⟨n, rfl⟩ := Nat.exists_eq_succ_of_ne_zero fun zero => more (zero ▸ rfl)
              rfl
        rw [seen, List.flatMap_cons]
        rfl

section Elsewhere

variable {getFirst getNext getOther : Method σ ε (Bool × α)} {body : α → Method σ ε (List β)}
  {item : τ → α} {output : τ → List β} {Ahead : Bool → List τ → σ → Prop}
  {Here : τ → List τ → σ → Prop} {Left : σ → Prop}

/-- The loop that begins with the operation that the other one goes on with. -/
theorem Enumerates.later
    (enumerates : Enumerates getFirst getNext body item output Ahead Here Left) :
    Enumerates getNext getNext body item output (fun _ => Ahead true) Here Left where
  left _ := enumerates.left true
  done started state ahead := by
    rw [Enumerator.fetch, ite_self]
    exact enumerates.done true state ahead
  moves started first rest state ahead := by
    rw [Enumerator.fetch, ite_self]
    exact enumerates.moves true first rest state ahead
  runs := enumerates.runs

/-- Less may be said of the state in which the loop is left. -/
theorem Enumerates.weaken {Left' : σ → Prop}
    (enumerates : Enumerates getFirst getNext body item output Ahead Here Left)
    (weaker : ∀ state, Left state → Left' state) :
    Enumerates getFirst getNext body item output Ahead Here Left' where
  left started items state ahead := weaker state (enumerates.left started items state ahead)
  done started state ahead := by
    obtain ⟨last, after, got, left⟩ := enumerates.done started state ahead
    exact ⟨last, after, got, weaker after left⟩
  moves := enumerates.moves
  runs := enumerates.runs

/-- The loop that gets its first item in another way, where there is one, and goes on
as the other one does. -/
theorem Enumerates.begun
    (enumerates : Enumerates getFirst getNext body item output Ahead Here Left)
    {Start : List τ → σ → Prop} (left : ∀ items state, Start items state → Left state)
    (nonempty : ∀ state, ¬Start [] state)
    (moves : ∀ first rest state, Start (first :: rest) state → ∃ after,
      getOther state = some (.ok (true, item first), after) ∧ Here first rest after) :
    Enumerates getOther getNext body item output
      (fun started => if started then Ahead true else Start) Here Left where
  left started items state ahead := by
    cases started with
    | true => exact enumerates.left true items state ahead
    | false => exact left items state ahead
  done started state ahead := by
    cases started with
    | true => exact enumerates.done true state ahead
    | false => exact absurd ahead (nonempty state)
  moves started first rest state ahead := by
    cases started with
    | true => exact enumerates.moves true first rest state ahead
    | false => exact moves first rest state ahead
  runs := enumerates.runs

end Elsewhere

/-- One round of a loop that is not left before its end: `Done` is what holds when
there is nothing ahead any more. -/
structure Exhausts (getFirst getNext : Method σ ε (Bool × α))
    (body : α → Method σ ε (List β)) (item : τ → α) (output : τ → List β)
    (Ahead : Bool → List τ → σ → Prop) (Here : τ → List τ → σ → Prop) (Done : σ → Prop) :
    Prop where
  done : ∀ started state, Ahead started [] state → ∃ last after,
    Enumerator.fetch getFirst getNext started state = some (.ok (false, last), after) ∧ Done after
  moves : ∀ started first rest state, Ahead started (first :: rest) state → ∃ after,
    Enumerator.fetch getFirst getNext started state = some (.ok (true, item first), after) ∧
      Here first rest after
  runs : ∀ first rest state, Here first rest state → ∃ after,
    body (item first) state = some (.ok (output first), after) ∧ Ahead true rest after

/-- A loop runs its body on all items ahead, in order, and leaves what it is to leave. -/
theorem foreach_of_exhausts {getFirst getNext : Method σ ε (Bool × α)} {invalid : ε}
    {body : α → Method σ ε (List β)} {item : τ → α} {output : τ → List β}
    {Ahead : Bool → List τ → σ → Prop} {Here : τ → List τ → σ → Prop} {Done : σ → Prop}
    (exhausts : Exhausts getFirst getNext body item output Ahead Here Done)
    {items : List τ} {fuel : Nat} (enough : items.length < fuel)
    {enumerator : Enumerator α} {state : σ} (ahead : Ahead enumerator.isInitialized items state) :
    ∃ after, foreach getFirst getNext invalid body fuel none enumerator state =
      some (.ok (items.flatMap output), after) ∧ Done after := by
  induction items generalizing fuel enumerator state with
  | nil =>
      obtain ⟨fuel, rfl⟩ := Nat.exists_eq_succ_of_ne_zero (Nat.ne_of_gt enough)
      obtain ⟨last, after, got, done⟩ := exhausts.done _ _ ahead
      exact ⟨after, foreachRound_of_done got, done⟩
  | cons first rest ih =>
      obtain ⟨fuel, rfl⟩ := Nat.exists_eq_succ_of_ne_zero (Nat.ne_of_gt (Nat.zero_lt_of_lt enough))
      obtain ⟨middle, got, here⟩ := exhausts.moves _ _ _ _ ahead
      obtain ⟨after, ran, onward⟩ := exhausts.runs _ _ _ here
      obtain ⟨last, looped, done⟩ :=
        @ih fuel (Nat.lt_of_succ_lt_succ enough) ⟨some (item first), true⟩ after onward
      refine ⟨last, ?_, done⟩
      rw [foreach, if_neg nofun, foreachRound_of_moved got ran]
      exact Method.bind_of_ok looped

end KdSoftLmdb
