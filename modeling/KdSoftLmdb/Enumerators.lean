import KdSoftLmdb.Library.Held
import KdSoftLmdb.MultiValueCursor

/-!
# The position of an enumerator

The four enumerators of the cursors hand their `current` variable to `Cursor.Get`
or `Cursor.GetData`, which write to it before they look at LMDB's code, and keep
what these return in `isCurrent`. A call that throws does not reach the flag, so
`Current` goes on as after the call before it.
-/

namespace KdSoftLmdb

variable {runtime : Runtime} {α : Type}

/-- One call of `MoveNext`: the objects at that time, and the code and the record
that LMDB would answer to an operation with. -/
structure MoveNextCall (runtime : Runtime) where
  world : World runtime
  answer : DbCursorOp → DbRetCode × KeyDataPair

namespace Cursor

/-- Run a method that knows nothing of the variable. -/
def onObjects {β : Type} (body : Call runtime β) : Method (World runtime × α) Exception β :=
  .zoom Prod.fst (fun world part => (world, part.2)) body

/-- What `Get(out entry, op)` and `GetData(out data, op)` share. -/
def getItemOut (pick : KeyDataPair → α) (c : CursorRef) (op : DbCursorOp)
    (answer : DbCursorOp → DbRetCode × KeyDataPair) : Method (World runtime × α) Exception Bool := do
  let handle ← onObjects (checkDisposed c)
  .modify fun part =>
    (part.1.onNative fun native => native.record .mdbCursorGet [.cursor handle],
      pick (answer op).2)
  if (answer op).1 = .notFound then pure false
  else do
    onObjects (checkRetCode (answer op).1)
    pure true

/-- `Cursor.Get(out entry, op)` -/
def getEntryOut : CursorRef → DbCursorOp → (DbCursorOp → DbRetCode × KeyDataPair) →
    GetItem (World runtime) Exception KeyDataPair :=
  getItemOut id

/-- `Cursor.GetData(out data, op)` -/
def getDataOut : CursorRef → DbCursorOp → (DbCursorOp → DbRetCode × KeyDataPair) →
    GetItem (World runtime) Exception Bytes :=
  getItemOut KeyDataPair.data

end Cursor

/-- The variables of `ItemsEnumerator`. -/
abbrev ItemsEnumerator := FirstNextEnumerator KeyDataPair

/-- The variables of `NextItemsEnumerator`. -/
abbrev NextItemsEnumerator := NextEnumerator KeyDataPair

/-- The variables of `ValuesEnumerator`. -/
abbrev ValuesEnumerator := FirstNextEnumerator Bytes

/-- The variables of `ValuesNextEnumerator`. -/
abbrev ValuesNextEnumerator := NextEnumerator Bytes

section MoveNext

variable (c : CursorRef) (iterator : CursorIterator) (nextOp : DbCursorOp)
  (call : MoveNextCall runtime)

def ItemsEnumerator.new : ItemsEnumerator := ⟨⟨⟨[], []⟩, false⟩, false⟩

def ItemsEnumerator.moveNext : Method (World runtime × ItemsEnumerator) Exception Bool :=
  FirstNextEnumerator.moveNext (Cursor.getEntryOut c iterator.opFirst call.answer)
    (Cursor.getEntryOut c iterator.opNext call.answer)

def NextItemsEnumerator.new : NextItemsEnumerator := ⟨⟨[], []⟩, false⟩

def NextItemsEnumerator.moveNext : Method (World runtime × NextItemsEnumerator) Exception Bool :=
  NextEnumerator.moveNext (Cursor.getEntryOut c nextOp call.answer)

def ValuesEnumerator.new : ValuesEnumerator := ⟨⟨[], false⟩, false⟩

def ValuesEnumerator.moveNext : Method (World runtime × ValuesEnumerator) Exception Bool :=
  FirstNextEnumerator.moveNext (Cursor.getDataOut c iterator.opFirst call.answer)
    (Cursor.getDataOut c iterator.opNext call.answer)

def ValuesNextEnumerator.new : ValuesNextEnumerator := ⟨[], false⟩

def ValuesNextEnumerator.moveNext : Method (World runtime × ValuesNextEnumerator) Exception Bool :=
  NextEnumerator.moveNext (Cursor.getDataOut c nextOp call.answer)

end MoveNext

/-- What the latest call of `MoveNext` returned or threw, and the enumerator after
the calls, the latest first. -/
def afterCalls {E : Type}
    (moveNext : MoveNextCall runtime → Method (World runtime × E) Exception Bool) (new : E) :
    List (MoveNextCall runtime) → Option (Except Exception Bool) × E
  | [] => (none, new)
  | call :: earlier =>
      let enumerator := (afterCalls moveNext new earlier).2
      match moveNext call (call.world, enumerator) with
      | some (result, _, after) => (some result, after)
      | none => (none, enumerator)

private theorem afterCalls_cons {E : Type}
    {moveNext : MoveNextCall runtime → Method (World runtime × E) Exception Bool} {new after : E}
    {call : MoveNextCall runtime} {earlier : List (MoveNextCall runtime)}
    {result : Except Exception Bool} {world : World runtime}
    (moved : moveNext call (call.world, (afterCalls moveNext new earlier).2) =
      some (result, (world, after))) :
    afterCalls moveNext new (call :: earlier) = (some result, after) := by
  rw [afterCalls, moved]

/-- The operation of a call of `MoveNext` after these calls. -/
def CursorIterator.opAfter (iterator : CursorIterator) (earlier : List (MoveNextCall runtime)) :
    DbCursorOp :=
  if earlier.isEmpty then iterator.opFirst else iterator.opNext

namespace MoveNextCall

variable (c : CursorRef) (op : DbCursorOp) (call : MoveNextCall runtime)

/-- The cursor is disposed, or LMDB fails. -/
def Throws : Prop :=
  call.world.cur c = 0 ∨ (call.answer op).1 ≠ .success ∧ (call.answer op).1 ≠ .notFound

instance : Decidable (call.Throws c op) := inferInstanceAs (Decidable (_ ∨ _))

/-- LMDB finds a record. -/
def found : Bool := (call.answer op).1 = .success

end MoveNextCall

section Calls

variable (c : CursorRef) (op : List (MoveNextCall runtime) → DbCursorOp)

/-- The latest of the calls that did not throw found a record. -/
def lastFound : List (MoveNextCall runtime) → Bool
  | [] => false
  | call :: earlier =>
      if call.Throws c (op earlier) then lastFound earlier else call.found (op earlier)

/-- The latest call threw, and the latest one before it that did not throw found a
record. -/
def Stale : List (MoveNextCall runtime) → Prop
  | [] => False
  | call :: earlier => call.Throws c (op earlier) ∧ lastFound c op earlier = true

/-- `Current` returns exactly when the latest call of `MoveNext` returned true, and
then the record of that call; otherwise it throws. -/
structure CurrentTells (pick : KeyDataPair → α) (calls : List (MoveNextCall runtime))
    (latest : Option (Except Exception Bool)) (current : Except Exception α) : Prop where
  returns : ∀ item, current = .ok item ↔ latest = some (.ok true) ∧
    ∃ call earlier, calls = call :: earlier ∧ item = pick (call.answer (op earlier)).2
  throws : latest ≠ some (.ok true) → current = .error invalidPosition

/-- What the variables of an enumerator are after calls of `MoveNext`. -/
def HeldAfter (pick : KeyDataPair → α) (calls : List (MoveNextCall runtime))
    (latest : Option (Except Exception Bool)) (held : NextEnumerator α) : Prop :=
  held.isCurrent = lastFound c op calls ∧
    match calls with
    | [] => latest = none
    | call :: earlier =>
        if call.Throws c (op earlier) then ∃ exception, latest = some (.error exception)
        else latest = some (.ok (call.found (op earlier))) ∧
          held.current = pick (call.answer (op earlier)).2

variable {c op} {pick : KeyDataPair → α} {calls earlier : List (MoveNextCall runtime)}
  {latest : Option (Except Exception Bool)} {held : NextEnumerator α}

private theorem getCurrent_eq_ok_iff {item : α} :
    held.getCurrent invalidPosition = .ok item ↔ held.isCurrent = true ∧ held.current = item := by
  rw [NextEnumerator.getCurrent]
  split
  · rename_i flag
    simp [flag]
  · rename_i flag
    simp [flag]

private theorem getCurrent_of_false (flag : held.isCurrent = false) :
    held.getCurrent invalidPosition = .error invalidPosition := by
  rw [NextEnumerator.getCurrent, flag]
  rfl

/-- `Current` is right exactly when the flag is not left over from an earlier call. -/
theorem HeldAfter.tells_iff (heldAfter : HeldAfter c op pick calls latest held) :
    CurrentTells op pick calls latest (held.getCurrent invalidPosition) ↔ ¬Stale c op calls := by
  obtain ⟨flag, shape⟩ := heldAfter
  cases calls with
  | nil =>
      refine iff_of_true ⟨?_, fun _ => getCurrent_of_false flag⟩ id
      intro item
      rw [getCurrent_of_false flag]
      simp
  | cons call earlier =>
      rw [lastFound] at flag
      dsimp only at shape
      by_cases throws : call.Throws c (op earlier)
      · rw [if_pos throws] at shape flag
        obtain ⟨exception, rfl⟩ := shape
        rw [Stale, ← flag]
        constructor
        · intro tells stale
          have current := getCurrent_eq_ok_iff.mpr ⟨stale.2, rfl⟩
          have returned := ((tells.returns _).mp current).1
          cases returned
        · intro fresh
          have off : held.isCurrent = false := by
            by_contra on
            exact fresh ⟨throws, by simpa using on⟩
          refine ⟨?_, fun _ => getCurrent_of_false off⟩
          intro item
          rw [getCurrent_of_false off]
          simp
      · rw [if_neg throws] at shape flag
        obtain ⟨rfl, current⟩ := shape
        refine iff_of_true ⟨?_, ?_⟩ fun stale => throws stale.1
        · intro item
          rw [getCurrent_eq_ok_iff, flag, current]
          constructor
          · rintro ⟨found, rfl⟩
            exact ⟨by rw [found], call, earlier, rfl, rfl⟩
          · rintro ⟨returned, _, _, same, rfl⟩
            cases same
            exact ⟨Except.ok.inj (Option.some.inj returned), rfl⟩
        · intro other
          apply getCurrent_of_false
          rw [flag]
          by_contra on
          exact other (by rw [Bool.eq_true_of_not_eq_false on])

private theorem onObjects_of_some {β : Type} {body : Call runtime β} {world : World runtime}
    {result : Except Exception β} (ran : body world = some (result, world)) (old : α) :
    Cursor.onObjects body (world, old) = some (result, (world, old)) := by
  have there : body (Prod.fst (world, old)) = some (result, world) := ran
  exact Method.zoom_of_some there

/-- One call of `Get` or `GetData`. -/
theorem getItemOut_cases (pick : KeyDataPair → α) (c : CursorRef) (call : MoveNextCall runtime)
    (op : DbCursorOp) (old : α) :
    ∃ result world item,
      Cursor.getItemOut pick c op call.answer (call.world, old) = some (result, (world, item)) ∧
      if call.Throws c op then ∃ exception, result = .error exception
      else result = .ok (call.found op) ∧ item = pick (call.answer op).2 := by
  by_cases disposed : call.world.cur c = 0
  · obtain ⟨name, check⟩ := Cursor.checkDisposed_of_disposed disposed
    have throws : call.Throws c op := .inl disposed
    refine ⟨.error (.objectDisposed name), call.world, old, ?_, by rw [if_pos throws]; exact ⟨_, rfl⟩⟩
    rw [Cursor.getItemOut, Method.bind_of_error (onObjects_of_some check old)]
  · have check := onObjects_of_some (Cursor.checkDisposed_of_live disposed) old
    let got := call.world.onNative fun native =>
      native.record .mdbCursorGet [.cursor (call.world.cur c)]
    by_cases missing : (call.answer op).1 = .notFound
    · have returns : ¬call.Throws c op := by
        rintro (absurd' | ⟨_, other⟩)
        · exact disposed absurd'
        · exact other missing
      have none : call.found op = false := by
        rw [MoveNextCall.found, missing]
        rfl
      refine ⟨.ok false, got, pick (call.answer op).2, ?_,
        by rw [if_neg returns, none]; exact ⟨rfl, rfl⟩⟩
      rw [Cursor.getItemOut, Method.bind_of_ok check, Method.modify_bind, if_pos missing]
      rfl
    · by_cases succeeded : (call.answer op).1 = .success
      · have returns : ¬call.Throws c op := by
          rintro (absurd' | ⟨other, _⟩)
          · exact disposed absurd'
          · exact other succeeded
        have one : call.found op = true := by
          rw [MoveNextCall.found, succeeded]
          rfl
        have checked := onObjects_of_some (checkRetCode_success got) (pick (call.answer op).2)
        refine ⟨.ok true, got, pick (call.answer op).2, ?_,
          by rw [if_neg returns, one]; exact ⟨rfl, rfl⟩⟩
        rw [Cursor.getItemOut, Method.bind_of_ok check, Method.modify_bind, if_neg missing,
          succeeded, Method.bind_of_ok checked]
        rfl
      · have throws : call.Throws c op := .inr ⟨succeeded, missing⟩
        obtain ⟨message, failed⟩ := checkRetCode_failed succeeded got
        have checked := onObjects_of_some failed (pick (call.answer op).2)
        refine ⟨.error (.lmdb (call.answer op).1 message), got, pick (call.answer op).2, ?_,
          by rw [if_pos throws]; exact ⟨_, rfl⟩⟩
        rw [Cursor.getItemOut, Method.bind_of_ok check, Method.modify_bind, if_neg missing,
          Method.bind_of_error checked]

/-- One call of `MoveNext`. -/
theorem HeldAfter.next (heldAfter : HeldAfter c op pick earlier latest held)
    (call : MoveNextCall runtime) :
    ∃ result world after,
      NextEnumerator.moveNext (Cursor.getItemOut pick c (op earlier) call.answer)
        (call.world, held) = some (result, (world, after)) ∧
      HeldAfter c op pick (call :: earlier) (some result) after := by
  obtain ⟨result, world, item, got, shape⟩ :=
    getItemOut_cases pick c call (op earlier) held.current
  by_cases throws : call.Throws c (op earlier)
  · rw [if_pos throws] at shape
    obtain ⟨exception, rfl⟩ := shape
    refine ⟨_, _, _, NextEnumerator.moveNext_of_error got, ?_, ?_⟩
    · rw [lastFound, if_pos throws]
      exact heldAfter.1
    · dsimp only
      rw [if_pos throws]
      exact ⟨exception, rfl⟩
  · rw [if_neg throws] at shape
    obtain ⟨rfl, rfl⟩ := shape
    refine ⟨_, _, _, NextEnumerator.moveNext_of_ok got, ?_, ?_⟩
    · rw [lastFound, if_neg throws]
    · dsimp only
      rw [if_neg throws]
      exact ⟨rfl, rfl⟩

/-- An enumerator with one operation holds what its calls left. -/
theorem heldAfter_next (pick : KeyDataPair → α) (c : CursorRef) (nextOp : DbCursorOp)
    (new : NextEnumerator α) (unset : new.isCurrent = false)
    (calls : List (MoveNextCall runtime)) :
    HeldAfter c (fun _ => nextOp) pick calls
      (afterCalls (fun call => NextEnumerator.moveNext (Cursor.getItemOut pick c nextOp call.answer))
        new calls).1
      (afterCalls (fun call => NextEnumerator.moveNext (Cursor.getItemOut pick c nextOp call.answer))
        new calls).2 := by
  induction calls with
  | nil => exact ⟨unset, rfl⟩
  | cons call earlier ih =>
      obtain ⟨result, world, after, moved, heldAfter⟩ := ih.next call
      rw [afterCalls_cons moved]
      exact heldAfter

/-- So does one that gets its first item with another operation. -/
theorem heldAfter_firstNext (pick : KeyDataPair → α) (c : CursorRef)
    (iterator : CursorIterator) (new : NextEnumerator α) (unset : new.isCurrent = false)
    (calls : List (MoveNextCall runtime)) :
    HeldAfter c iterator.opAfter pick calls
      (afterCalls (fun call => FirstNextEnumerator.moveNext
        (Cursor.getItemOut pick c iterator.opFirst call.answer)
        (Cursor.getItemOut pick c iterator.opNext call.answer)) ⟨new, false⟩ calls).1
      (afterCalls (fun call => FirstNextEnumerator.moveNext
        (Cursor.getItemOut pick c iterator.opFirst call.answer)
        (Cursor.getItemOut pick c iterator.opNext call.answer)) ⟨new, false⟩
        calls).2.toNextEnumerator ∧
    (afterCalls (fun call => FirstNextEnumerator.moveNext
        (Cursor.getItemOut pick c iterator.opFirst call.answer)
        (Cursor.getItemOut pick c iterator.opNext call.answer)) ⟨new, false⟩
        calls).2.isInitialized = !calls.isEmpty := by
  induction calls with
  | nil => exact ⟨⟨unset, rfl⟩, rfl⟩
  | cons call earlier ih =>
      obtain ⟨result, world, after, moved, heldAfter⟩ := ih.1.next call
      have used : (Cursor.getItemOut pick c (iterator.opAfter earlier) call.answer :
          Method (World runtime × α) Exception Bool) =
          if (!earlier.isEmpty) = true then Cursor.getItemOut pick c iterator.opNext call.answer
          else Cursor.getItemOut pick c iterator.opFirst call.answer := by
        rw [CursorIterator.opAfter]
        cases earlier <;> rfl
      rw [used, ← ih.2] at moved
      rw [afterCalls_cons (FirstNextEnumerator.moveNext_of_some moved)]
      exact ⟨heldAfter, rfl⟩

end Calls

/-- After any calls of `MoveNext` on any of the four enumerators, `Current` returns
exactly when the latest call returned true, unless the latest calls threw after one
that found a record. -/
theorem current_tells_iff (c : CursorRef) (iterator : CursorIterator) (nextOp : DbCursorOp)
    (calls : List (MoveNextCall runtime)) :
    (CurrentTells iterator.opAfter id calls
        (afterCalls (ItemsEnumerator.moveNext c iterator) ItemsEnumerator.new calls).1
        ((afterCalls (ItemsEnumerator.moveNext c iterator) ItemsEnumerator.new
          calls).2.getCurrent invalidPosition) ↔ ¬Stale c iterator.opAfter calls) ∧
    (CurrentTells (fun _ => nextOp) id calls
        (afterCalls (NextItemsEnumerator.moveNext c nextOp) NextItemsEnumerator.new calls).1
        ((afterCalls (NextItemsEnumerator.moveNext c nextOp) NextItemsEnumerator.new
          calls).2.getCurrent invalidPosition) ↔ ¬Stale c (fun _ => nextOp) calls) ∧
    (CurrentTells iterator.opAfter KeyDataPair.data calls
        (afterCalls (ValuesEnumerator.moveNext c iterator) ValuesEnumerator.new calls).1
        ((afterCalls (ValuesEnumerator.moveNext c iterator) ValuesEnumerator.new
          calls).2.getCurrent invalidPosition) ↔ ¬Stale c iterator.opAfter calls) ∧
    (CurrentTells (fun _ => nextOp) KeyDataPair.data calls
        (afterCalls (ValuesNextEnumerator.moveNext c nextOp) ValuesNextEnumerator.new calls).1
        ((afterCalls (ValuesNextEnumerator.moveNext c nextOp) ValuesNextEnumerator.new
          calls).2.getCurrent invalidPosition) ↔ ¬Stale c (fun _ => nextOp) calls) :=
  ⟨(heldAfter_firstNext id c iterator ⟨⟨[], []⟩, false⟩ rfl calls).1.tells_iff,
    (heldAfter_next id c nextOp ⟨⟨[], []⟩, false⟩ rfl calls).tells_iff,
    (heldAfter_firstNext KeyDataPair.data c iterator ⟨[], false⟩ rfl calls).1.tells_iff,
    (heldAfter_next KeyDataPair.data c nextOp ⟨[], false⟩ rfl calls).tells_iff⟩

section Loops

variable (pick : KeyDataPair → α) (c : CursorRef)

/-- What LMDB answers from here. -/
def Browsing.answer (browsing : Browsing runtime) (c : CursorRef) (op : DbCursorOp) :
    DbRetCode × KeyDataPair :=
  (Browsing.mdbCursorGet (browsing.world.cur c) op browsing).1

private theorem mdbCursorGet_world (cursor : IntPtr) (op : DbCursorOp)
    (browsing : Browsing runtime) :
    (Browsing.mdbCursorGet cursor op browsing).2.world =
      browsing.world.onNative fun native => native.record .mdbCursorGet [.cursor cursor] := by
  rw [Browsing.mdbCursorGet]
  split <;> rfl

/-- The members that the loops call and the members of the source do the same. -/
theorem getItemOut_handsOut (op : DbCursorOp) (browsing : Browsing runtime) :
    HandsOut Browsing.world (Cursor.getItemOut pick c op (browsing.answer c))
      (Cursor.getItem pick c op) browsing := by
  intro old found item after got
  by_cases disposed : browsing.world.cur c = 0
  · obtain ⟨name, check⟩ := Cursor.checkDisposed_of_disposed disposed
    rw [Cursor.getItem, Method.bind_of_error (browse_of_some check)] at got
    cases got
  · have world := mdbCursorGet_world (browsing.world.cur c) op browsing
    have check := Cursor.checkDisposed_of_live disposed
    rw [Cursor.getItem, Method.bind_of_ok (browse_of_some check), Method.call_bind] at got
    rw [Cursor.getItemOut, Method.bind_of_ok (onObjects_of_some check old), Method.modify_bind,
      ← world, Browsing.answer]
    generalize Browsing.mdbCursorGet (browsing.world.cur c) op browsing = answered at got ⊢
    obtain ⟨⟨ret, record⟩, later⟩ := answered
    dsimp only at got ⊢
    by_cases missing : ret = .notFound
    · rw [if_pos missing] at got ⊢
      cases got
      rfl
    · rw [if_neg missing] at got ⊢
      by_cases succeeded : ret = .success
      · have checked := onObjects_of_some (checkRetCode_success later.world) (pick record)
        rw [succeeded, Method.bind_of_ok (browse_of_some (checkRetCode_success later.world))] at got
        rw [succeeded, Method.bind_of_ok checked]
        cases got
        rfl
      · obtain ⟨message, failed⟩ := checkRetCode_failed succeeded later.world
        rw [Method.bind_of_error (browse_of_some failed)] at got
        cases got

/-- A loop over an `ItemsIterator` or a `ValuesIterator` moves as its enumerator does. -/
theorem firstNextEnumerator_moves {iterator : CursorIterator} {browsing after : Browsing runtime}
    {enumerator : FirstNextEnumerator α} {found : Bool} {shows : Enumerator α}
    (moved : enumerator.shown.moveNext (Cursor.getItem pick c iterator.opFirst)
      (Cursor.getItem pick c iterator.opNext) browsing = some (.ok (found, shows), after)) :
    ∃ later, FirstNextEnumerator.moveNext
        (Cursor.getItemOut pick c iterator.opFirst (browsing.answer c))
        (Cursor.getItemOut pick c iterator.opNext (browsing.answer c))
        (browsing.world, enumerator) = some (.ok found, (after.world, later)) ∧
      later.shown = shows :=
  FirstNextEnumerator.moveNext_shown (getItemOut_handsOut pick c iterator.opFirst browsing)
    (getItemOut_handsOut pick c iterator.opNext browsing) moved

/-- So does a loop over a `NextItemsIterator` or a `ValuesNextIterator`. -/
theorem nextEnumerator_moves {nextOp : DbCursorOp} {browsing after : Browsing runtime}
    {enumerator : NextEnumerator α} {isInitialized found : Bool} {shows : Enumerator α}
    (moved : (enumerator.shown isInitialized).moveNext (Cursor.getItem pick c nextOp)
      (Cursor.getItem pick c nextOp) browsing = some (.ok (found, shows), after)) :
    ∃ later, NextEnumerator.moveNext (Cursor.getItemOut pick c nextOp (browsing.answer c))
        (browsing.world, enumerator) = some (.ok found, (after.world, later)) ∧
      later.shown true = shows :=
  NextEnumerator.moveNext_shown (getItemOut_handsOut pick c nextOp browsing) moved

end Loops

/-- A record is found, then the read of a page fails. -/
def foundThenFailed (world : World .ascii) : List (MoveNextCall .ascii) :=
  [⟨world, fun _ => (⟨-30797⟩, ⟨[], []⟩)⟩, ⟨world, fun _ => (.success, ⟨[1], [5]⟩)⟩]

/-- The latest call of `MoveNext` threw, but `Current` returns. -/
theorem current_after_failure : ∃ world : World .ascii,
    History Always .none 0 multiValueCursor world ∧
    ((afterCalls (ItemsEnumerator.moveNext 0 Cursor.forward) ItemsEnumerator.new
      (foundThenFailed world)).1.map Except.toBool = some false ∧
    ((afterCalls (ItemsEnumerator.moveNext 0 Cursor.forward) ItemsEnumerator.new
      (foundThenFailed world)).2.getCurrent invalidPosition).toOption = some ⟨[], []⟩) ∧
    ¬CurrentTells (Cursor.forward).opAfter id (foundThenFailed world)
      (afterCalls (ItemsEnumerator.moveNext 0 Cursor.forward) ItemsEnumerator.new
        (foundThenFailed world)).1
      ((afterCalls (ItemsEnumerator.moveNext 0 Cursor.forward) ItemsEnumerator.new
        (foundThenFailed world)).2.getCurrent invalidPosition) := by
  obtain ⟨world, history, live, observed⟩ := history_of_replay Always .none 0 multiValueCursor
    (fun world : World .ascii => world.cur 0 ≠ 0 ∧
      (afterCalls (ItemsEnumerator.moveNext 0 Cursor.forward) ItemsEnumerator.new
        (foundThenFailed world)).1.map Except.toBool = some false ∧
      ((afterCalls (ItemsEnumerator.moveNext 0 Cursor.forward) ItemsEnumerator.new
        (foundThenFailed world)).2.getCurrent invalidPosition).toOption = some ⟨[], []⟩)
    (by decide +kernel)
  have heldAfter := (heldAfter_firstNext id 0 Cursor.forward ⟨⟨[], []⟩, false⟩ rfl
    (foundThenFailed world)).1
  have stale : Stale 0 (Cursor.forward).opAfter (foundThenFailed world) := by
    have neither : (⟨-30797⟩ : DbRetCode) ≠ .success ∧ (⟨-30797⟩ : DbRetCode) ≠ .notFound := by
      decide
    refine ⟨.inr neither, ?_⟩
    rw [lastFound, if_neg]
    · rfl
    · rintro (absurd' | ⟨other, _⟩)
      · exact live absurd'
      · exact other rfl
  exact ⟨world, history, observed, fun tells => heldAfter.tells_iff.mp tells stale⟩

end KdSoftLmdb
